import Mathlib.Logic.Relation
import ScreenGraph.Proofs.Consistency

namespace ScreenGraph.Graph

inductive Operation
  | addState (s : State)
  | virtualState (window : WindowId) (version : Version)
  | addTransition (t : Transition) (c : Coverage)
  | removeTransition (id : TransitionId)
  | redirect (id : TransitionId) (dest : StateId)
  | activate (id : TransitionId)
  | deactivate (id : TransitionId)
  | exercise (id : TransitionId) (i : Interaction)
  | mergeCoverage (id : TransitionId) (c : Coverage)

def Operation.takes? : Operation → Option TransitionId
  | .activate id => some id
  | .exercise id _ => some id
  | _ => none

def Operation.counts : Operation → Bool
  | .addTransition t _ => t.isActive
  | op => op.takes?.isSome

def apply (o : Overflow) (g : Graph) : Operation → Checked Graph
  | .addState s => return (← g.addState s).2
  | .virtualState w v => return (← g.virtualState w v).2
  | .addTransition t c => return (← g.addTransition t c).2
  | .removeTransition id => return (← g.removeTransition id).2
  | .redirect id dest => g.redirect id dest
  | .activate id => g.activate o id
  | .deactivate id => g.deactivate id
  | .exercise id i => g.exercise o id i
  | .mergeCoverage id c => g.mergeCoverage id c

def applyAll (o : Overflow) (g : Graph) (ops : List Operation) : Checked Graph :=
  foldChecked (apply o) g ops

def Operation.Fits (g : Graph) : Operation → Prop
  | .addState s => s.outgoing.isEmpty = true
  | .virtualState _ _ => True
  | .addTransition t _ => g.states.contains t.source = true ∧ g.states.contains t.dest = true
  | .removeTransition _ => True
  | .redirect id dest => g.states.contains dest = true ∧ g.transitions.contains id = true
  | .activate id => g.transitions.contains id = true
  | .deactivate id => g.transitions.contains id = true
  | .exercise id _ => g.transitions.contains id = true
  | .mergeCoverage id _ => g.transitions.contains id = true

instance (g : Graph) : (op : Operation) → Decidable (op.Fits g)
  | .addState _ => inferInstanceAs (Decidable (_ = _))
  | .virtualState _ _ => inferInstanceAs (Decidable True)
  | .addTransition _ _ => inferInstanceAs (Decidable (_ ∧ _))
  | .removeTransition _ => inferInstanceAs (Decidable True)
  | .redirect _ _ => inferInstanceAs (Decidable (_ ∧ _))
  | .activate _ => inferInstanceAs (Decidable (_ = _))
  | .deactivate _ => inferInstanceAs (Decidable (_ = _))
  | .exercise _ _ => inferInstanceAs (Decidable (_ = _))
  | .mergeCoverage _ _ => inferInstanceAs (Decidable (_ = _))

/-- Each operation fits the graph that those before it have left. -/
def Admits (o : Overflow) : Graph → List Operation → Prop
  | _, [] => True
  | g, op :: rest => op.Fits g ∧ ∀ g', g.apply o op = .ok g' → g'.Admits o rest

instance decidableAdmits (o : Overflow) :
    (g : Graph) → (ops : List Operation) → Decidable (g.Admits o ops)
  | _, [] => isTrue trivial
  | g, op :: rest =>
    match applied : g.apply o op with
    | .ok g' =>
      have := decidableAdmits o g' rest
      decidable_of_iff (op.Fits g ∧ g'.Admits o rest) (by simp [Admits, applied])
    | .error _ => decidable_of_iff (op.Fits g) (by simp [Admits, applied])

inductive Step (g : Graph) : Operation → Graph → Prop
  | addState {s} (bare : s.outgoing.isEmpty = true) :
      Step g (.addState s) { g with states := (g.states.add s).2 }
  | findVirtual {w v s} (found : g.virtualStates.get? (w, v) = some s) :
      Step g (.virtualState w v) g
  | addVirtual {w v} (absent : g.virtualStates.get? (w, v) = none) :
      Step g (.virtualState w v) { g with
        states := (g.states.add { window := w, version := v, kind := .virtual }).2
        virtualStates := g.virtualStates.insert (w, v) g.states.next }
  | addTransition {t c} (source : g.states.contains t.source = true)
      (dest : g.states.contains t.dest = true) : Step g (.addTransition t c) (g.withEdge t c)
  | removeNothing {id} (vacant : g.transitions.get? id = none) : Step g (.removeTransition id) g
  | removeTransition {id t} (live : g.transitions.get? id = some t) :
      Step g (.removeTransition id) (g.withoutEdge id t.source)
  | redirect {id dest} (there : g.states.contains dest = true)
      (live : g.transitions.contains id = true) : Step g (.redirect id dest)
        { g with transitions := g.transitions.modify id fun t => { t with dest } }
  | activate {id n} (live : g.transitions.contains id = true)
      (found : g.activation.get? id = some n) : Step g (.activate id) { g with
        transitions := g.transitions.modify id (fun t => { t with isActive := true })
        activation := g.activation.insert id (n + 1) }
  | deactivate {id} (live : g.transitions.contains id = true) : Step g (.deactivate id)
      { g with transitions := g.transitions.modify id fun t => { t with isActive := false } }
  | exercise {id i n} (live : g.transitions.contains id = true)
      (found : g.activation.get? id = some n) : Step g (.exercise id i) { g with
        transitions := g.transitions.modify id
          (fun t => { t with interactions := t.interactions ++ [i], isActive := true })
        activation := g.activation.insert id (n + 1) }
  | mergeCoverage {id c old} (found : g.coverages.get? id = some old) :
      Step g (.mergeCoverage id c)
        { g with coverages := g.coverages.insert id (old.merge c) }

variable {o : Overflow} {g g' : Graph} {op : Operation} {ops done : List Operation}

theorem apply_step (ok : g.apply o op = .ok g') : g.Step op g' := by
  cases op with
  | addState s =>
    obtain ⟨⟨id, g₁⟩, added, done⟩ := Checked.bind_eq_ok.1 ok
    cases done
    obtain ⟨bare, -, rfl⟩ := addState_eq_ok added
    exact .addState bare
  | virtualState w v =>
    obtain ⟨⟨id, g₁⟩, made, done⟩ := Checked.bind_eq_ok.1 ok
    cases done
    obtain ⟨found, rfl⟩ | ⟨absent, g₁, added, rfl⟩ := virtualState_eq_ok made
    · exact .findVirtual found
    · obtain ⟨-, rfl, rfl⟩ := addState_eq_ok added
      exact .addVirtual absent
  | addTransition t c =>
    obtain ⟨⟨id, g₁⟩, added, done⟩ := Checked.bind_eq_ok.1 ok
    cases done
    obtain ⟨source, dest, -, rfl⟩ := addTransition_eq_ok.1 added
    exact .addTransition source dest
  | removeTransition id =>
    obtain ⟨⟨old, g₁⟩, removed, done⟩ := Checked.bind_eq_ok.1 ok
    cases done
    obtain ⟨-, ⟨vacant, rfl⟩ | ⟨t, live, rfl⟩⟩ := removeTransition_eq_ok removed
    · exact .removeNothing vacant
    · exact .removeTransition live
  | redirect id dest =>
    obtain ⟨there, live, rfl⟩ := redirect_eq_ok.1 ok
    exact .redirect there live
  | activate id =>
    obtain ⟨n, live, found, -, rfl⟩ := activate_eq_ok.1 ok
    exact .activate live found
  | deactivate id =>
    obtain ⟨live, rfl⟩ := updateTransition_eq_ok.1 ok
    exact .deactivate live
  | exercise id i =>
    obtain ⟨g₁, noted, activated⟩ := Checked.bind_eq_ok.1 ok
    obtain ⟨live, rfl⟩ := updateTransition_eq_ok.1 noted
    obtain ⟨n, -, found, -, rfl⟩ := activate_eq_ok.1 activated
    rw [Arena.modify_modify]
    exact .exercise live found
  | mergeCoverage id c =>
    obtain ⟨old, found, rfl⟩ := mergeCoverage_eq_ok.1 ok
    exact .mergeCoverage found

theorem addState_of_bare {s : State} (bare : s.outgoing.isEmpty = true) :
    g.addState s = .ok (g.states.next, { g with states := (g.states.add s).2 }) := if_pos bare

theorem virtualState_succeeds (g : Graph) (w : WindowId) (v : Version) :
    Succeeds (g.virtualState w v) := by
  unfold virtualState
  split
  · exact succeeds_ok _
  · exact .after (addState_of_bare rfl) (succeeds_pure _)

theorem updateTransition_of_live {id : TransitionId} (live : g.transitions.contains id = true)
    (f : Transition → Transition) :
    g.updateTransition id f = .ok { g with transitions := g.transitions.modify id f } :=
  updateTransition_eq_ok.2 ⟨live, rfl⟩

theorem activationCount_of_get? {id : TransitionId} {n : UInt32}
    (found : g.activation.get? id = some n) : g.activationCount id = n := by
  rw [activationCount, found, Option.getD_some]

theorem activate_succeeds {id : TransitionId} (live : g.transitions.contains id = true)
    (counted : g.activation.contains id = true) (room : o.allows (g.activationCount id) = true) :
    Succeeds (g.activate o id) := by
  obtain ⟨n, found⟩ := OrderedMap.contains_iff.1 counted
  rw [activationCount_of_get? found] at room
  exact ⟨_, activate_eq_ok.2 ⟨n, live, found, room, rfl⟩⟩

theorem activate_overflows {id : TransitionId} (live : g.transitions.contains id = true)
    (counted : g.activation.contains id = true) (full : o.allows (g.activationCount id) = false) :
    g.activate o id = .error (.activationOverflow id) := by
  obtain ⟨n, found⟩ := OrderedMap.contains_iff.1 counted
  rw [activationCount_of_get? found] at full
  rw [activate, updateTransition_of_live live]
  simp only [bind, Except.bind, found, require, full]
  rfl

theorem mergeCoverage_succeeds {id : TransitionId} (covered : g.coverages.contains id = true)
    (c : Coverage) : Succeeds (g.mergeCoverage id c) := by
  obtain ⟨old, found⟩ := OrderedMap.contains_iff.1 covered
  exact ⟨_, mergeCoverage_eq_ok.2 ⟨old, found, rfl⟩⟩

namespace Consistent

theorem apply_succeeds (h : g.Consistent) (fits : op.Fits g)
    (room : ∀ id, op.takes? = some id → o.allows (g.activationCount id) = true) :
    Succeeds (g.apply o op) := by
  cases op with
  | addState s => exact .after (addState_of_bare fits) (succeeds_pure _)
  | virtualState w v => exact (virtualState_succeeds g w v).bind fun _ _ => succeeds_pure _
  | addTransition t c =>
    obtain ⟨source, dest⟩ := fits
    exact .after (addTransition_eq_ok.2 ⟨source, dest, rfl, rfl⟩) (succeeds_pure _)
  | removeTransition id => exact (h.removeTransition_succeeds id).bind fun _ _ => succeeds_pure _
  | redirect id dest => exact ⟨_, redirect_eq_ok.2 ⟨fits.1, fits.2, rfl⟩⟩
  | activate id => exact activate_succeeds fits ((h.activation id).trans fits) (room id rfl)
  | deactivate id => exact ⟨_, updateTransition_of_live fits _⟩
  | exercise id i =>
    refine .after (updateTransition_of_live fits _) ?_
    refine activate_succeeds ?_ ((h.activation id).trans fits) (room id rfl)
    exact (Arena.contains_modify ..).trans fits
  | mergeCoverage id c => exact mergeCoverage_succeeds ((h.coverages id).trans fits) c

theorem apply_overflows (h : g.Consistent) (fits : op.Fits g) {id : TransitionId}
    (takes : op.takes? = some id) (full : o.allows (g.activationCount id) = false) :
    g.apply o op = .error (.activationOverflow id) := by
  cases op with
  | activate k =>
    cases takes
    exact activate_overflows fits ((h.activation id).trans fits) full
  | exercise k i =>
    cases takes
    change g.exercise o id i = _
    rw [exercise, updateTransition_of_live fits]
    refine activate_overflows ?_ ((h.activation id).trans fits) full
    exact (Arena.contains_modify ..).trans fits
  | _ => cases takes

theorem apply_succeeds_or (h : g.Consistent) (fits : op.Fits g) : Succeeds (g.apply o op) ∨
    ∃ id, op.takes? = some id ∧ o.allows (g.activationCount id) = false := by
  cases takes : op.takes? with
  | none => exact .inl (h.apply_succeeds fits (by simp [takes]))
  | some id =>
    cases room : o.allows (g.activationCount id) with
    | false => exact .inr ⟨id, rfl, room⟩
    | true =>
      refine .inl (h.apply_succeeds fits fun k same => ?_)
      cases takes.symm.trans same
      exact room

theorem take (h : g.Consistent) {id : TransitionId} {n k : UInt32} {f : Transition → Transition}
    (found : g.activation.get? id = some n)
    (ends : ∀ t, (f t).source = t.source ∧ (f t).dest = t.dest) :
    Consistent { g with
      transitions := g.transitions.modify id f
      activation := g.activation.insert id k } :=
  (h.modify ends).insertActivation (OrderedMap.contains_of_get? found)

theorem step (h : g.Consistent) {op : Operation} (step : g.Step op g') : g'.Consistent := by
  cases step with
  | addState bare => exact h.addState (addState_of_bare bare)
  | findVirtual => exact h
  | addVirtual => exact (h.addState (addState_of_bare rfl)).withVirtuals _
  | addTransition source dest => exact h.withEdge source dest
  | removeNothing => exact h
  | removeTransition live => exact h.withoutEdge live
  | redirect there => exact h.redirect there
  | activate _ found => exact h.take found fun _ => ⟨rfl, rfl⟩
  | deactivate => exact h.modify fun _ => ⟨rfl, rfl⟩
  | exercise _ found => exact h.take found fun _ => ⟨rfl, rfl⟩
  | mergeCoverage found => exact h.insertCoverage (OrderedMap.contains_of_get? found)

end Consistent

/-- The operations go through up to one that takes an edge which can not be counted any more. -/
inductive Overflows (o : Overflow) (g : Graph) : List Operation → Prop
  | intro {early op rest id g'} (ran : g.applyAll o early = .ok g') (sound : g'.Consistent)
      (takes : op.takes? = some id) (full : o.allows (g'.activationCount id) = false)
      (stops : g.applyAll o (early ++ op :: rest) = .error (.activationOverflow id)) :
      Overflows o g (early ++ op :: rest)

theorem applyAll_cons (applied : g.apply o op = .ok g') :
    g.applyAll o (op :: ops) = g'.applyAll o ops := by
  rw [applyAll, foldChecked, applied]
  rfl

theorem Overflows.cons (applied : g.apply o op = .ok g') (h : g'.Overflows o ops) :
    g.Overflows o (op :: ops) := by
  obtain ⟨ran, sound, takes, full, stops⟩ := h
  rw [← List.cons_append]
  refine .intro ((applyAll_cons applied).trans ran) sound takes full ?_
  exact (applyAll_cons applied).trans stops

theorem Consistent.applyAll (h : g.Consistent) (fits : g.Admits o ops) :
    (∃ g', g.applyAll o ops = .ok g' ∧ g'.Consistent) ∨ g.Overflows o ops := by
  induction ops generalizing g with
  | nil => exact .inl ⟨g, rfl, h⟩
  | cons op rest ih =>
    obtain ⟨first, fits⟩ := fits
    rcases h.apply_succeeds_or first with ⟨g₁, applied⟩ | ⟨id, takes, full⟩
    · rcases ih (h.step (apply_step applied)) (fits g₁ applied) with goes | overflows
      · obtain ⟨g', followed, consistent⟩ := goes
        exact .inl ⟨g', (applyAll_cons applied).trans followed, consistent⟩
      · exact .inr (overflows.cons applied)
    · refine .inr (@Overflows.intro o g [] op rest id g rfl h takes full ?_)
      rw [List.nil_append, Graph.applyAll, foldChecked, h.apply_overflows first takes full]
      rfl

section

variable {id k : TransitionId}

theorem activationCount_insert {n : UInt32} (written : g'.activation = g.activation.insert k n) :
    g'.activationCount id = if k = id then n else g.activationCount id := by
  simp only [activationCount, written, OrderedMap.get?_insert]
  split <;> rfl

theorem toNat_succ_le (n : UInt32) : (n + 1).toNat ≤ n.toNat + 1 := by
  rw [UInt32.toNat_add, UInt32.toNat_one]
  exact Nat.mod_le ..

theorem Step.activationCount_le (step : g.Step op g') :
    (g'.activationCount id).toNat ≤
      (g.activationCount id).toNat + [op].countP Operation.counts := by
  have counted {k n} (found : g.activation.get? k = some n)
      (written : g'.activation = g.activation.insert k (n + 1)) :
      (g'.activationCount id).toNat ≤ (g.activationCount id).toNat + 1 := by
    rw [activationCount_insert written]
    split
    · next same =>
      rw [← same, activationCount_of_get? found]
      exact toNat_succ_le n
    · exact Nat.le_succ _
  cases step with
  | @addTransition t c =>
    have written : (g.withEdge t c).activation =
        g.activation.insert g.transitions.next (if t.isActive then 1 else 0) := rfl
    rw [activationCount_insert written]
    split
    · cases active : t.isActive <;> simp [Operation.counts, active]
    · exact Nat.le_add_right ..
  | removeTransition =>
    simp only [activationCount, withoutEdge, OrderedMap.get?_erase]
    split <;> simp
  | activate _ found => exact counted found rfl
  | exercise _ found => exact counted found rfl
  | addState => exact Nat.le_add_right ..
  | findVirtual => exact Nat.le_add_right ..
  | addVirtual => exact Nat.le_add_right ..
  | removeNothing => exact Nat.le_add_right ..
  | redirect => exact Nat.le_add_right ..
  | deactivate => exact Nat.le_add_right ..
  | mergeCoverage => exact Nat.le_add_right ..

end

theorem Step.state (step : g.Step op g') {s : StateId} (live : g.states.contains s = true) :
    g'.states.contains s = true := by
  cases step with
  | addState => exact Arena.contains_add live _
  | addVirtual => exact Arena.contains_add live _
  | addTransition => exact (contains_state_withEdge ..).trans live
  | removeTransition => exact (contains_state_withoutEdge ..).trans live
  | _ => exact live

/-- What is done to a graph: an operation, or a record that is written. The list of a state and the
ends of an edge are written by operations only. -/
inductive Change (g : Graph) : Graph → Prop
  | operate {mode op after} (ok : g.apply mode op = .ok after) : Change g after
  | amendState {s f after} (ok : g.updateState s f = .ok after)
      (lists : ∀ st, (f st).outgoing = st.outgoing) : Change g after
  | amendEdge {id f after} (ok : g.updateTransition id f = .ok after)
      (ends : ∀ t, (f t).source = t.source ∧ (f t).dest = t.dest) : Change g after

theorem updateState_eq_ok {s : StateId} {f : State → State} (ok : g.updateState s f = .ok g') :
    g' = { g with states := g.states.modify s f } := (Arena.update_bind_eq_ok.1 ok).2

theorem Consistent.change (h : g.Consistent) (change : g.Change g') : g'.Consistent := by
  cases change with
  | operate ok => exact h.step (apply_step ok)
  | amendState ok lists =>
    cases updateState_eq_ok ok
    exact h.modifyState lists
  | amendEdge ok ends =>
    obtain ⟨-, rfl⟩ := updateTransition_eq_ok.1 ok
    exact h.modify ends

theorem Change.state (change : g.Change g') {s : StateId} (live : g.states.contains s = true) :
    g'.states.contains s = true := by
  cases change with
  | operate ok => exact (apply_step ok).state live
  | amendState ok =>
    cases updateState_eq_ok ok
    exact (Arena.contains_modify ..).trans live
  | amendEdge ok =>
    obtain ⟨-, rfl⟩ := updateTransition_eq_ok.1 ok
    exact live

def Changes : Graph → Graph → Prop := Relation.ReflTransGen Change

theorem changes_of_applyAll (ok : g.applyAll o ops = .ok g') : g.Changes g' :=
  foldChecked_induct (g.Changes ·) ok .refl fun _ _ _ _ before ok => before.tail (.operate ok)

theorem Consistent.changes (h : g.Consistent) (changes : g.Changes g') : g'.Consistent := by
  induction changes with
  | refl => exact h
  | tail _ change ih => exact ih.change change

theorem Changes.state (changes : g.Changes g') {s : StateId} (live : g.states.contains s = true) :
    g'.states.contains s = true := by
  induction changes with
  | refl => exact live
  | tail _ change ih => exact change.state ih

end ScreenGraph.Graph
