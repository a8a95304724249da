import ScreenGraph.Graph.Basic
import ScreenGraph.Proofs.Checked

namespace ScreenGraph

namespace Arena

variable {e : Entity} {α : Type}

def Counted (a : Arena e α) : Prop := a.size = a.cells.countP Option.isSome

theorem entries_length (a : Arena e α) : a.entries.length = a.cells.countP Option.isSome := by
  suffices h : ∀ (cells : List (Option α)) (n : Nat),
      ((cells.zipIdx n).filterMap fun c => c.1.map fun v => ((⟨c.2⟩, v) : Handle e × α)).length =
        cells.countP Option.isSome from h a.cells 0
  intro cells
  induction cells with
  | nil => intro n; rfl
  | cons c r ih =>
    intro n
    cases c <;> simp [List.zipIdx_cons, ih]

theorem slots_sublist (a : Arena e α) :
    (a.handles.map Handle.slot).Sublist (List.range a.cells.length) := by
  suffices h : ∀ (cells : List (Option α)) (n : Nat),
      ((((cells.zipIdx n).filterMap fun c => c.1.map fun v => ((⟨c.2⟩, v) : Handle e × α)).map
        Prod.fst).map Handle.slot).Sublist (List.range' n cells.length) by
    rw [List.range_eq_range']
    exact h a.cells 0
  intro cells
  induction cells with
  | nil => intro n; exact .slnil
  | cons c r ih =>
    intro n
    cases c with
    | none => simpa [List.zipIdx_cons, List.range'_succ] using (ih (n + 1)).cons n
    | some v => simpa [List.zipIdx_cons, List.range'_succ] using ih (n + 1)

theorem handles_nodup (a : Arena e α) : a.handles.Nodup :=
  List.Pairwise.of_map Handle.slot (fun _ _ differ same => differ (congrArg Handle.slot same))
    (List.nodup_range.sublist a.slots_sublist)

theorem mem_handles {a : Arena e α} {h : Handle e} : h ∈ a.handles ↔ a.contains h = true := by
  rw [contains_iff]
  simp [handles, mem_entries]

theorem Counted.modify {a : Arena e α} (counted : a.Counted) (h : Handle e) (f : α → α) :
    (a.modify h f).Counted := by
  suffices same : ∀ (cells : List (Option α)) (i : Nat),
      (cells.modify i (Option.map f)).countP Option.isSome = cells.countP Option.isSome by
    exact counted.trans (same a.cells h.slot).symm
  intro cells
  induction cells with
  | nil => intro i; simp
  | cons c r ih =>
    intro i
    cases i with
    | zero => simp [List.countP_cons]
    | succ i => simp [List.countP_cons, ih]

theorem Counted.add {a : Arena e α} (counted : a.Counted) (v : α) : (a.add v).2.Counted := by
  unfold Counted at *
  by_cases h : a.next.slot < a.cells.length
  · have vacant : a.cells[a.next.slot] = none := by
      simpa [List.getElem?_eq_getElem h] using cell_next h
    simp [Arena.add, h, List.countP_set, vacant, counted]
  · simp [Arena.add, h, counted]

theorem Counted.vacate {a : Arena e α} (counted : a.Counted) {h : Handle e} {v : α}
    (live : a.get? h = some v) : (a.vacate h).Counted := by
  unfold Counted at *
  have cell : a.cells[h.slot]? = some (some v) := Option.join_eq_some_iff.1 live
  obtain ⟨lt, cell⟩ := List.getElem?_eq_some_iff.1 cell
  simp [Arena.vacate, List.countP_set, lt, cell, counted]

theorem contains_modify (a : Arena e α) (h k : Handle e) (f : α → α) :
    (a.modify h f).contains k = a.contains k := by
  simp only [contains, get?_modify]
  split <;> simp

theorem modify_modify (a : Arena e α) (h : Handle e) (f k : α → α) :
    (a.modify h f).modify h k = a.modify h (k ∘ f) := by
  simp [modify, List.modify_modify_eq, Option.map_comp_map]

section

variable {a : Arena e α} {h k : Handle e} {f : α → α} {v w : α}

theorem of_get?_modify (live : (a.modify h f).get? k = some w) :
    h ≠ k ∧ a.get? k = some w ∨ h = k ∧ ∃ v, a.get? k = some v ∧ f v = w := by
  rw [get?_modify] at live
  split at live
  · next same => exact .inr ⟨same, Option.map_eq_some_iff.1 live⟩
  · next other => exact .inl ⟨other, live⟩

theorem get?_modify_of_get? (h : Handle e) (f : α → α) (live : a.get? k = some v) :
    (a.modify h f).get? k = some v ∨ (a.modify h f).get? k = some (f v) := by
  rw [get?_modify, live]
  split
  · exact .inr rfl
  · exact .inl rfl

theorem modify_of_fixed (live : a.get? h = some v) (fixed : f v = v) : a.modify h f = a := by
  have cell : a.cells[h.slot]? = some (some v) := Option.join_eq_some_iff.1 live
  have same : a.cells.modify h.slot (Option.map f) = a.cells := by
    refine List.ext_getElem? fun i => ?_
    rw [List.getElem?_modify]
    split
    · next here => simp [← here, cell, fixed]
    · simp
  rw [modify, same]

theorem of_get?_add (live : (a.add v).2.get? h = some w) :
    a.get? h = some w ∨ h = a.next ∧ v = w := by
  rw [get?_add] at live
  split at live
  · next new => exact .inr ⟨new, Option.some.inj live⟩
  · exact .inl live

theorem of_get?_vacate (live : (a.vacate h).get? k = some v) : a.get? k = some v ∧ h ≠ k := by
  rw [get?_vacate] at live
  split at live
  · cases live
  · next other => exact ⟨live, other⟩

end

theorem get?_add_of_get? {a : Arena e α} {h : Handle e} {v : α} (live : a.get? h = some v) (w : α) :
    (a.add w).2.get? h = some v := by
  rw [get?_add]
  split
  · next new =>
    rw [new, get?_next] at live
    cases live
  · exact live

theorem contains_add {a : Arena e α} {h : Handle e} (live : a.contains h = true) (w : α) :
    (a.add w).2.contains h = true := by
  obtain ⟨v, hv⟩ := contains_iff.1 live
  exact contains_of_get? (get?_add_of_get? hv w)

theorem contains_next (a : Arena e α) (v : α) : (a.add v).2.contains a.next = true := by
  simp [contains, get?_add]

end Arena

theorem OrderedMap.size_eq {κ ν : Type} (m : OrderedMap κ ν) : m.size = m.keys.length := by
  simp [size, keys]

section

variable {κ ν : Type} [DecidableEq κ]

theorem OrderedMap.mem_addTo {α : Type} [DecidableEq α] {m : OrderedMap κ (OrderedSet α)} {k k₂ : κ}
    {a a₂ : α} : a₂ ∈ (((m.addTo k a).get? k₂).map OrderedSet.toList).getD [] ↔
      a₂ ∈ ((m.get? k₂).map OrderedSet.toList).getD [] ∨ k = k₂ ∧ a₂ = a := by
  rw [get?_addTo]
  by_cases same : k = k₂
  · subst same
    cases m.get? k <;> simp [← OrderedSet.mem_def]
  · simp [same]

theorem OrderedMap.contains_insert (m : OrderedMap κ ν) (k k₂ : κ) (v : ν) :
    (m.insert k v).contains k₂ = (decide (k = k₂) || m.contains k₂) := by
  simp only [contains, get?_insert]
  split <;> simp_all

theorem OrderedMap.of_get?_insert {m : OrderedMap κ ν} {k k₂ : κ} {v w : ν}
    (found : (m.insert k v).get? k₂ = some w) : m.get? k₂ = some w ∨ v = w := by
  rw [get?_insert] at found
  split at found
  · exact .inr (Option.some.inj found)
  · exact .inl found

theorem OrderedMap.contains_erase (m : OrderedMap κ ν) (k k₂ : κ) :
    (m.erase k).contains k₂ = (!decide (k = k₂) && m.contains k₂) := by
  simp only [contains, get?_erase]
  split <;> simp_all

end

def OrderedMap.Filled {κ α : Type} [DecidableEq κ] (m : OrderedMap κ (OrderedSet α)) : Prop :=
  ∀ k xs, m.get? k = some xs → xs.isEmpty = false

theorem OrderedSet.insert_of_mem {α : Type} [DecidableEq α] {s : OrderedSet α} {a : α}
    (mem : a ∈ s) : s.insert a = s := dif_pos mem

theorem OrderedSet.isEmpty_eq_false_of_mem {α : Type} [DecidableEq α] {s : OrderedSet α} {a : α}
    (mem : a ∈ s) : s.isEmpty = false := by
  rw [← Bool.not_eq_true]
  exact fun empty => OrderedSet.isEmpty_iff.1 empty a mem

section

variable {κ α : Type} [DecidableEq κ] [DecidableEq α] {m : OrderedMap κ (OrderedSet α)}

theorem OrderedMap.Filled.update (h : m.Filled) (k : κ) {xs : List α} (some : xs ≠ []) :
    (m.update k fun old => (old.getD ∅).insertMany xs).Filled := by
  intro k₂ ys found
  rw [OrderedMap.get?_update] at found
  split at found
  · cases found
    obtain ⟨a, mem⟩ := List.exists_mem_of_ne_nil xs some
    exact OrderedSet.isEmpty_eq_false_of_mem (OrderedSet.mem_insertMany.2 (.inr mem))
  · exact h k₂ ys found

theorem OrderedMap.Filled.addTo (h : m.Filled) (k : κ) (a : α) : (m.addTo k a).Filled :=
  h.update k (List.cons_ne_nil a [])

end

namespace Graph

structure Consistent (g : Graph) : Prop where
  counted : g.transitions.Counted
  source : ∀ {id t}, g.transitions.get? id = some t → g.states.contains t.source = true
  dest : ∀ {id t}, g.transitions.get? id = some t → g.states.contains t.dest = true
  listed : ∀ {s st}, g.states.get? s = some st → ∀ id,
    id ∈ st.outgoing ↔ ∃ t, g.transitions.get? id = some t ∧ t.source = s
  activation : ∀ id, g.activation.contains id = g.transitions.contains id
  coverages : ∀ id, g.coverages.contains id = g.transitions.contains id

variable {g g' : Graph}

theorem addTransition_eq_ok {t : Transition} {c : Coverage} {id : TransitionId} :
    g.addTransition t c = .ok (id, g') ↔
      g.states.contains t.source = true ∧ g.states.contains t.dest = true ∧
        id = g.transitions.next ∧ g' = g.withEdge t c := by
  simp only [addTransition, Checked.bind_eq_ok, require_eq_ok, pure_eq_ok, Prod.mk.injEq]
  constructor
  · rintro ⟨-, hs, -, hd, rfl, rfl⟩
    exact ⟨hs, hd, rfl, rfl⟩
  · rintro ⟨hs, hd, rfl, rfl⟩
    exact ⟨(), hs, (), hd, rfl, rfl⟩

theorem addState_eq_ok {st : State} {s : StateId} (ok : g.addState st = .ok (s, g')) :
    st.outgoing.isEmpty = true ∧ s = g.states.next ∧
      g' = { g with states := (g.states.add st).2 } := by
  unfold addState at ok
  split at ok
  · next bare =>
    cases ok
    exact ⟨bare, rfl, rfl⟩
  · cases ok

theorem removeTransition_eq_ok {id : TransitionId} {old : Option Transition}
    (ok : g.removeTransition id = .ok (old, g')) :
    old = g.transitions.get? id ∧
      ((g.transitions.get? id = none ∧ g' = g) ∨
        ∃ t, g.transitions.get? id = some t ∧ g' = g.withoutEdge id t.source) := by
  unfold removeTransition at ok
  split at ok
  · next vacant =>
    cases ok
    exact ⟨vacant.symm, .inl ⟨vacant, rfl⟩⟩
  · next t live =>
    simp only [Checked.bind_eq_ok, pure_eq_ok] at ok
    obtain ⟨-, -, -, -, -, -, -, -, h⟩ := ok
    cases h
    exact ⟨live.symm, .inr ⟨t, live, rfl⟩⟩

theorem updateTransition_eq_ok {id : TransitionId} {f : Transition → Transition} :
    g.updateTransition id f = .ok g' ↔
      g.transitions.contains id = true ∧
        g' = { g with transitions := g.transitions.modify id f } :=
  Arena.update_bind_eq_ok

theorem mergeCoverage_eq_ok {id : TransitionId} {c : Coverage} :
    g.mergeCoverage id c = .ok g' ↔
      ∃ old, g.coverages.get? id = some old ∧
        g' = { g with coverages := g.coverages.insert id (old.merge c) } := by
  unfold mergeCoverage
  cases g.coverages.get? id <;> simp [eq_comm]

theorem virtualState_eq_ok {w : WindowId} {v : Version} {s : StateId}
    (ok : g.virtualState w v = .ok (s, g')) :
    g.virtualStates.get? (w, v) = some s ∧ g' = g ∨
      g.virtualStates.get? (w, v) = none ∧
        ∃ g₁, g.addState { window := w, version := v, kind := .virtual } = .ok (s, g₁) ∧
          g' = { g₁ with virtualStates := g₁.virtualStates.insert (w, v) s } := by
  unfold virtualState at ok
  split at ok
  · next id found =>
    cases ok
    exact .inl ⟨found, rfl⟩
  · next absent =>
    obtain ⟨⟨id, g₁⟩, added, done⟩ := Checked.bind_eq_ok.1 ok
    cases done
    exact .inr ⟨absent, g₁, added, rfl⟩

theorem redirect_eq_ok {id : TransitionId} {dest : StateId} :
    g.redirect id dest = .ok g' ↔ g.states.contains dest = true ∧
      g.transitions.contains id = true ∧
        g' = { g with transitions := g.transitions.modify id fun t => { t with dest } } := by
  simp only [redirect, Checked.bind_eq_ok, require_eq_ok, updateTransition_eq_ok]
  constructor
  · rintro ⟨-, there, updated⟩
    exact ⟨there, updated⟩
  · rintro ⟨there, updated⟩
    exact ⟨(), there, updated⟩

theorem activate_eq_ok {o : Overflow} {id : TransitionId} : g.activate o id = .ok g' ↔
    ∃ n, g.transitions.contains id = true ∧ g.activation.get? id = some n ∧ o.allows n = true ∧
      g' = { g with
        transitions := g.transitions.modify id (fun t => { t with isActive := true })
        activation := g.activation.insert id (n + 1) } := by
  simp only [activate, Checked.bind_eq_ok, updateTransition_eq_ok]
  constructor
  · rintro ⟨-, ⟨live, rfl⟩, counted⟩
    split at counted
    · next n found =>
      obtain ⟨_, room, done⟩ := Checked.bind_eq_ok.1 counted
      cases done
      exact ⟨n, live, found, require_eq_ok.1 room, rfl⟩
    · cases counted
  · rintro ⟨n, live, found, room, rfl⟩
    refine ⟨_, ⟨live, rfl⟩, ?_⟩
    rw [found]
    exact Checked.bind_eq_ok.2 ⟨(), require_eq_ok.2 room, rfl⟩

@[simp] theorem get?_withEdge (t : Transition) (c : Coverage) (id : TransitionId) :
    (g.withEdge t c).transitions.get? id =
      if id = g.transitions.next then some t else g.transitions.get? id :=
  Arena.get?_add ..

@[simp] theorem get?_withoutEdge (id k : TransitionId) (s : StateId) :
    (g.withoutEdge id s).transitions.get? k = if id = k then none else g.transitions.get? k :=
  Arena.get?_vacate ..

theorem contains_state_withEdge (t : Transition) (c : Coverage) (s : StateId) :
    (g.withEdge t c).states.contains s = g.states.contains s :=
  Arena.contains_modify ..

theorem contains_withEdge (t : Transition) (c : Coverage) (id : TransitionId) :
    (g.withEdge t c).transitions.contains id =
      (decide (g.transitions.next = id) || g.transitions.contains id) := by
  simp only [Arena.contains, get?_withEdge]
  by_cases new : id = g.transitions.next
  · simp [new]
  · simp [new, Ne.symm new]

theorem contains_state_withoutEdge (id : TransitionId) (s k : StateId) :
    (g.withoutEdge id s).states.contains k = g.states.contains k :=
  Arena.contains_modify ..

theorem contains_withoutEdge (id : TransitionId) (s : StateId) (k : TransitionId) :
    (g.withoutEdge id s).transitions.contains k =
      (!decide (id = k) && g.transitions.contains k) := by
  simp only [Arena.contains, get?_withoutEdge]
  split <;> simp_all

theorem of_get?_withEdge {t u : Transition} {c : Coverage} {id : TransitionId}
    (live : (g.withEdge t c).transitions.get? id = some u) :
    g.transitions.get? id = some u ∨ id = g.transitions.next ∧ t = u :=
  Arena.of_get?_add live

theorem of_get?_withoutEdge {id k : TransitionId} {s : StateId} {u : Transition}
    (live : (g.withoutEdge id s).transitions.get? k = some u) :
    g.transitions.get? k = some u ∧ id ≠ k :=
  Arena.of_get?_vacate live

namespace Consistent

theorem empty : Consistent {} where
  counted := rfl
  source := nofun
  dest := nofun
  listed := nofun
  activation _ := rfl
  coverages _ := rfl

theorem congr (h : g.Consistent) (counted : g'.transitions.Counted)
    (ends : ∀ id, (g'.transitions.get? id).map (fun t => (t.source, t.dest)) =
      (g.transitions.get? id).map fun t => (t.source, t.dest))
    (lists : ∀ s, (g'.states.get? s).map State.outgoing = (g.states.get? s).map State.outgoing)
    (activation : ∀ id, g'.activation.contains id = g.activation.contains id)
    (coverages : ∀ id, g'.coverages.contains id = g.coverages.contains id) : g'.Consistent := by
  have states := fun s => Arena.contains_of_map (lists s)
  have live := fun id => Arena.contains_of_map (ends id)
  refine ⟨counted, ?source, ?dest, ?listed, ?activation, ?coverages⟩
  case source =>
    intro id t ht
    obtain ⟨u, hu, same⟩ := Arena.get?_of_map (ends id) ht
    rw [states, ← (Prod.mk.inj same).1]
    exact h.source hu
  case dest =>
    intro id t ht
    obtain ⟨u, hu, same⟩ := Arena.get?_of_map (ends id) ht
    rw [states, ← (Prod.mk.inj same).2]
    exact h.dest hu
  case listed =>
    intro s st hs id
    obtain ⟨st₀, hs₀, same⟩ := Arena.get?_of_map (lists s) hs
    rw [← same, h.listed hs₀]
    constructor
    · rintro ⟨u, hu, rfl⟩
      obtain ⟨t, ht, same⟩ := Arena.get?_of_map (ends id).symm hu
      exact ⟨t, ht, (Prod.mk.inj same).1⟩
    · rintro ⟨t, ht, rfl⟩
      obtain ⟨u, hu, same⟩ := Arena.get?_of_map (ends id) ht
      exact ⟨u, hu, (Prod.mk.inj same).1⟩
  case activation =>
    intro id
    rw [activation, live, h.activation]
  case coverages =>
    intro id
    rw [coverages, live, h.coverages]

theorem withEdge (h : g.Consistent) {t : Transition} {c : Coverage}
    (hs : g.states.contains t.source = true) (hd : g.states.contains t.dest = true) :
    (g.withEdge t c).Consistent where
  counted := h.counted.add t
  source live := by
    rw [contains_state_withEdge]
    rcases of_get?_withEdge live with old | ⟨-, rfl⟩
    · exact h.source old
    · exact hs
  dest live := by
    rw [contains_state_withEdge]
    rcases of_get?_withEdge live with old | ⟨-, rfl⟩
    · exact h.dest old
    · exact hd
  listed {s st} hst id := by
    rcases Arena.of_get?_modify hst with ⟨differ, old⟩ | ⟨same, st₀, hs₀, rfl⟩
    · -- the new handle is vacant in `g`, so no list of `g` holds it
      have fresh := g.transitions.get?_next
      rw [h.listed old, get?_withEdge]
      by_cases new : id = g.transitions.next
      · simp [new, fresh, differ]
      · simp [new]
    · simp only [State.list, OrderedSet.mem_insert, get?_withEdge, h.listed hs₀ id]
      by_cases new : id = g.transitions.next
      · simp [new, same]
      · simp [new]
  activation id := by
    rw [contains_withEdge, ← h.activation]
    exact OrderedMap.contains_insert ..
  coverages id := by
    rw [contains_withEdge, ← h.coverages]
    exact OrderedMap.contains_insert ..

theorem withoutEdge (h : g.Consistent) {id : TransitionId} {t : Transition}
    (ht : g.transitions.get? id = some t) : (g.withoutEdge id t.source).Consistent where
  counted := h.counted.vacate ht
  source live := by
    rw [contains_state_withoutEdge]
    exact h.source (of_get?_withoutEdge live).1
  dest live := by
    rw [contains_state_withoutEdge]
    exact h.dest (of_get?_withoutEdge live).1
  listed {s st} hst k := by
    rcases Arena.of_get?_modify hst with ⟨differ, old⟩ | ⟨same, st₀, hs₀, rfl⟩
    · rw [h.listed old, get?_withoutEdge]
      by_cases gone : id = k
      · subst gone
        simp [ht, differ]
      · simp [gone]
    · simp only [State.unlist, OrderedSet.mem_erase, get?_withoutEdge, h.listed hs₀ k]
      by_cases gone : id = k
      · simp [gone]
      · simp [gone, Ne.symm gone]
  activation k := by
    rw [contains_withoutEdge, ← h.activation]
    exact OrderedMap.contains_erase ..
  coverages k := by
    rw [contains_withoutEdge, ← h.coverages]
    exact OrderedMap.contains_erase ..

theorem removeTransition_succeeds (h : g.Consistent) (id : TransitionId) :
    Succeeds (g.removeTransition id) := by
  unfold removeTransition
  split
  · exact succeeds_ok _
  · next t ht =>
    obtain ⟨st, hst⟩ := Arena.contains_iff.1 (h.source ht)
    have live := Arena.contains_of_get? ht
    refine .get hst ?_
    refine (succeeds_require ?_).bind fun _ _ => ?_
    · exact decide_eq_true ((h.listed hst id).2 ⟨t, ht, rfl⟩)
    refine (succeeds_require ?_).bind fun _ _ => ?_
    · rw [h.activation, live]
    refine (succeeds_require ?_).bind fun _ _ => succeeds_pure _
    rw [h.coverages, live]

theorem removeTransition (h : g.Consistent) {id : TransitionId} {old : Option Transition}
    (ok : g.removeTransition id = .ok (old, g')) : g'.Consistent := by
  obtain ⟨-, ⟨-, rfl⟩ | ⟨t, ht, rfl⟩⟩ := removeTransition_eq_ok ok
  · exact h
  · exact h.withoutEdge ht

theorem modify (h : g.Consistent) {id : TransitionId} {f : Transition → Transition}
    (ends : ∀ t, (f t).source = t.source ∧ (f t).dest = t.dest) :
    { g with transitions := g.transitions.modify id f }.Consistent := by
  refine h.congr (h.counted.modify id f) ?_ ?_ ?_ ?_
  · exact Arena.map_get?_modify fun t => Prod.ext (ends t).1 (ends t).2
  all_goals intros; rfl

theorem redirect (h : g.Consistent) {id : TransitionId} {dest : StateId}
    (live : g.states.contains dest = true) :
    { g with transitions := g.transitions.modify id fun t => { t with dest } }.Consistent where
  counted := h.counted.modify id _
  source found := by
    rcases Arena.of_get?_modify found with ⟨-, old⟩ | ⟨-, t, ht, rfl⟩
    · exact h.source old
    · exact (h.source ht :)
  dest found := by
    rcases Arena.of_get?_modify found with ⟨-, old⟩ | ⟨-, t, ht, rfl⟩
    · exact h.dest old
    · exact live
  listed hs k := by
    rw [h.listed hs]
    constructor
    · rintro ⟨t, ht, source⟩
      rcases Arena.get?_modify_of_get? id (fun t => { t with dest }) ht with kept | moved
      · exact ⟨t, kept, source⟩
      · exact ⟨_, moved, source⟩
    · rintro ⟨e, found, source⟩
      rcases Arena.of_get?_modify found with ⟨-, old⟩ | ⟨-, t, ht, rfl⟩
      · exact ⟨e, old, source⟩
      · exact ⟨t, ht, source⟩
  activation k := (h.activation k).trans (Arena.contains_modify ..).symm
  coverages k := (h.coverages k).trans (Arena.contains_modify ..).symm

theorem insertCoverage (h : g.Consistent) {id : TransitionId} {c : Coverage}
    (live : g.coverages.contains id = true) :
    { g with coverages := g.coverages.insert id c }.Consistent := by
  refine h.congr h.counted ?_ ?_ ?_ ?_
  · intros; rfl
  · intros; rfl
  · intros; rfl
  · intro k
    rw [OrderedMap.contains_insert]
    by_cases same : id = k
    · simp [← same, live]
    · simp [same]

theorem insertActivation (h : g.Consistent) {id : TransitionId} {n : UInt32}
    (live : g.activation.contains id = true) :
    { g with activation := g.activation.insert id n }.Consistent := by
  refine h.congr h.counted ?_ ?_ ?_ ?_
  · intros; rfl
  · intros; rfl
  · intro k
    rw [OrderedMap.contains_insert]
    by_cases same : id = k
    · simp [← same, live]
    · simp [same]
  · intros; rfl

theorem modifyState (h : g.Consistent) {s : StateId} {f : State → State}
    (lists : ∀ st, (f st).outgoing = st.outgoing) :
    { g with states := g.states.modify s f }.Consistent := by
  refine h.congr h.counted ?_ ?_ ?_ ?_
  · intros; rfl
  · exact Arena.map_get?_modify lists
  all_goals intros; rfl

theorem addState (h : g.Consistent) {st : State} {s : StateId}
    (ok : g.addState st = .ok (s, g')) : g'.Consistent := by
  obtain ⟨bare, -, rfl⟩ := addState_eq_ok ok
  refine ⟨h.counted, ?source, ?dest, ?listed, h.activation, h.coverages⟩
  case source => exact fun ht => Arena.contains_add (h.source ht) st
  case dest => exact fun ht => Arena.contains_add (h.dest ht) st
  case listed =>
    intro k st' hk id
    rcases Arena.of_get?_add hk with old | ⟨new, rfl⟩
    · exact h.listed old id
    · constructor
      · exact fun listed => absurd listed (OrderedSet.isEmpty_iff.1 bare id)
      · rintro ⟨t, ht, same⟩
        have vacant := h.source ht
        rw [same, new, Arena.contains, Arena.get?_next] at vacant
        cases vacant

theorem withVirtuals (h : g.Consistent) (m : OrderedMap (WindowId × Version) StateId) :
    { g with virtualStates := m }.Consistent :=
  h.congr h.counted (fun _ => rfl) (fun _ => rfl) (fun _ => rfl) fun _ => rfl

end Consistent

end Graph

end ScreenGraph
