import ScreenGraph.Proofs.Edges
import ScreenGraph.Proofs.Indexing

namespace ScreenGraph

theorem OrderedMap.mem_entries {κ ν : Type} [DecidableEq κ] {m : OrderedMap κ ν} {k : κ} {v : ν} :
    (k, v) ∈ m.entries ↔ m.get? k = some v := by
  obtain ⟨entries, nodup⟩ := m
  simp only [get?]
  induction entries with
  | nil => simp [find]
  | cons e rest ih =>
    obtain ⟨k₁, w⟩ := e
    obtain ⟨absent, nodup⟩ := List.nodup_cons.1 nodup
    rw [List.mem_cons, find]
    split
    · next same =>
      subst same
      have gone : (k₁, v) ∉ rest := fun mem => absent (List.mem_map.2 ⟨_, mem, rfl⟩)
      simp [gone, eq_comm]
    · next other => simp [Ne.symm other, ih nodup]

namespace Flags

structure Joins (m : Flags) (ms : List Flags) : Prop where
  methods : ∀ k, m.contains k = true ↔ ∃ n ∈ ms, n.contains k = true
  covered : ∀ k, m.get? k = some true ↔ ∃ n ∈ ms, n.get? k = some true

theorem contains_raise (m : Flags) (method : String) (covered : Bool) (k : String) :
    (m.raise method covered).contains k = true ↔ m.contains k = true ∨ method = k := by
  simp only [OrderedMap.contains, get?_raise]
  split <;> simp_all

theorem contains_foldl_raise (es : List (String × Bool)) (m : Flags) (k : String) :
    (es.foldl (fun m e => m.raise e.1 e.2) m).contains k = true ↔
      m.contains k = true ∨ k ∈ es.map Prod.fst := by
  induction es generalizing m with
  | nil => simp
  | cons e rest ih =>
    rw [List.foldl_cons, ih, contains_raise, List.map_cons, List.mem_cons, or_assoc,
      @eq_comm _ k]

theorem covered_foldl_raise (es : List (String × Bool)) (m : Flags) (k : String) :
    (es.foldl (fun m e => m.raise e.1 e.2) m).get? k = some true ↔
      m.get? k = some true ∨ (k, true) ∈ es := by
  induction es generalizing m with
  | nil => simp
  | cons e rest ih =>
    obtain ⟨k₁, v⟩ := e
    rw [List.foldl_cons, ih, get?_raise]
    by_cases same : k₁ = k
    · subst same
      cases before : m.get? k₁ <;> cases v <;> simp
    · simp [same, Ne.symm same]

theorem joins_singleton (m : Flags) : m.Joins [m] := by
  constructor <;> simp

theorem Joins.merge {m : Flags} {ms : List Flags} (h : m.Joins ms) (n : Flags) :
    (m.merge n).Joins (ms ++ [n]) := by
  constructor <;> intro k
  · rw [Flags.merge, contains_foldl_raise, h.methods]
    simp [← OrderedMap.mem_keys_iff, OrderedMap.keys, or_and_right, exists_or]
  · rw [Flags.merge, covered_foldl_raise, h.covered, OrderedMap.mem_entries]
    simp [or_and_right, exists_or]

end Flags

namespace Coverage

structure Joins (c : Coverage) (cs : List Coverage) : Prop where
  handlers : c.handlers.Joins (cs.map handlers)
  modifiedMethods : c.modifiedMethods.Joins (cs.map modifiedMethods)

theorem joins_singleton (c : Coverage) : c.Joins [c] :=
  ⟨Flags.joins_singleton _, Flags.joins_singleton _⟩

theorem Joins.merge {c : Coverage} {cs : List Coverage} (h : c.Joins cs) (d : Coverage) :
    (c.merge d).Joins (cs ++ [d]) := by
  constructor <;> rw [List.map_append]
  · exact h.handlers.merge d.handlers
  · exact h.modifiedMethods.merge d.modifiedMethods

theorem Joins.foldl_merge {c : Coverage} {cs : List Coverage} (h : c.Joins cs)
    (ds : List Coverage) : (ds.foldl .merge c).Joins (cs ++ ds) := by
  induction ds generalizing c cs with
  | nil => rwa [List.append_nil]
  | cons d rest ih =>
    have joins := ih (h.merge d)
    rwa [List.append_assoc] at joins

end Coverage

namespace Graph

/-- An operation, or an amendment of a state or an edge in place. -/
inductive Act
  | operate (op : Operation)
  | amendState (s : StateId) (f : State → State)
  | amendEdge (id : TransitionId) (f : Transition → Transition)

def perform (o : Overflow) (g : Graph) : Act → Checked Graph
  | .operate op => g.apply o op
  | .amendState s f => g.updateState s f
  | .amendEdge id f => g.updateTransition id f

def performAll (o : Overflow) (g : Graph) (acts : List Act) : Checked Graph :=
  foldChecked (perform o) g acts

namespace Act

def Fits (g : Graph) : Act → Prop
  | .operate op => op.Fits g
  | .amendState s f => g.states.contains s = true ∧ ∀ st, (f st).outgoing = st.outgoing
  | .amendEdge id f => g.transitions.contains id = true ∧ ∀ e, (f e).source = e.source ∧
      (f e).dest = e.dest ∧ (f e).interactions = e.interactions

def activates (id : TransitionId) : Act → Bool
  | .operate (.activate k) => decide (k = id)
  | .operate (.exercise k _) => decide (k = id)
  | _ => false

def counts : Act → Bool
  | .operate op => op.counts
  | _ => false

def coverage? (id : TransitionId) : Act → Option Coverage
  | .operate (.mergeCoverage k c) => if k = id then some c else none
  | _ => none

def interaction? (id : TransitionId) : Act → Option Interaction
  | .operate (.exercise k i) => if k = id then some i else none
  | _ => none

end Act

def Permits (o : Overflow) : Graph → List Act → Prop
  | _, [] => True
  | g, act :: rest => act.Fits g ∧ ∀ g', g.perform o act = .ok g' → g'.Permits o rest

inductive Occupies (o : Overflow) (id : TransitionId) (t : Transition) (c : Coverage)
    (since : List Act) : List Act → Prop
  | intro {before g g'} (ran : performAll o {} before = .ok g)
      (added : g.addTransition t c = .ok (id, g'))
      (stays : .operate (.removeTransition id) ∉ since) :
      Occupies o id t c since (before ++ .operate (.addTransition t c) :: since)

/-- What is on record for an edge: what it was added with, and what was done to it since. The count
is one of 32 bits. -/
structure Records (g : Graph) (id : TransitionId) (e t : Transition) (c : Coverage)
    (since : List Act) : Prop where
  count : g.activationCount id =
    .ofNat ((if t.isActive then 1 else 0) + since.countP (Act.activates id))
  coverage : g.coverage? id = some ((since.filterMap (Act.coverage? id)).foldl .merge c)
  interactions : e.interactions = t.interactions ++ since.filterMap (Act.interaction? id)

structure Continues (g g' : Graph) (act : Act) (id : TransitionId) (e e' : Transition) : Prop where
  stays : act ≠ .operate (.removeTransition id)
  count : g'.activationCount id = g.activationCount id + .ofNat ([act].countP (Act.activates id))
  coverage : g'.coverage? id =
    (g.coverage? id).map fun c => ([act].filterMap (Act.coverage? id)).foldl .merge c
  interactions : e'.interactions = e.interactions ++ [act].filterMap (Act.interaction? id)

variable {o : Overflow} {g g' : Graph} {act : Act} {acts since : List Act} {id : TransitionId}
  {e e' t : Transition} {c : Coverage}

theorem Continues.of_quiet (stays : act ≠ .operate (.removeTransition id))
    (quiet : act.activates id = false ∧ act.coverage? id = none ∧ act.interaction? id = none)
    (activation : g'.activation.get? id = g.activation.get? id)
    (coverages : g'.coverages.get? id = g.coverages.get? id)
    (interactions : e'.interactions = e.interactions) : g.Continues g' act id e e' := by
  obtain ⟨inactive, uncovered, idle⟩ := quiet
  refine ⟨stays, ?_, ?_, ?_⟩
  · simp [activationCount, activation, inactive]
  · simp [Graph.coverage?, coverages, uncovered]
  · simp [interactions, idle]

theorem Continues.of_activates {n : UInt32} (stays : act ≠ .operate (.removeTransition id))
    (activates : act.activates id = true ∧ act.coverage? id = none)
    (found : g.activation.get? id = some n)
    (written : g'.activation = g.activation.insert id (n + 1))
    (coverages : g'.coverages = g.coverages)
    (interactions : e'.interactions = e.interactions ++ (act.interaction? id).toList) :
    g.Continues g' act id e e' := by
  obtain ⟨active, uncovered⟩ := activates
  refine ⟨stays, ?_, ?_, ?_⟩
  · rw [activationCount_insert written, if_pos rfl]
    simp [activationCount, found, active]
  · simp [Graph.coverage?, coverages, uncovered]
  · rw [interactions]
    cases noted : act.interaction? id <;> simp [noted]

theorem Step.continues {op : Operation} (step : g.Step op g')
    (live : g'.transitions.get? id = some e') :
    (∃ c, op = .addTransition e' c ∧ id = g.transitions.next ∧ g' = g.withEdge e' c) ∨
      ∃ e, g.transitions.get? id = some e ∧ g.Continues g' (.operate op) id e e' := by
  cases step with
  | addState => exact .inr ⟨e', live, .of_quiet (by simp) ⟨rfl, rfl, rfl⟩ rfl rfl rfl⟩
  | findVirtual => exact .inr ⟨e', live, .of_quiet (by simp) ⟨rfl, rfl, rfl⟩ rfl rfl rfl⟩
  | addVirtual => exact .inr ⟨e', live, .of_quiet (by simp) ⟨rfl, rfl, rfl⟩ rfl rfl rfl⟩
  | @addTransition t c source dest =>
    rcases of_get?_withEdge live with old | ⟨rfl, rfl⟩
    · have other : g.transitions.next ≠ id := by
        rintro rfl
        rw [Arena.get?_next] at old
        cases old
      refine .inr ⟨e', old, .of_quiet (by simp) ⟨rfl, rfl, rfl⟩ ?_ ?_ rfl⟩
      · exact (OrderedMap.get?_insert ..).trans (if_neg other)
      · exact (OrderedMap.get?_insert ..).trans (if_neg other)
    · exact .inl ⟨c, rfl, rfl, rfl⟩
  | @removeNothing k vacant =>
    refine .inr ⟨e', live, .of_quiet ?_ ⟨rfl, rfl, rfl⟩ rfl rfl rfl⟩
    rintro ⟨⟩
    rw [vacant] at live
    cases live
  | @removeTransition k t =>
    obtain ⟨old, other⟩ := of_get?_withoutEdge live
    refine .inr ⟨e', old, .of_quiet ?_ ⟨rfl, rfl, rfl⟩ ?_ ?_ rfl⟩
    · rintro ⟨⟩
      exact other rfl
    · exact (OrderedMap.get?_erase ..).trans (if_neg other)
    · exact (OrderedMap.get?_erase ..).trans (if_neg other)
  | redirect =>
    rcases Arena.of_get?_modify live with ⟨-, old⟩ | ⟨-, e, old, rfl⟩
    · exact .inr ⟨e', old, .of_quiet (by simp) ⟨rfl, rfl, rfl⟩ rfl rfl rfl⟩
    · exact .inr ⟨e, old, .of_quiet (by simp) ⟨rfl, rfl, rfl⟩ rfl rfl rfl⟩
  | deactivate =>
    rcases Arena.of_get?_modify live with ⟨-, old⟩ | ⟨-, e, old, rfl⟩
    · exact .inr ⟨e', old, .of_quiet (by simp) ⟨rfl, rfl, rfl⟩ rfl rfl rfl⟩
    · exact .inr ⟨e, old, .of_quiet (by simp) ⟨rfl, rfl, rfl⟩ rfl rfl rfl⟩
  | @activate k n _ found =>
    rcases Arena.of_get?_modify live with ⟨other, old⟩ | ⟨rfl, e, old, rfl⟩
    · refine .inr ⟨e', old, .of_quiet (by simp) ⟨decide_eq_false other, rfl, rfl⟩ ?_ rfl rfl⟩
      exact (OrderedMap.get?_insert ..).trans (if_neg other)
    · refine .inr ⟨e, old, .of_activates (by simp) ⟨decide_eq_true rfl, rfl⟩ found rfl rfl ?_⟩
      simp [Act.interaction?]
  | @exercise k i n _ found =>
    rcases Arena.of_get?_modify live with ⟨other, old⟩ | ⟨rfl, e, old, rfl⟩
    · refine .inr ⟨e', old, .of_quiet (by simp) ⟨decide_eq_false other, rfl, ?_⟩ ?_ rfl rfl⟩
      · exact if_neg other
      · exact (OrderedMap.get?_insert ..).trans (if_neg other)
    · refine .inr ⟨e, old, .of_activates (by simp) ⟨decide_eq_true rfl, rfl⟩ found rfl rfl ?_⟩
      simp [Act.interaction?]
  | @mergeCoverage k d old found =>
    by_cases here : k = id
    · subst here
      refine .inr ⟨e', live, by simp, ?_, ?_, ?_⟩
      · simp [activationCount, Act.activates]
      · simp [Graph.coverage?, OrderedMap.get?_insert, found, Act.coverage?]
      · simp [Act.interaction?]
    · refine .inr ⟨e', live, .of_quiet (by simp) ⟨rfl, if_neg here, rfl⟩ rfl ?_ rfl⟩
      exact (OrderedMap.get?_insert ..).trans (if_neg here)

theorem perform_continues (fits : act.Fits g) (ok : g.perform o act = .ok g')
    (live : g'.transitions.get? id = some e') :
    (∃ c, act = .operate (.addTransition e' c) ∧ id = g.transitions.next ∧ g' = g.withEdge e' c) ∨
      ∃ e, g.transitions.get? id = some e ∧ g.Continues g' act id e e' := by
  cases act with
  | operate op =>
    rcases (apply_step ok).continues live with ⟨c, rfl, new⟩ | continues
    · exact .inl ⟨c, rfl, new⟩
    · exact .inr continues
  | amendState s f =>
    obtain ⟨-, rfl⟩ := Arena.update_bind_eq_ok.1 ok
    exact .inr ⟨e', live, .of_quiet nofun ⟨rfl, rfl, rfl⟩ rfl rfl rfl⟩
  | amendEdge k f =>
    obtain ⟨-, rfl⟩ := updateTransition_eq_ok.1 ok
    rcases Arena.of_get?_modify live with ⟨-, old⟩ | ⟨-, e, old, rfl⟩
    · exact .inr ⟨e', old, .of_quiet nofun ⟨rfl, rfl, rfl⟩ rfl rfl rfl⟩
    · exact .inr ⟨e, old, .of_quiet nofun ⟨rfl, rfl, rfl⟩ rfl rfl (fits.2 e).2.2⟩

theorem Records.continues (records : g.Records id e t c since)
    (continues : g.Continues g' act id e e') : g'.Records id e' t c (since ++ [act]) where
  count := by
    rw [continues.count, records.count, ← UInt32.ofNat_add, Nat.add_assoc, List.countP_append]
  coverage := by
    rw [continues.coverage, records.coverage, List.filterMap_append, List.foldl_append]
    rfl
  interactions := by
    rw [continues.interactions, records.interactions, List.filterMap_append, List.append_assoc]

theorem records_withEdge (g : Graph) (t : Transition) (c : Coverage) :
    (g.withEdge t c).Records g.transitions.next t t c [] where
  count := by
    rw [activationCount_insert rfl, if_pos rfl]
    cases t.isActive <;> rfl
  coverage := (OrderedMap.get?_insert ..).trans (if_pos rfl)
  interactions := (List.append_nil _).symm

theorem Occupies.continues (occupies : Occupies o id t c since acts)
    (stays : act ≠ .operate (.removeTransition id)) :
    Occupies o id t c (since ++ [act]) (acts ++ [act]) := by
  obtain ⟨ran, added, absent⟩ := occupies
  rw [List.append_assoc]
  refine .intro ran added fun mem => ?_
  rcases List.mem_append.1 mem with mem | mem
  · exact absent mem
  · exact stays (List.mem_singleton.1 mem).symm

def Recorded (o : Overflow) (acts : List Act) (g : Graph) : Prop :=
  ∀ {id e}, g.transitions.get? id = some e →
    ∃ t c since, Occupies o id t c since acts ∧ g.Records id e t c since

theorem Recorded.perform (recorded : Recorded o acts g)
    (ran : performAll o {} acts = .ok g) (fits : act.Fits g) (ok : g.perform o act = .ok g') :
    Recorded o (acts ++ [act]) g' := by
  intro id e' live
  rcases perform_continues fits ok live with ⟨c, rfl, rfl, rfl⟩ | ⟨e, old, continues⟩
  · have added : g.addTransition e' c = .ok (g.transitions.next, g.withEdge e' c) :=
      addTransition_eq_ok.2 ⟨fits.1, fits.2, rfl, rfl⟩
    exact ⟨e', c, [], .intro ran added nofun, records_withEdge g e' c⟩
  · obtain ⟨t, c, since, occupies, records⟩ := recorded old
    exact ⟨t, c, _, occupies.continues continues.stays, records.continues continues⟩

theorem Permits.cons (fits : act.Fits g) (ok : g.perform o act = .ok g')
    (rest : g'.Permits o acts) : g.Permits o (act :: acts) := by
  refine ⟨fits, fun g₁ performed => ?_⟩
  cases ok.symm.trans performed
  exact rest

/-- No count is so high that the acts to come could overflow it. -/
def Spares (g : Graph) (acts : List Act) : Prop :=
  ∀ id, (g.activationCount id).toNat + acts.countP Act.counts < UInt32.size

theorem Spares.allows {op : Operation} (spare : g.Spares (.operate op :: acts))
    (takes : op.takes? = some id) : o.allows (g.activationCount id) = true := by
  have counts : (Act.operate op).counts = true := by
    cases op <;> first | rfl | cases takes
  have bound := spare id
  rw [List.countP_cons_of_pos counts] at bound
  have room : (g.activationCount id).toNat + 1 < UInt32.size := by omega
  rw [Overflow.allows, decide_eq_true room, Bool.or_true]

theorem activationCount_perform_le (ok : g.perform o act = .ok g') :
    (g'.activationCount id).toNat ≤ (g.activationCount id).toNat + [act].countP Act.counts := by
  cases act with
  | operate op =>
    exact (apply_step ok).activationCount_le
  | amendState s f =>
    obtain ⟨-, rfl⟩ := Arena.update_bind_eq_ok.1 ok
    exact Nat.le_add_right ..
  | amendEdge k f =>
    obtain ⟨-, rfl⟩ := updateTransition_eq_ok.1 ok
    exact Nat.le_add_right ..

theorem Spares.perform (spare : g.Spares (act :: acts)) (ok : g.perform o act = .ok g') :
    g'.Spares acts := by
  intro id
  have counted : (g'.activationCount id).toNat ≤ _ := activationCount_perform_le ok
  have bound := spare id
  rw [← List.singleton_append, List.countP_append] at bound
  omega

theorem Consistent.perform_succeeds (h : g.Consistent) (fits : act.Fits g)
    (spare : g.Spares (act :: acts)) : ∃ g', g.perform o act = .ok g' ∧ g'.Consistent := by
  cases act with
  | operate op =>
    obtain ⟨g', applied⟩ := h.apply_succeeds fits fun id takes => spare.allows takes
    exact ⟨g', applied, h.step (apply_step applied)⟩
  | amendState s f =>
    exact ⟨_, Arena.update_bind_eq_ok.2 ⟨fits.1, rfl⟩, h.modifyState fits.2⟩
  | amendEdge k f =>
    refine ⟨_, updateTransition_eq_ok.2 ⟨fits.1, rfl⟩, h.modify fun e => ?_⟩
    exact ⟨(fits.2 e).1, (fits.2 e).2.1⟩

theorem Recorded.performAll {done : List Act} (recorded : Recorded o done g)
    (consistent : g.Consistent) (ran : performAll o {} done = .ok g) (fits : g.Permits o acts)
    (spare : g.Spares acts) :
    ∃ g', g.performAll o acts = .ok g' ∧ g'.Consistent ∧ Recorded o (done ++ acts) g' := by
  induction acts generalizing g done with
  | nil =>
    rw [List.append_nil]
    exact ⟨g, rfl, consistent, recorded⟩
  | cons act rest ih =>
    obtain ⟨first, fits⟩ := fits
    obtain ⟨g₁, performed, after⟩ := consistent.perform_succeeds first spare
    have last : g.performAll o [act] = .ok g₁ := Checked.bind_eq_ok.2 ⟨g₁, performed, rfl⟩
    have ran₁ : Graph.performAll o {} (done ++ [act]) = .ok g₁ :=
      foldChecked_append.trans (Checked.bind_eq_ok.2 ⟨g, ran, last⟩)
    obtain ⟨g', followed, holds, recorded'⟩ :=
      ih (recorded.perform ran first performed) after ran₁ (fits g₁ performed)
        (spare.perform performed)
    rw [List.append_assoc] at recorded'
    exact ⟨g', Checked.bind_eq_ok.2 ⟨g₁, performed, followed⟩, holds, recorded'⟩

theorem Occupies.count_le (occupies : Occupies o id t c since acts) :
    (if t.isActive then 1 else 0) + since.countP (Act.activates id) ≤ acts.countP Act.counts := by
  obtain ⟨-, -, -⟩ := occupies
  have each : since.countP (Act.activates id) ≤ since.countP Act.counts := by
    refine List.countP_mono_left fun act _ activates => ?_
    cases act with
    | operate op => cases op <;> first | rfl | cases activates
    | _ => cases activates
  rw [List.countP_append, List.countP_cons]
  have first : (Act.operate (.addTransition t c)).counts = t.isActive := rfl
  rw [first]
  omega

/-- Whatever handle an edge has been given, what is on record for it is what was done to it since it
was added. Nothing is on record for a handle that no edge has. The acts take edges fewer than 2^32
times, where an edge that is added active counts as taken. -/
theorem performAll_records (fits : Permits o {} acts) (few : acts.countP Act.counts < UInt32.size) :
    ∃ g, performAll o {} acts = .ok g ∧ ∀ id,
    (∀ e, g.transitions.get? id = some e → ∃ t c since, Occupies o id t c since acts ∧
      g.Records id e t c since ∧ (g.activationCount id).toNat =
        (if t.isActive then 1 else 0) + since.countP (Act.activates id) ∧
      ∃ k, g.coverage? id = some k ∧ k.Joins (c :: since.filterMap (Act.coverage? id))) ∧
    (g.transitions.contains id = false → g.activationCount id = 0 ∧ g.coverage? id = none) := by
  have start : Recorded o [] {} := nofun
  have spare : Spares {} acts := fun id => by
    rwa [show (activationCount {} id).toNat = 0 from rfl, Nat.zero_add]
  obtain ⟨g, performed, consistent, recorded⟩ := start.performAll .empty rfl fits spare
  refine ⟨g, performed, fun id => ⟨fun e live => ?_, fun vacant => ?_⟩⟩
  · obtain ⟨t, c, since, occupies, records⟩ := recorded live
    refine ⟨t, c, since, occupies, records, ?_, _, records.coverage,
      c.joins_singleton.foldl_merge _⟩
    have bound := Nat.lt_of_le_of_lt occupies.count_le few
    rw [records.count, UInt32.toNat_ofNat_of_lt' bound]
  · have uncounted := (consistent.activation id).trans vacant
    have uncovered := (consistent.coverages id).trans vacant
    simp only [OrderedMap.contains, Option.isSome_eq_false_iff, Option.isNone_iff_eq_none]
      at uncounted uncovered
    exact ⟨by simp [activationCount, uncounted], uncovered⟩

def Act.replacing : List Act :=
  let edge (source dest : StateId) : Transition := { source, action := ⟨0⟩, dest, version := .base }
  let covered (method : String) : Coverage := { handlers := .ofList [(method, true)] }
  [.operate (.virtualState ⟨0⟩ .base), .operate (.addState { window := ⟨0⟩, version := .base }),
    .operate (.addTransition { edge ⟨0⟩ ⟨1⟩ with isActive := true } (covered "open")),
    .operate (.exercise ⟨0⟩ { step := 1, version := .base }), .operate (.removeTransition ⟨0⟩),
    .operate (.addTransition (edge ⟨1⟩ ⟨0⟩) (covered "close")),
    .amendEdge ⟨0⟩ (fun e => { e with guards := .ofList [⟨1⟩] }),
    .operate (.exercise ⟨0⟩ { step := 2, version := .running }),
    .operate (.mergeCoverage ⟨0⟩ (covered "save"))]

theorem permits_replacing : Permits .stops {} Act.replacing :=
  .cons trivial rfl <| .cons rfl rfl <| .cons ⟨rfl, rfl⟩ rfl <| .cons rfl rfl <|
    .cons trivial rfl <| .cons ⟨rfl, rfl⟩ rfl <| .cons ⟨rfl, fun _ => ⟨rfl, rfl, rfl⟩⟩ rfl <|
    .cons rfl rfl <| .cons rfl rfl trivial

theorem performAll_records_replacing : ∃ g e t c since,
    performAll .stops {} Act.replacing = .ok g ∧ Occupies .stops ⟨0⟩ t c since Act.replacing ∧
    g.Records ⟨0⟩ e t c since ∧ g.activationCount ⟨0⟩ = 1 ∧ g.activationCount ⟨1⟩ = 0 := by
  obtain ⟨g, performed, records⟩ := performAll_records permits_replacing (by decide)
  cases performed
  obtain ⟨t, c, since, occupies, record, -⟩ := (records ⟨0⟩).1 _ rfl
  exact ⟨_, _, t, c, since, rfl, occupies, record, rfl, ((records ⟨1⟩).2 rfl).1⟩

end Graph

end ScreenGraph
