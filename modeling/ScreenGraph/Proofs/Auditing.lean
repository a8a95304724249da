import Mathlib.Data.List.Perm.Subperm
import ScreenGraph.Graph.Basic
import ScreenGraph.Proofs.Consistency

namespace ScreenGraph

namespace Arena

variable {e : Entity} {α : Type}

inductive Reached : Arena e α → Prop
  | empty : Reached ∅
  | add {a : Arena e α} (before : Reached a) (v : α) : Reached (a.add v).2
  | modify {a : Arena e α} (before : Reached a) (h : Handle e) (f : α → α) : Reached (a.modify h f)
  | remove {a b : Arena e α} {h : Handle e} {v : α} (before : Reached a)
      (ok : a.remove? h = some (v, b)) : Reached b

variable {a : Arena e α}

theorem Reached.counted (reached : a.Reached) : a.Counted := by
  induction reached with
  | empty => rfl
  | add _ v ih => exact ih.add v
  | modify _ h f ih => exact ih.modify h f
  | remove _ ok ih =>
    obtain ⟨v, live, removed⟩ := Option.map_eq_some_iff.1 ok
    cases removed
    exact ih.vacate live

theorem Counted.size_eq (counted : a.Counted) : a.size = a.handles.length :=
  calc a.size = a.cells.countP Option.isSome := counted
    _ = a.entries.length := a.entries_length.symm
    _ = a.handles.length := (List.length_map _).symm

theorem Counted.size_eq_iff {ν : Type} {m : OrderedMap (Handle e) ν} (counted : a.Counted)
    (covers : ∀ h, a.contains h = true → h ∈ m.keys) :
    m.size = a.size ↔ ∀ h, h ∈ m.keys ↔ a.contains h = true := by
  rw [m.size_eq, counted.size_eq]
  constructor
  · intro same h
    have within : a.handles ⊆ m.keys := fun h mem => covers h (mem_handles.1 mem)
    have perm : a.handles.Perm m.keys :=
      (List.subperm_of_subset a.handles_nodup within).perm_of_length_le (Nat.le_of_eq same)
    exact perm.mem_iff.symm.trans mem_handles
  · intro keys
    have perm : m.keys.Perm a.handles :=
      (List.perm_ext_iff_of_nodup m.nodup a.handles_nodup).2 fun h =>
        (keys h).trans mem_handles.symm
    exact perm.length_eq

end Arena

theorem ite_some_eq_none {α : Type} {p : Prop} [Decidable p] {a : α} {rest : Option α} :
    (if p then some a else rest) = none ↔ ¬ p ∧ rest = none := by
  split <;> simp [*]

namespace Graph

variable {g : Graph}

theorem edgeFlaw?_eq_none {id : TransitionId} {t : Transition} : g.edgeFlaw? id t = none ↔
    (∃ st, g.states.get? t.source = some st ∧ id ∈ st.outgoing) ∧
      g.states.contains t.dest = true ∧ g.activation.contains id = true ∧
        g.coverages.contains id = true := by
  unfold edgeFlaw?
  cases g.states.get? t.source with
  | none => simp
  | some st =>
    simp only [ite_some_eq_none]
    simp [and_left_comm]

theorem listingFlaw?_eq_none {s : StateId} {id : TransitionId} :
    g.listingFlaw? s id = none ↔ ∃ t, g.transitions.get? id = some t ∧ t.source = s := by
  unfold listingFlaw?
  cases g.transitions.get? id <;> simp

theorem flaw?_eq_none : g.flaw? = none ↔
    (∀ id t, g.transitions.get? id = some t → g.edgeFlaw? id t = none) ∧
      (∀ s st, g.states.get? s = some st → ∀ id, id ∈ st.outgoing → g.listingFlaw? s id = none) ∧
        g.activation.size = g.transitions.size ∧ g.coverages.size = g.transitions.size := by
  simp only [flaw?, Option.orElse_eq_orElse, Option.orElse_eq_or, Option.or_eq_none_iff,
    List.findSome?_eq_none_iff, Prod.forall, Arena.mem_entries, ite_eq_left_iff, reduceCtorEq,
    imp_false, Decidable.not_not, OrderedSet.mem_def]

theorem audit_eq_ok_iff : g.audit = .ok () ↔ g.flaw? = none := by
  unfold audit
  cases g.flaw? <;> simp

structure Intact (g : Graph) : Prop where
  ends : ∀ {id t}, g.transitions.get? id = some t →
    g.states.contains t.source = true ∧ g.states.contains t.dest = true
  listed : ∀ {s st}, g.states.get? s = some st → ∀ id,
    id ∈ st.outgoing ↔ ∃ t, g.transitions.get? id = some t ∧ t.source = s
  activation : ∀ id, id ∈ g.activation.keys ↔ g.transitions.contains id = true
  coverages : ∀ id, id ∈ g.coverages.keys ↔ g.transitions.contains id = true

theorem Intact.flaw?_eq_none (h : g.Intact) (counted : g.transitions.Counted) :
    g.flaw? = none := by
  refine Graph.flaw?_eq_none.2 ⟨?edges, ?lists, ?activation, ?coverages⟩
  case edges =>
    intro id t ht
    have live := Arena.contains_of_get? ht
    obtain ⟨source, dest⟩ := h.ends ht
    obtain ⟨st, hst⟩ := Arena.contains_iff.1 source
    have listed : id ∈ st.outgoing := (h.listed hst id).2 ⟨t, ht, rfl⟩
    have active := OrderedMap.mem_keys_iff.1 ((h.activation id).2 live)
    have covered := OrderedMap.mem_keys_iff.1 ((h.coverages id).2 live)
    exact edgeFlaw?_eq_none.2 ⟨⟨st, hst, listed⟩, dest, active, covered⟩
  case lists =>
    exact fun s st hst id listed => listingFlaw?_eq_none.2 ((h.listed hst id).1 listed)
  case activation => exact (counted.size_eq_iff fun id => (h.activation id).2).2 h.activation
  case coverages => exact (counted.size_eq_iff fun id => (h.coverages id).2).2 h.coverages

theorem Intact.of_flaw? (counted : g.transitions.Counted) (sound : g.flaw? = none) :
    g.Intact := by
  obtain ⟨edges, lists, activation, coverages⟩ := Graph.flaw?_eq_none.1 sound
  have edge {id t} (ht : g.transitions.get? id = some t) := edgeFlaw?_eq_none.1 (edges id t ht)
  refine ⟨?ends, ?listed, ?activation, ?coverages⟩
  case ends =>
    intro id t ht
    obtain ⟨⟨st, hst, -⟩, dest, -⟩ := edge ht
    exact ⟨Arena.contains_of_get? hst, dest⟩
  case listed =>
    intro s st hst id
    constructor
    · exact fun listed => listingFlaw?_eq_none.1 (lists s st hst id listed)
    · rintro ⟨t, ht, rfl⟩
      obtain ⟨⟨st', hst', listed⟩, -⟩ := edge ht
      cases hst.symm.trans hst'
      exact listed
  case activation =>
    refine (counted.size_eq_iff fun id live => ?_).1 activation
    obtain ⟨t, ht⟩ := Arena.contains_iff.1 live
    obtain ⟨-, -, active, -⟩ := edge ht
    exact OrderedMap.mem_keys_iff.2 active
  case coverages =>
    refine (counted.size_eq_iff fun id live => ?_).1 coverages
    obtain ⟨t, ht⟩ := Arena.contains_iff.1 live
    obtain ⟨-, -, -, covered⟩ := edge ht
    exact OrderedMap.mem_keys_iff.2 covered

theorem Consistent.intact (h : g.Consistent) : g.Intact where
  ends ht := ⟨h.source ht, h.dest ht⟩
  listed := h.listed
  activation id := by rw [OrderedMap.mem_keys_iff, h.activation]
  coverages id := by rw [OrderedMap.mem_keys_iff, h.coverages]

theorem Intact.consistent (h : g.Intact) (counted : g.transitions.Counted) : g.Consistent where
  counted := counted
  source live := (h.ends live).1
  dest live := (h.ends live).2
  listed := h.listed
  activation id := by rw [Bool.eq_iff_iff, ← OrderedMap.mem_keys_iff, h.activation]
  coverages id := by rw [Bool.eq_iff_iff, ← OrderedMap.mem_keys_iff, h.coverages]

theorem Consistent.audit_eq_ok (h : g.Consistent) : g.audit = .ok () :=
  audit_eq_ok_iff.2 (h.intact.flaw?_eq_none h.counted)

/-- The audit passes the intact graphs and no others, whatever was written over states and edges. -/
theorem audit_passes_iff (reached : g.transitions.Reached) : g.audit = .ok () ↔ g.Intact :=
  audit_eq_ok_iff.trans
    ⟨.of_flaw? reached.counted, fun intact => intact.flaw?_eq_none reached.counted⟩

def loop : Transition where
  source := ⟨0⟩
  action := ⟨0⟩
  dest := ⟨0⟩
  version := .base

def worn : Graph where
  states := (Arena.add ∅ { window := ⟨0⟩, version := .base, outgoing := .ofList [⟨1⟩] }).2
  transitions := ((Arena.add ∅ loop).2.add loop).2.vacate ⟨0⟩
  activation := .ofList [(⟨1⟩, 0)]
  coverages := .ofList [(⟨1⟩, ∅)]

def haunted : Graph := { worn with activation := worn.activation.insert ⟨0⟩ 1 }

theorem audit_passes_iff_worn : worn.Intact ∧ ¬ haunted.Intact := by
  have reached : worn.transitions.Reached :=
    .remove (h := ⟨0⟩) (v := loop) (.add (.add .empty loop) loop) rfl
  have fails : haunted.audit = .error .staleActivation := rfl
  refine ⟨(audit_passes_iff reached).1 rfl, fun intact => ?_⟩
  cases fails.symm.trans ((audit_passes_iff (g := haunted) reached).2 intact)

end Graph

end ScreenGraph
