import ScreenGraph.Proofs.Auditing
import ScreenGraph.Proofs.Operating

namespace ScreenGraph.Graph

variable {g : Graph}

theorem mem_incoming {s : StateId} {id : TransitionId} :
    id ∈ g.incoming s ↔ ∃ e, g.transitions.get? id = some e ∧ e.dest = s := by
  simp [incoming, Arena.mem_entries]

theorem incoming_nodup (g : Graph) (s : StateId) : (g.incoming s).Nodup :=
  g.transitions.handles_nodup.sublist (List.filter_sublist.map Prod.fst)

theorem outgoing_eq_ok {s : StateId} {ids : List TransitionId} (ok : g.outgoing s = .ok ids) :
    ∃ st, g.states.get? s = some st ∧ ids = st.outgoing.toList := by
  obtain ⟨st, hst, done⟩ := Arena.get_bind_eq_ok.1 ok
  cases done
  exact ⟨st, hst, rfl⟩

theorem mem_outgoingBy {s : StateId} {a : ActionId} {ids : List TransitionId}
    (ok : g.outgoingBy s a = .ok ids) {id : TransitionId} : id ∈ ids ↔
      ∃ st t, g.states.get? s = some st ∧ id ∈ st.outgoing ∧
        g.transitions.get? id = some t ∧ t.action = a := by
  obtain ⟨leaving, listed, ok⟩ := Checked.bind_eq_ok.1 ok
  obtain ⟨st, hst, rfl⟩ := outgoing_eq_ok listed
  rw [mem_filterChecked ok]
  constructor
  · rintro ⟨listed, test⟩
    obtain ⟨t, ht, same⟩ := Arena.get_bind_eq_ok.1 test
    exact ⟨st, t, hst, listed, ht, of_decide_eq_true (pure_eq_ok.1 same)⟩
  · rintro ⟨st', t, hst', listed, ht, same⟩
    cases hst.symm.trans hst'
    exact ⟨listed, Checked.bind_eq_ok.2 ⟨t, Arena.get_eq_ok_iff.2 ht, by simp [same]⟩⟩

/-- A query goes through and names the edges of a kind, each of them once. -/
def Yields (g : Graph) (query : Checked (List TransitionId)) (kind : Transition → Prop) : Prop :=
  ∃ ids, query = .ok ids ∧ ids.Nodup ∧
    ∀ id, id ∈ ids ↔ ∃ t, g.transitions.get? id = some t ∧ kind t

namespace Consistent

theorem yields_outgoing (h : g.Consistent) {s : StateId} (live : g.states.contains s = true) :
    g.Yields (g.outgoing s) fun t => t.source = s := by
  obtain ⟨st, hst⟩ := Arena.contains_iff.1 live
  refine ⟨st.outgoing.toList, ?_, st.outgoing.nodup, h.listed hst⟩
  exact Arena.get_bind_eq_ok.2 ⟨st, hst, rfl⟩

theorem yields_filter (h : g.Consistent) {s : StateId} (live : g.states.contains s = true)
    (test : Transition → Bool) :
    g.Yields (g.outgoing s >>= filterChecked fun id => return test (← g.transition id))
      fun t => t.source = s ∧ test t = true := by
  obtain ⟨ids, leaving, nodup, listed⟩ := h.yields_outgoing live
  have passes : ∀ id ∈ ids, (g.transition id >>= fun t => pure (test t)) =
      .ok ((g.transitions.get? id).any test) := by
    intro id mem
    obtain ⟨t, ht, -⟩ := (listed id).1 mem
    exact Arena.get_bind_eq_ok.2 ⟨t, ht, by simp [ht]⟩
  refine ⟨ids.filter fun id => (g.transitions.get? id).any test, ?_, nodup.filter _, fun id => ?_⟩
  · exact Checked.bind_eq_ok.2 ⟨ids, leaving, filterChecked_ok passes⟩
  · rw [List.mem_filter, listed]
    constructor
    · rintro ⟨⟨t, ht, source⟩, passed⟩
      rw [ht] at passed
      exact ⟨t, ht, source, passed⟩
    · rintro ⟨t, ht, source, passed⟩
      exact ⟨⟨t, ht, source⟩, by rwa [ht]⟩

theorem yields_outgoingBy (h : g.Consistent) {s : StateId} (live : g.states.contains s = true)
    (a : ActionId) : g.Yields (g.outgoingBy s a) fun t => t.source = s ∧ t.action = a := by
  have filtered := h.yields_filter live fun t => decide (t.action = a)
  simp only [decide_eq_true_eq] at filtered
  exact filtered

theorem outgoingBy_succeeds (h : g.Consistent) {s : StateId} (a : ActionId)
    (live : g.states.contains s = true) : Succeeds (g.outgoingBy s a) := by
  obtain ⟨ids, found, -⟩ := h.yields_outgoingBy live a
  exact ⟨ids, found⟩

end Consistent

def Operation.replacing : List Operation :=
  let edge (source dest : StateId) : Transition := { source, action := ⟨0⟩, dest, version := .base }
  [.virtualState ⟨0⟩ .base, .addState { window := ⟨0⟩, version := .base },
    .addTransition (edge ⟨0⟩ ⟨1⟩) ∅, .removeTransition ⟨0⟩, .addTransition (edge ⟨1⟩ ⟨0⟩) ∅,
    .redirect ⟨0⟩ ⟨1⟩, .exercise ⟨0⟩ { step := 1, version := .base }]

end ScreenGraph.Graph
