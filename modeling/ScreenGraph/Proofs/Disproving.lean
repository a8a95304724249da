import ScreenGraph.Proofs.Auditing
import ScreenGraph.Proofs.Repeating

namespace ScreenGraph

namespace State

def unlistAll (ids : List TransitionId) (s : State) : State :=
  { s with outgoing := s.outgoing.filter fun id => decide (id ∉ ids) }

theorem unlistAll_nil (s : State) : s.unlistAll [] = s := by
  simp [unlistAll, OrderedSet.filter]

theorem unlistAll_unlistAll (ids r : List TransitionId) (s : State) :
    (s.unlistAll ids).unlistAll r = s.unlistAll (ids ++ r) := by
  simp [unlistAll, OrderedSet.filter, List.filter_filter, Bool.and_comm]

end State

namespace Graph

variable {g g' g₁ : Graph} {t id : TransitionId} {u e : Transition} {ps : List StateId}
  {ids : List TransitionId} {keys : List EdgeKey} {source : StateId}

structure Sheds (g g' : Graph) (source : StateId) (ids : List TransitionId) : Prop where
  edge : ∀ k, g'.transitions.get? k = if k ∈ ids then none else g.transitions.get? k
  activation : ∀ k, g'.activation.get? k = if k ∈ ids then none else g.activation.get? k
  coverages : ∀ k, g'.coverages.get? k = if k ∈ ids then none else g.coverages.get? k
  listing : g'.states.get? source = (g.states.get? source).map (State.unlistAll ids)
  other : ∀ k, k ≠ source → g'.states.get? k = g.states.get? k
  virtualStates : g'.virtualStates = g.virtualStates

theorem Sheds.refl (g : Graph) (source : StateId) : g.Sheds g source [] where
  edge k := by simp
  activation k := by simp
  coverages k := by simp
  listing := by simp [funext State.unlistAll_nil]
  other k _ := rfl
  virtualStates := rfl

theorem Sheds.trans {r : List TransitionId} (first : g.Sheds g₁ source ids)
    (rest : g₁.Sheds g' source r) : g.Sheds g' source (ids ++ r) where
  edge k := by
    rw [rest.edge, first.edge]
    by_cases later : k ∈ r <;> simp [later]
  activation k := by
    rw [rest.activation, first.activation]
    by_cases later : k ∈ r <;> simp [later]
  coverages k := by
    rw [rest.coverages, first.coverages]
    by_cases later : k ∈ r <;> simp [later]
  listing := by
    rw [rest.listing, first.listing, Option.map_map]
    exact congrFun (congrArg Option.map (funext (State.unlistAll_unlistAll ids r))) _
  other k differ := by rw [rest.other k differ, first.other k differ]
  virtualStates := rest.virtualStates.trans first.virtualStates

end Graph

namespace Session

end Session

end ScreenGraph
