import ScreenGraph.Reconcile.Ledger

namespace ScreenGraph

structure Report where
  baseStates : Nat
  observedBaseStates : Nat
  equivalentStates : Nat
  newStates : Nat
  newSnapshots : Nat
  baseTransitions : Nat
  runningTransitions : Nat
  equivalentTransitions : Nat
  newTransitions : Nat
  copiedTransitions : Nat
  mergedTransitions : Nat
  prunedTransitions : Nat
  incorrectTransitions : Nat
  migratedInputs : Nat
  unresolved : Nat
  incorrect : List String

namespace Report

def columns (r : Report) : List (String × Nat) :=
  [("BaseStates", r.baseStates),
   ("ObservedBaseStates", r.observedBaseStates),
   ("EquivalentStates", r.equivalentStates),
   ("NewStates", r.newStates),
   ("NewSnapshots", r.newSnapshots),
   ("BaseTransitions", r.baseTransitions),
   ("RunningTransitions", r.runningTransitions),
   ("EquivalentTransitions", r.equivalentTransitions),
   ("NewTransitions", r.newTransitions),
   ("CopiedTransitions", r.copiedTransitions),
   ("MergedTransitions", r.mergedTransitions),
   ("PrunedTransitions", r.prunedTransitions),
   ("IncorrectTransitions", r.incorrectTransitions),
   ("MigratedInputs", r.migratedInputs),
   ("Unresolved", r.unresolved)]

def row (fields : List String) : String := String.intercalate ";" fields ++ "\n"

def lines (r : Report) : List String :=
  row (r.columns.map Prod.fst) :: row (r.columns.map fun c => toString c.2) ::
    r.incorrect.map fun label => row ["Incorrect", label]

def render (r : Report) : String := String.join r.lines

end Report

namespace Graph

def transitionsOf (g : Graph) (v : Version) : List TransitionId :=
  (g.transitions.entries.filter fun (_, t) => t.version = v).map Prod.fst

def baseStates (g : Graph) : List StateId :=
  (g.states.entries.filter fun (_, s) => s.version = .base && !s.isVirtual).map Prod.fst

end Graph

namespace Session

def report (s : Session) : Checked Report := do
  let g := s.model.graph
  let l := s.ledger
  let incorrect ← flatMapChecked (fun k => return [← s.model.edgeLabel k]) l.incorrect.toList
  return {
    baseStates := g.baseStates.length
    observedBaseStates := l.observedBase.size
    equivalentStates := l.equivalents.size
    newStates := l.newStates.size
    newSnapshots := l.newSnapshots.size
    baseTransitions := (g.transitionsOf .base).length
    runningTransitions := (g.transitionsOf .running).length
    equivalentTransitions := l.reproduced.size
    newTransitions := ((g.transitionsOf .running).filter fun t => !l.reproduced.contains t).length
    copiedTransitions := l.tally.copied
    mergedTransitions := l.tally.merged
    prunedTransitions := l.tally.pruned
    incorrectTransitions := l.incorrect.size
    migratedInputs := l.tally.migrated
    unresolved := l.tally.unresolved
    incorrect }

end Session

end ScreenGraph
