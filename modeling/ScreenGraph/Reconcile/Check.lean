import ScreenGraph.Reconcile.Classifier

namespace ScreenGraph

/-- Whether an edge with the source and action of the observed one is a stale guess. -/
def Transition.isObsolete (t : Transition) (dest : StateId) : Bool :=
  t.version = .base && !t.isExercisedIn .running && t.dest ≠ dest

/-- A previous state, and the base states that it is known to be equivalent to. -/
def Ledger.predecessors (l : Ledger) : Option StateId → List StateId
  | none => []
  | some p => p :: l.equivalentsOf p

namespace Graph

def rivals (g : Graph) (observed : TransitionId) : Checked (List TransitionId) := do
  let t ← g.transition observed
  return (← g.outgoingBy t.source t.action).filter (· ≠ observed)

def isEntered (g : Graph) (id : TransitionId) (predecessors : List StateId) : Checked Bool := do
  if predecessors.isEmpty then return false
  return (← g.transition id).guards.accepts predecessors

def obsolete (g : Graph) (observed : TransitionId) (predecessors : List StateId) :
    Checked (List TransitionId) := do
  let dest := (← g.transition observed).dest
  let stale ← filterChecked (fun id => return (← g.transition id).isObsolete dest)
    (← g.rivals observed)
  let entered ← filterChecked (fun id => g.isEntered id predecessors) stale
  return if entered.isEmpty then stale else entered

def prune (g : Graph) : List TransitionId → Checked (List EdgeKey × Graph)
  | [] => .ok ([], g)
  | id :: r => do
    let (removed, g) ← g.removeTransition id
    let (keys, g) ← g.prune r
    return (removed.toList.map Transition.key ++ keys, g)

def deactivateAll (g : Graph) (ids : List TransitionId) : Checked Graph :=
  foldChecked deactivate g ids

def supersede (g : Graph) (observed : TransitionId) : Checked Graph := do
  let guards := (← g.transition observed).guards
  let superseded ← filterChecked
    (fun id => do
      let t ← g.transition id
      return t.isActive && t.guards.isCompatible guards)
    (← g.rivals observed)
  g.deactivateAll superseded

end Graph

namespace Session

def pruneObsolete (s : Session) (observed : TransitionId) (previous : Option StateId) :
    Checked (List EdgeKey × Session) := do
  let obsolete ← s.model.graph.obsolete observed (s.ledger.predecessors previous)
  let (keys, graph) ← s.model.graph.prune obsolete
  let tally := { s.ledger.tally with pruned := s.ledger.tally.pruned + keys.length }
  return (keys, { model := { s.model with graph }, ledger := { s.ledger with tally } })

def supersede (s : Session) (observed : TransitionId) : Checked Session :=
  return { s with model := { s.model with graph := ← s.model.graph.supersede observed } }

end Session

namespace Session

def classify (s : Session) (g : Sighting) : Checked (Classification × Session) := do
  match ← Classifier.firstOf Classifier.all g s with
  | (some c, s) => return (c, s)
  | (none, s) =>
    return (.new, { s with ledger := s.ledger.markNew g.state g.snapshot })

def refusal? (m : Model) (o : Observation) : Option Refusal :=
  if !m.snapshots.contains o.snapshot then some (.unknownSnapshot o.snapshot)
  else if !m.graph.transitions.contains o.transition then some (.unknownTransition o.transition)
  else ((o.state :: o.previous.toList).find? fun s => !m.graph.states.contains s).map .unknownState

/-- Notes the snapshot of an observation and removes from the graph what the observed edge proves
wrong. There is nothing to classify if the policy excludes the action. -/
def sight (s : Session) (o : Observation) : Checked (Option Sighting × Session) := do
  let s := { s with model := (s.model.attachSnapshot o.state o.snapshot).2 }
  let action := (← s.model.graph.transition o.transition).action
  if s.model.policy.isExcluded (← s.model.actions.action action).type then return (none, s)
  let (pruned, s) ← s.pruneObsolete o.transition o.previous
  let s ← s.supersede o.transition
  return (some {
    snapshot := o.snapshot, state := o.state, transition := o.transition, action, pruned }, s)

/-- Decides what the state of an observation is to the base version. A refusal changes nothing. -/
def check (s : Session) (o : Observation) : Checked (Except Refusal Classification × Session) :=
  match refusal? s.model o with
  | some r => .ok (.error r, s)
  | none => do
    match ← s.sight o with
    | (none, s) => return (.ok .ignored, s)
    | (some g, s) => do
      let (c, s) ← s.classify g
      return (.ok c, s)

end Session

end ScreenGraph
