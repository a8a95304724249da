import ScreenGraph.Reconcile.Registration

/-!
The classifiers of an observed state. They are tried in order and the first that applies decides.
The first four read the ledger and the state itself. The others compare it with base states and
register the first one that it is equivalent to: the initial states if the program was just started,
the destinations of the edges that were just pruned, and at last the base states of the snapshot or
of the whole model.
-/

namespace ScreenGraph

inductive Classification
  | ignored
  | homeScreen
  | knownNew
  | cached (base : StateId)
  | observedBase
  | equivalent (base : StateId) (rule : Rule)
  | new
  deriving DecidableEq

def Classification.label : Classification → String
  | .ignored => "Ignored"
  | .homeScreen => "HomeScreen"
  | .knownNew => "KnownNew"
  | .cached base => "cached(" ++ base.label ++ ")"
  | .observedBase => "ObservedBase"
  | .equivalent base rule => "equivalent(" ++ base.label ++ ", " ++ rule.name ++ ")"
  | .new => "New"

/-- An observation: an edge was taken to a state while a snapshot was on show. The previous state is
the one from which the source of the edge was entered. -/
structure Observation where
  snapshot : SnapshotId
  state : StateId
  transition : TransitionId
  previous : Option StateId := none

/-- An observation that is being classified, with its action and the keys of the pruned edges. -/
structure Sighting where
  snapshot : SnapshotId
  state : StateId
  transition : TransitionId
  action : ActionId
  pruned : List EdgeKey

abbrev Classifier := Sighting → Session → Checked (Option Classification × Session)

namespace Session

def search (strict : Bool) (g : Sighting) :
    List StateId → Session → Checked (Option (StateId × Rule × Matching) × Session)
  | [], s => .ok (none, s)
  | base :: bases, s => do
    let (c, model) ← s.model.compare g.state base strict
    let s := { s with model }
    match c.accepted? with
    | some (rule, matching) => return (some (base, rule, matching), s)
    | none => search strict g bases s

def firstEquivalent (strict : Bool) (g : Sighting) (bases : List StateId) (s : Session) :
    Checked (Option (StateId × Rule) × Session) := do
  match ← search strict g bases s with
  | (none, s) => return (none, s)
  | (some (base, rule, matching), s) =>
    return (some (base, rule), ← s.register g.state base g.snapshot matching)

end Session

namespace Classifier

def homeScreen : Classifier := fun g s => do
  return (if (← s.model.graph.state g.state).isHome then some .homeScreen else none, s)

def knownNew : Classifier := fun g s => do
  if g.state ∈ s.ledger.newStates then
    return (some .knownNew, { s with ledger := s.ledger.markNewSnapshot g.snapshot })
  return (none, s)

def cached : Classifier := fun g s =>
  let base := (s.ledger.basesOf g.snapshot).find? (s.ledger.isRecognised g.state)
  .ok (base.map .cached, s)

def observedBase : Classifier := fun g s => do
  if (← s.model.graph.state g.state).version = .base then
    return (some .observedBase, { s with ledger := s.ledger.markObservedBase g.state })
  return (none, s)

def isInitialBase (s : State) : Bool := s.isInitial && s.version = .base && !s.isVirtual

def initialBases (m : Model) : List StateId :=
  (m.graph.states.entries.filter fun (_, s) => isInitialBase s).map Prod.fst

def initialState : Classifier := fun g s => do
  if !(← s.model.actions.action g.action).isLaunchOrReset then return (none, s)
  let (found, s) ← s.firstEquivalent false g (initialBases s.model)
  return (found.map fun (base, rule) => .equivalent base rule, s)

def obsoleteBases (m : Model) (pruned : List EdgeKey) : Checked (List StateId) := do
  let dests ← filterChecked
    (fun d => do
      let s ← m.graph.state d
      return s.version = .base && !s.isVirtual)
    (pruned.map EdgeKey.dest)
  return (OrderedSet.ofList dests).toList

def obsoleteDestination : Classifier := fun g s => do
  if g.pruned.isEmpty then return (none, s)
  let (found, s) ← s.firstEquivalent false g (← obsoleteBases s.model g.pruned)
  match found with
  | some (base, rule) =>
    let keys := g.pruned.filter fun k => k.dest = base
    return (some (.equivalent base rule), { s with ledger := s.ledger.reproduce g.transition keys })
  | none => return (none, { s with ledger := s.ledger.markIncorrect g.pruned })

/-- Whether a base state can be equivalent to the observed one, as far as no matching is needed. -/
def isScanned (c : Catalog) (observed candidate : State) : Checked Bool := do
  if candidate.version = .base && !candidate.isVirtual && !candidate.isHome
      && candidate.sameFlags observed then
    c.compatible candidate.window observed.window
  else return false

def scanned (m : Model) (state : StateId) : Checked (List StateId) := do
  let observed ← m.graph.state state
  let found ← filterChecked
    (fun (id, s) => do if id = state then return false else isScanned m.catalog observed s)
    m.graph.states.entries
  return found.map Prod.fst

/-- The base states of the snapshot, or else all that the scan lets through. -/
def windowBases (s : Session) (g : Sighting) : Checked (List StateId) :=
  match s.ledger.basesOf g.snapshot with
  | [] => scanned s.model g.state
  | bases => .ok bases

def windowScan : Classifier := fun g s => do
  let (found, s) ← s.firstEquivalent s.model.policy.strictScan g (← windowBases s g)
  return (found.map fun (base, rule) => .equivalent base rule, s)

def all : List Classifier :=
  [homeScreen, knownNew, cached, observedBase, initialState, obsoleteDestination, windowScan]

def firstOf : List Classifier → Classifier
  | [], _, s => .ok (none, s)
  | c :: cs, g, s => do
    match ← c g s with
    | (none, s) => firstOf cs g s
    | decided => return decided

end Classifier

end ScreenGraph
