import ScreenGraph.Store.Arena
import ScreenGraph.Store.Checked
import ScreenGraph.Graph.Transition

/-!
The state transition graph: a directed multigraph in which several edges may join two states by one
action. Each edge has an activation count and a coverage annotation of its own, which come and go
with it. States are never removed.
-/

namespace ScreenGraph

/-- What a build does with a count that leaves its 32 bits: it stops, or it goes on from zero. -/
inductive Overflow
  | stops | wraps
  deriving DecidableEq

def Overflow.allows (o : Overflow) (n : UInt32) : Bool := o = .wraps || n.toNat + 1 < UInt32.size

structure Graph where
  states : Arena .state State := ∅
  transitions : Arena .transition Transition := ∅
  activation : OrderedMap TransitionId UInt32 := ∅
  coverages : OrderedMap TransitionId Coverage := ∅
  virtualStates : OrderedMap (WindowId × Version) StateId := ∅

namespace Graph

def state (g : Graph) (id : StateId) : Checked State := g.states.get id

def updateState (g : Graph) (id : StateId) (f : State → State) : Checked Graph :=
  return { g with states := ← g.states.update id f }

def addState (g : Graph) (s : State) : Checked (StateId × Graph) :=
  if s.outgoing.isEmpty then
    let (id, states) := g.states.add s
    .ok (id, { g with states })
  else .error .ownsTransitions

/-- The virtual state of a window for a version, made at the first request. -/
def virtualState (g : Graph) (window : WindowId) (version : Version) : Checked (StateId × Graph) :=
  match g.virtualStates.get? (window, version) with
  | some id => .ok (id, g)
  | none => do
    let (id, g) ← g.addState { window, version, kind := .virtual }
    return (id, { g with virtualStates := g.virtualStates.insert (window, version) id })

def statesOfWindow (g : Graph) (window : WindowId) : List StateId :=
  (g.states.entries.filter fun (_, s) => s.window = window).map Prod.fst

def transition (g : Graph) (id : TransitionId) : Checked Transition := g.transitions.get id

def updateTransition (g : Graph) (id : TransitionId) (f : Transition → Transition) :
    Checked Graph :=
  return { g with transitions := ← g.transitions.update id f }

def withEdge (g : Graph) (t : Transition) (coverage : Coverage) : Graph :=
  let (id, transitions) := g.transitions.add t
  { g with
    states := g.states.modify t.source (State.list id)
    transitions
    activation := g.activation.insert id (if t.isActive then 1 else 0)
    coverages := g.coverages.insert id coverage }

def withoutEdge (g : Graph) (id : TransitionId) (source : StateId) : Graph :=
  { g with
    states := g.states.modify source (State.unlist id)
    transitions := g.transitions.vacate id
    activation := g.activation.erase id
    coverages := g.coverages.erase id }

def addTransition (g : Graph) (t : Transition) (coverage : Coverage) :
    Checked (TransitionId × Graph) := do
  require (g.states.contains t.source) (.noSource t.source)
  require (g.states.contains t.dest) (.noDestination t.dest)
  return (g.transitions.next, g.withEdge t coverage)

/-- Takes an edge out of the graph, together with its entries. A vacant handle is left alone. -/
def removeTransition (g : Graph) (id : TransitionId) : Checked (Option Transition × Graph) :=
  match g.transitions.get? id with
  | none => .ok (none, g)
  | some t => do
    let source ← g.state t.source
    require (id ∈ source.outgoing) (.notAtSource id t.source)
    require (g.activation.contains id) (.noActivation id)
    require (g.coverages.contains id) (.noCoverage id)
    return (some t, g.withoutEdge id t.source)

def redirect (g : Graph) (id : TransitionId) (dest : StateId) : Checked Graph := do
  require (g.states.contains dest) (.noDestination dest)
  g.updateTransition id fun t => { t with dest }

def activate (g : Graph) (o : Overflow) (id : TransitionId) : Checked Graph := do
  let g ← g.updateTransition id fun t => { t with isActive := true }
  match g.activation.get? id with
  | some n =>
    require (o.allows n) (.activationOverflow id)
    return { g with activation := g.activation.insert id (n + 1) }
  | none => throw (.noActivation id)

def deactivate (g : Graph) (id : TransitionId) : Checked Graph :=
  g.updateTransition id fun t => { t with isActive := false }

def exercise (g : Graph) (o : Overflow) (id : TransitionId) (i : Interaction) : Checked Graph := do
  let g ← g.updateTransition id fun t => { t with interactions := t.interactions ++ [i] }
  g.activate o id

def activationCount (g : Graph) (id : TransitionId) : UInt32 := (g.activation.get? id).getD 0

def coverage? (g : Graph) (id : TransitionId) : Option Coverage := g.coverages.get? id

def mergeCoverage (g : Graph) (id : TransitionId) (c : Coverage) : Checked Graph :=
  match g.coverages.get? id with
  | some old => .ok { g with coverages := g.coverages.insert id (old.merge c) }
  | none => .error (.noCoverage id)

def outgoing (g : Graph) (s : StateId) : Checked (List TransitionId) :=
  return (← g.state s).outgoing.toList

def incoming (g : Graph) (s : StateId) : List TransitionId :=
  (g.transitions.entries.filter fun (_, t) => t.dest = s).map Prod.fst

def outgoingBy (g : Graph) (source : StateId) (action : ActionId) :
    Checked (List TransitionId) := do
  filterChecked (fun id => return (← g.transition id).action = action) (← g.outgoing source)

def outgoingTo (g : Graph) (source dest : StateId) : Checked (List TransitionId) := do
  filterChecked (fun id => return (← g.transition id).dest = dest) (← g.outgoing source)

def edgeFlaw? (g : Graph) (id : TransitionId) (t : Transition) : Option Fault :=
  match g.states.get? t.source with
  | none => some (.danglingSource id)
  | some source =>
    if !g.states.contains t.dest then some (.danglingDestination id)
    else if id ∉ source.outgoing then some (.unregistered id)
    else if !g.activation.contains id then some (.noActivation id)
    else if !g.coverages.contains id then some (.noCoverage id)
    else none

def listingFlaw? (g : Graph) (s : StateId) (id : TransitionId) : Option Fault :=
  match g.transitions.get? id with
  | none => some (.listsMissing s id)
  | some t => if t.source = s then none else some (.wrongSource id)

def flaw? (g : Graph) : Option Fault :=
  (g.transitions.entries.findSome? fun (id, t) => g.edgeFlaw? id t) <|>
    (g.states.entries.findSome? fun (id, s) => s.outgoing.toList.findSome? (g.listingFlaw? id)) <|>
    (if g.activation.size = g.transitions.size then none else some .staleActivation) <|>
    (if g.coverages.size = g.transitions.size then none else some .staleCoverage)

def audit (g : Graph) : Checked Unit :=
  match g.flaw? with
  | some f => .error f
  | none => .ok ()

end Graph

end ScreenGraph
