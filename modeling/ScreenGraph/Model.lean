import ScreenGraph.Action.Basic
import ScreenGraph.Screen.Avm
import ScreenGraph.Catalog.Basic
import ScreenGraph.Graph.Basic
import ScreenGraph.Similarity.Score

namespace ScreenGraph

structure Model where
  policy : Policy := {}
  catalog : Catalog := {}
  avms : AvmStore := {}
  actions : ActionTable := {}
  graph : Graph := {}
  snapshots : Arena .snapshot Snapshot := ∅
  /-- Moves back that must not be inferred: from a window, by an action, to a window. -/
  vetoes : OrderedSet (WindowId × ActionId × WindowId) := ∅

namespace Model

def addSnapshot (m : Model) (g : Snapshot) : Except Refusal SnapshotId × Model :=
  match g.validate with
  | .error r => (.error r, m)
  | .ok () =>
    let (id, snapshots) := m.snapshots.add g
    (.ok id, { m with snapshots })

def attachSnapshot (m : Model) (state : StateId) (snapshot : SnapshotId) :
    Except Refusal Unit × Model :=
  if !m.snapshots.contains snapshot then (.error (.unknownSnapshot snapshot), m)
  else if !m.graph.states.contains state then (.error (.unknownState state), m)
  else
    let states := m.graph.states.modify state (State.attach snapshot)
    (.ok (), { m with graph := { m.graph with states } })

def addState (m : Model) (s : State) : Checked (StateId × Model) := do
  let (id, graph) ← m.graph.addState s
  return (id, { m with graph })

def updateState (m : Model) (id : StateId) (f : State → State) : Checked Model :=
  return { m with graph := ← m.graph.updateState id f }

def updateTransition (m : Model) (id : TransitionId) (f : Transition → Transition) :
    Checked Model :=
  return { m with graph := ← m.graph.updateTransition id f }

def bindNew (m : Model) (state : StateId) (avms : AvmStore) (id : AvmId) :
    Option WidgetId → Checked AvmStore
  | none => .ok avms
  | some w => do
    let window := (← m.graph.state state).window
    require ((← m.catalog.widget w).window = window) (.foreignWidget w window)
    avms.bind id w

def addAvm (m : Model) (state : StateId) (attributes : Attributes) (widget : Option WidgetId) :
    Checked (AvmId × Model) := do
  require (m.graph.states.contains state) (.avmOutsideGraph state)
  let (id, avms) := m.avms.add state attributes
  let avms ← m.bindNew state avms id widget
  let m := { m with avms }
  return (id, ← m.updateState state fun s => { s with avms := s.avms.insert id })

def freezeState (m : Model) (state : StateId) : Checked Model := m.updateState state State.freeze

def windowOfAvm (m : Model) (avm : AvmId) : Checked WindowId := do
  return (← m.graph.state (← m.avms.get avm).state).window

def internAction (m : Model) (window : WindowId) (a : Action) : Checked (ActionId × Model) := do
  match a.target with
  | none => pure ()
  | some target => require ((← m.windowOfAvm target) = window) (.foreignTarget target window)
  let (id, actions) := m.actions.intern window a
  return (id, { m with actions })

def addTransition (m : Model) (t : Transition) (coverage : Coverage) :
    Checked (TransitionId × Model) := do
  let (id, graph) ← m.graph.addTransition t coverage
  return (id, { m with graph })

def addPlainTransition (m : Model) (source : StateId) (action : ActionId) (dest : StateId)
    (version : Version) : Checked (TransitionId × Model) :=
  m.addTransition { source, action, dest, version } ∅

def actsOnWebView (m : Model) (action : ActionId) : Checked Bool := do
  match (← m.actions.action action).target with
  | none => return false
  | some avm => return (← m.avms.get avm).isWebView

def veto (m : Model) (window : WindowId) (action : ActionId) (dest : WindowId) : Model :=
  { m with vetoes := m.vetoes.insert (window, action, dest) }

def isVetoed (m : Model) (window : WindowId) (action : ActionId) (dest : WindowId) : Bool :=
  decide ((window, action, dest) ∈ m.vetoes)

def windowClass (m : Model) (state : StateId) : Checked String := do
  return (← m.catalog.window (← m.graph.state state).window).className

/-- The classes of the two windows and the action between them, for an edge that may be gone. -/
def edgeLabel (m : Model) (key : EdgeKey) : Checked String := do
  let source ← m.windowClass key.source
  let dest ← m.windowClass key.dest
  let action ← m.actions.action key.action
  return source ++ ";" ++ action.label ++ ";" ++ dest

def transitionLabel (m : Model) (id : TransitionId) : Checked String := do
  m.edgeLabel (← m.graph.transition id).key

end Model

end ScreenGraph
