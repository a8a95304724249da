import ScreenGraph.Reconcile.Check

namespace ScreenGraph

/-- What became of a captured screen. The state stays even if its snapshot is refused. -/
structure Capture where
  state : StateId
  avms : List AvmId
  snapshot : Except Refusal SnapshotId

namespace Model

def addAvms (m : Model) (state : StateId) : List Attributes → Checked (List AvmId × Model)
  | [] => .ok ([], m)
  | a :: r => do
    let (id, m) ← m.addAvm state a none
    let (ids, m) ← m.addAvms state r
    return (id :: ids, m)

def capture (m : Model) (window : WindowId) (version : Version) (elements : List Element) :
    Checked (Capture × Model) := do
  let shot : Snapshot := { windowClass := (← m.catalog.window window).className, elements }
  let (state, m) ← m.addState { window, version }
  let (avms, m) ← m.addAvms state (shot.visibleElements.map Attributes.ofElement)
  let (snapshot, m) := m.addSnapshot shot
  return (⟨state, avms, snapshot⟩, m)

def placeholder (windowClass : String) : Snapshot :=
  { windowClass, elements := [{ resourceId := "x", className := "Button", path := "/x" }] }

def snapshotOr (m : Model) (given : Option SnapshotId) (state : StateId) :
    Checked (Except Refusal SnapshotId × Model) := do
  match given with
  | some g => return (.ok g, m)
  | none => return m.addSnapshot (placeholder (← m.windowClass state))

end Model

structure Outcome where
  snapshot : SnapshotId
  label : String
  classification : Classification

namespace Session

def perform (s : Session) (o : Overflow) (source : StateId) (action : ActionId) (dest : StateId)
    (step : Nat) : Checked (TransitionId × Session) := do
  let (t, model) ← s.model.addPlainTransition source action dest .running
  let graph ← model.graph.exercise o t { step, version := .running }
  return (t, { s with model := { model with graph } })

def conclude (s : Session) (t : TransitionId) (dest : StateId) (given : Option SnapshotId)
    (previous : Option StateId) : Checked (Except Refusal Outcome × Session) := do
  match ← s.model.snapshotOr given dest with
  | (.error r, model) => return (.error r, { s with model })
  | (.ok snapshot, model) =>
    let s := { s with model }
    let label ← s.model.transitionLabel t
    let (c, s) ← s.check { snapshot, state := dest, transition := t, previous }
    return (c.map fun c => ⟨snapshot, label, c⟩, s)

end Session

end ScreenGraph
