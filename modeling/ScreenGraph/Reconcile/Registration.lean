import ScreenGraph.Reconcile.Transfer

/-!
Registration of a recognised pair: the ledger is written, the inputs are migrated and the planned
transfers are carried out one by one. A transfer is merged into an edge that is already there if the
guards are compatible, else it makes a new one, which is implicit, belongs to the base version and
has only inherited interactions.
-/

namespace ScreenGraph

/-- The widgets that may stand for a base widget in the running version. -/
def Model.widgetImages (m : Model) (matching : Matching) (w : WidgetId) : OrderedSet WidgetId :=
  let matched := matching.ofExpected.entries.flatMap fun (expected, observed) =>
    if m.avms.widgetOf expected = some w then observed.toList.filterMap m.avms.widgetOf else []
  .ofList (matched ++ (m.catalog.replacementOf w).toList ++ [w])

def Model.findInputImage (m : Model) (base : Input) (window : WindowId) (matching : Matching) :
    Checked (Option InputId) :=
  match base.widget with
  | none => m.catalog.findInput window base.event base.data none .running
  | some w => findMapChecked
      (fun w => m.catalog.findInput window base.event base.data (some w) .running)
      (m.widgetImages matching w).toList

/-- Takes over the covered methods of a base input. An input that reaches a changed method becomes a
target for testing. -/
def Input.absorb (i : Input) (modified : Flags) (reachesChange : Bool) : Input :=
  { i with
    modifiedMethods := Flags.merge i.modifiedMethods modified
    isTarget := i.isTarget || reachesChange }

namespace Session

def mergeInput (s : Session) (base : InputId) (modified : Flags) (image : InputId) :
    Checked Session := do
  let i ← s.model.catalog.input image
  let reachesChange := i.handlers.toList.any s.model.catalog.isChanged
  let catalog ← s.model.catalog.updateInput image fun i => i.absorb modified reachesChange
  let tally := { s.ledger.tally with migrated := s.ledger.tally.migrated + 1 }
  return {
    model := { s.model with catalog }
    ledger := { s.ledger with inputImages := s.ledger.inputImages.insert base image, tally } }

def migrateInput (window : WindowId) (matching : Matching) (s : Session) (id : InputId) :
    Checked Session := do
  if s.ledger.inputImages.contains id then return s
  let base ← s.model.catalog.input id
  match ← s.model.findInputImage base window matching with
  | none => return { s with ledger := s.ledger.addUnresolved 1 }
  | some image => s.mergeInput id base.modifiedMethods image

def migrateInputs (s : Session) (observed base : StateId) (matching : Matching) :
    Checked Session := do
  let baseWindow := (← s.model.graph.state base).window
  let window := (← s.model.graph.state observed).window
  foldChecked (migrateInput window matching) s (← s.model.catalog.inputsOf baseWindow .base)

end Session

namespace Model

def markNavigateBack (m : Model) (action : ActionId) : Checked Model := do
  let actions ← m.actions.markNavigateBack action
  let catalog ← foldChecked (fun c i => c.updateInput i fun i => { i with navigateBack := true })
    m.catalog (← actions.inputsOf action).toList
  return { m with actions, catalog }

def markTransfer (m : Model) (t : Transfer) (old action : ActionId) : Checked Model :=
  if t.isNavigateBack then do
    let m ← m.markNavigateBack old
    m.markNavigateBack action
  else .ok m

def resolveAction (m : Model) : TransferAction → Checked (ActionId × Model)
  | .kept id => .ok (id, m)
  | .retargeted window a => m.internAction window a

def canAbsorb (t : Transfer) (existing : Transition) : Bool :=
  existing.guards.isCompatible t.guards &&
    (existing.dest = t.dest || (!t.isIncoming && existing.isExercisedIn .running))

/-- The edge that a transfer is merged into: one to the same destination, or, for an edge out of the
observed state, one that this run has taken. -/
def mergeTarget (m : Model) (t : Transfer) (action : ActionId) : Checked (Option TransitionId) := do
  findChecked (fun id => return canAbsorb t (← m.graph.transition id))
    (← m.graph.outgoingBy t.source action)

/-- The guards of an observed edge are not widened. -/
def widen (t : Transfer) (e : Transition) : Transition :=
  if e.isImplicit then { e with guards := Guard.merge e.guards t.guards } else e

def mergeTransfer (m : Model) (t : Transfer) (coverage : Coverage) (existing : TransitionId) :
    Checked Model := do
  let graph ← m.graph.mergeCoverage existing coverage
  let graph ← graph.updateTransition existing (widen t)
  return { m with graph }

def transferred (t : Transfer) (action : ActionId) (old : Transition) : Transition where
  source := t.source
  action := action
  dest := t.dest
  version := .base
  isImplicit := true
  isStatic := old.isStatic
  interactions := old.interactions.map fun i => { i with inherited := true }
  guards := t.guards
  copiedFrom := some old.key

def bindImages (m : Model) (images : OrderedMap InputId InputId) (old action : ActionId) :
    Checked Model := do
  let inputs := (← m.actions.inputsOf old).toList.filterMap images.get?
  return { m with actions := ← foldChecked (fun a i => a.bindInput action i) m.actions inputs }

end Model

namespace Session

def transferAction (s : Session) (t : Transfer) (old : Transition) :
    Checked (ActionId × Session) := do
  let (action, model) ← s.model.resolveAction t.action
  let model ← model.markTransfer t old.action action
  let model ← model.bindImages s.ledger.inputImages old.action action
  return (action, { s with model })

def transferEdge (s : Session) (t : Transfer) (old : Transition) (coverage : Coverage)
    (action : ActionId) : Checked Session := do
  let tally := s.ledger.tally
  match ← s.model.mergeTarget t action with
  | some existing =>
    let model ← s.model.mergeTransfer t coverage existing
    return { model, ledger := { s.ledger with tally := { tally with merged := tally.merged + 1 } } }
  | none =>
    let (_, model) ← s.model.addTransition (Model.transferred t action old) coverage
    return { model, ledger := { s.ledger with tally := { tally with copied := tally.copied + 1 } } }

def applyTransfer (s : Session) (t : Transfer) : Checked Session := do
  let old ← s.model.graph.transition t.baseEdge
  let coverage := (s.model.graph.coverage? t.baseEdge).getD ∅
  let (action, s) ← s.transferAction t old
  let s ← s.transferEdge t old coverage action
  if !t.isIncoming then return s
  let (_, graph) ← s.model.graph.removeTransition t.baseEdge
  return { s with model := { s.model with graph } }

def applyAll (s : Session) (plan : List Transfer) : Checked Session :=
  foldChecked applyTransfer s plan

def enter (s : Session) (observed base : StateId) (matching : Matching) :
    Checked (List Transfer × Session) := do
  let s := { s with ledger := s.ledger.recognise observed base }
  let s ← s.migrateInputs observed base matching
  s.plan observed base matching

/-- Registers that a state is equivalent to a base state and carries over what is known of the base
state. For a pair that is entered already, only the snapshot is noted. -/
def register (s : Session) (observed base : StateId) (snapshot : SnapshotId) (matching : Matching) :
    Checked Session := do
  let s := { s with ledger := s.ledger.markSnapshot snapshot base }
  if s.ledger.isRecognised observed base then return s
  let (plan, s) ← s.enter observed base matching
  s.applyAll plan

end Session

end ScreenGraph
