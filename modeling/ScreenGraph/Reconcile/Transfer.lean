import ScreenGraph.Reconcile.Ledger

/-!
The plan by which base edges are carried over to a state that has been recognised. Base edges into
the base state are to lead to the observed state instead; base edges out of it are to be copied onto
the images of the valuations that they act on. Guards are widened to live states: a guard state that
no snapshot shows gives way to its images that one does. Nothing changes while the plan is made.
-/

namespace ScreenGraph

/-- The action of a planned edge. One on an image is interned only when the plan is carried out. -/
inductive TransferAction
  | kept (id : ActionId)
  | retargeted (window : WindowId) (action : Action)

structure Transfer where
  baseEdge : TransitionId
  source : StateId
  action : TransferAction
  dest : StateId
  guards : Guard
  isIncoming : Bool
  isNavigateBack : Bool := false

/-- What becomes of one base edge in a plan. -/
inductive Finding
  | passedOver
  | unresolved
  | planned (t : Transfer)

namespace Finding

def transfer? : Finding → Option Transfer
  | .planned t => some t
  | _ => none

def isUnresolved : Finding → Bool
  | .unresolved => true
  | _ => false

end Finding

namespace Session

def liveImages (s : Session) (base : StateId) : Checked (List StateId) :=
  filterChecked (fun i => return (← s.model.graph.state i).isLive) (s.ledger.imagesOf base)

def resolveGuard (s : Session) (base : StateId) : Checked (List StateId) := do
  if (← s.model.graph.state base).isLive then return [base]
  s.liveImages base

/-- Widens a guard to live states. A guard none of whose states can be widened is not resolved. -/
def resolveGuards (s : Session) (g : Guard) : Checked (Option Guard) := do
  if g.isEmpty then return some ∅
  let live : Guard := .ofList (← flatMapChecked s.resolveGuard g.toList)
  return if live.isEmpty then none else some live

def incomingFinding (s : Session) (observed base : StateId) (id : TransitionId) :
    Checked Finding := do
  let t ← s.model.graph.transition id
  if t.version ≠ .base || t.source = base then return .passedOver
  if t.source ∈ s.ledger.observedBase then return .passedOver
  match ← s.resolveGuards t.guards with
  | none => return .unresolved
  | some guards => return .planned {
      baseEdge := id, source := t.source, action := .kept t.action, dest := observed, guards
      isIncoming := true }

/-- Whether a move back by this action was vetoed, or is known already. -/
def isSuppressed (s : Session) (window : WindowId) (a : Action) (dest : StateId) :
    Checked Bool := do
  let destWindow := (← s.model.graph.state dest).window
  match s.model.actions.find? window a with
  | none => return false
  | some id =>
    if s.model.isVetoed window id destWindow then return true
    s.model.actions.isNavigateBack id

/-- The destination of a copy. A copy that navigates back leads to a live state. -/
def resolveDest (s : Session) (t : Transition) : Checked (Option StateId) := do
  if !t.isNavigateBack then return some t.dest
  return (← s.resolveGuards (.ofList [t.dest])).bind OrderedSet.first?

def retarget (s : Session) (observed : StateId) (window : WindowId) (id : TransitionId)
    (t : Transition) (a : Action) : Checked Finding := do
  match ← s.resolveGuards t.guards with
  | none => return .unresolved
  | some guards =>
    match ← s.resolveDest t with
    | none => return .unresolved
    | some dest => do
      if t.isNavigateBack then
        if ← s.isSuppressed window a dest then return .passedOver
      return .planned {
        baseEdge := id, source := observed, action := .retargeted window a, dest, guards
        isIncoming := false, isNavigateBack := t.isNavigateBack }

def outgoingFinding (s : Session) (observed : StateId) (window : WindowId) (matching : Matching)
    (id : TransitionId) : Checked Finding := do
  let t ← s.model.graph.transition id
  if t.isImplicit || t.isSelfLoop || t.version ≠ .base then return .passedOver
  let action ← s.model.actions.action t.action
  match action.target with
  | none => return .passedOver
  | some target =>
    if ← s.model.actsOnWebView t.action then return .passedOver
    match matching.image? target with
    | none => return .unresolved
    | some image => s.retarget observed window id t { action with target := some image }

def findings (s : Session) (observed base : StateId) (matching : Matching) :
    Checked (List Finding) := do
  let incoming ← flatMapChecked (fun id => return [← s.incomingFinding observed base id])
    (s.model.graph.incoming base)
  let window := (← s.model.graph.state observed).window
  let outgoing ← flatMapChecked (fun id => return [← s.outgoingFinding observed window matching id])
    (← s.model.graph.outgoing base)
  return incoming ++ outgoing

def plan (s : Session) (observed base : StateId) (matching : Matching) :
    Checked (List Transfer × Session) := do
  let fs ← s.findings observed base matching
  return (fs.filterMap Finding.transfer?,
    { s with ledger := s.ledger.addUnresolved (fs.countP Finding.isUnresolved) })

end Session

end ScreenGraph
