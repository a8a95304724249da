import ScreenGraph.Screen.Avm

namespace ScreenGraph

inductive StateKind
  | concrete | virtual
  deriving DecidableEq

structure State where
  window : WindowId
  version : Version
  kind : StateKind := .concrete
  rotation : Rotation := .portrait
  menuOpen : Bool := false
  keyboardOpen : Bool := false
  avms : OrderedSet AvmId := ∅
  /-- The valuations that comparisons go by, once they have been frozen. -/
  knownGood : Option (OrderedSet AvmId) := none
  snapshots : OrderedSet SnapshotId := ∅
  isHome : Bool := false
  isInitial : Bool := false
  isOutOfApp : Bool := false
  outgoing : OrderedSet TransitionId := ∅

namespace State

def isVirtual (s : State) : Bool := s.kind = .virtual

def isLive (s : State) : Bool := !s.snapshots.isEmpty

def comparableAvms (s : State) : OrderedSet AvmId := s.knownGood.getD s.avms

def attach (snapshot : SnapshotId) (s : State) : State :=
  { s with snapshots := s.snapshots.insert snapshot }

def freeze (s : State) : State := { s with knownGood := some s.avms }

def list (id : TransitionId) (s : State) : State := { s with outgoing := s.outgoing.insert id }

def unlist (id : TransitionId) (s : State) : State := { s with outgoing := s.outgoing.erase id }

/-- Whether the flags of the device agree, without which no two states are equivalent. -/
def sameFlags (s t : State) : Bool :=
  s.rotation = t.rotation && s.menuOpen == t.menuOpen && s.keyboardOpen == t.keyboardOpen

end State

/-- The ends and the action of an edge. It stays meaningful when the edge is gone, for states and
actions never go. -/
structure EdgeKey where
  source : StateId
  action : ActionId
  dest : StateId
  deriving DecidableEq

/-- One time that an edge was taken, or that a base edge was, for an edge that inherited it. -/
structure Interaction where
  step : Nat
  version : Version
  inherited : Bool := false
  deriving DecidableEq

abbrev Guard := OrderedSet StateId

namespace Guard

def accepts (g : Guard) (predecessors : List StateId) : Bool :=
  g.isEmpty || predecessors.any fun p => decide (p ∈ g)

def isCompatible (g h : Guard) : Bool :=
  g.isEmpty || h.isEmpty || h.toList.any fun s => decide (s ∈ g)

def merge (g h : Guard) : Guard :=
  if h.isEmpty then ∅ else if g.isEmpty then g else g.insertMany h.toList

end Guard

structure Transition where
  source : StateId
  action : ActionId
  dest : StateId
  version : Version
  isActive : Bool := false
  isImplicit : Bool := false
  /-- Taken over from a static window transition graph. -/
  isStatic : Bool := false
  interactions : List Interaction := []
  guards : Guard := ∅
  copiedFrom : Option EdgeKey := none

namespace Transition

def isSelfLoop (t : Transition) : Bool := t.source = t.dest

def key (t : Transition) : EdgeKey := ⟨t.source, t.action, t.dest⟩

/-- Taken in this version, and not merely by inheritance. -/
def isExercisedIn (t : Transition) (v : Version) : Bool :=
  t.interactions.any fun i => i.version = v && !i.inherited

/-- Whether the edge leads to one of its own guard states. -/
def isNavigateBack (t : Transition) : Bool := decide (t.dest ∈ t.guards)

end Transition

abbrev Flags := OrderedMap String Bool

namespace Flags

def raise (m : Flags) (method : String) (covered : Bool) : Flags :=
  m.update method fun old => old.getD false || covered

def merge (m n : Flags) : Flags := n.entries.foldl (fun m e => m.raise e.1 e.2) m

theorem get?_raise (m : Flags) (method : String) (covered : Bool) (k : String) :
    (m.raise method covered).get? k =
      if method = k then some ((m.get? method).getD false || covered) else m.get? k :=
  OrderedMap.get?_update ..

end Flags

structure Coverage where
  handlers : Flags := ∅
  modifiedMethods : Flags := ∅

namespace Coverage

instance : EmptyCollection Coverage := ⟨{}⟩

def merge (a b : Coverage) : Coverage where
  handlers := a.handlers.merge b.handlers
  modifiedMethods := a.modifiedMethods.merge b.modifiedMethods

end Coverage

end ScreenGraph
