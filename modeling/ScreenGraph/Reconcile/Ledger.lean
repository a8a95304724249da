import ScreenGraph.Compare.Comparison

namespace ScreenGraph

structure Tally where
  pruned : Nat := 0
  copied : Nat := 0
  merged : Nat := 0
  migrated : Nat := 0
  unresolved : Nat := 0
  deriving DecidableEq

structure Ledger where
  /-- The base states that each recognised state is equivalent to. -/
  equivalents : OrderedMap StateId (OrderedSet StateId) := ∅
  /-- The recognised states that are equivalent to each base state. -/
  images : OrderedMap StateId (OrderedSet StateId) := ∅
  /-- The pruned base edges that an observed edge turned out to reproduce. -/
  reproduced : OrderedMap TransitionId (OrderedSet EdgeKey) := ∅
  snapshotBases : OrderedMap SnapshotId (OrderedSet StateId) := ∅
  observedBase : OrderedSet StateId := ∅
  newStates : OrderedSet StateId := ∅
  newSnapshots : OrderedSet SnapshotId := ∅
  /-- Pruned base edges that nothing reproduced. -/
  incorrect : OrderedSet EdgeKey := ∅
  /-- The input of the running version that each base input was merged into. -/
  inputImages : OrderedMap InputId InputId := ∅
  tally : Tally := {}

namespace Ledger

def equivalentsOf (l : Ledger) (s : StateId) : List StateId :=
  ((l.equivalents.get? s).map OrderedSet.toList).getD []

def imagesOf (l : Ledger) (base : StateId) : List StateId :=
  ((l.images.get? base).map OrderedSet.toList).getD []

def basesOf (l : Ledger) (g : SnapshotId) : List StateId :=
  ((l.snapshotBases.get? g).map OrderedSet.toList).getD []

def isRecognised (l : Ledger) (observed base : StateId) : Bool :=
  decide (base ∈ l.equivalentsOf observed)

def markSnapshot (l : Ledger) (g : SnapshotId) (base : StateId) : Ledger :=
  { l with snapshotBases := l.snapshotBases.addTo g base }

def recognise (l : Ledger) (observed base : StateId) : Ledger :=
  { l with
    equivalents := l.equivalents.addTo observed base
    images := l.images.addTo base observed }

def reproduce (l : Ledger) (t : TransitionId) (keys : List EdgeKey) : Ledger :=
  { l with reproduced := l.reproduced.update t fun old => (old.getD ∅).insertMany keys }

def markIncorrect (l : Ledger) (keys : List EdgeKey) : Ledger :=
  { l with incorrect := l.incorrect.insertMany keys }

def markObservedBase (l : Ledger) (s : StateId) : Ledger :=
  { l with observedBase := l.observedBase.insert s }

def markNewSnapshot (l : Ledger) (g : SnapshotId) : Ledger :=
  { l with newSnapshots := l.newSnapshots.insert g }

def markNew (l : Ledger) (s : StateId) (g : SnapshotId) : Ledger :=
  { l with newStates := l.newStates.insert s, newSnapshots := l.newSnapshots.insert g }

def addUnresolved (l : Ledger) (n : Nat) : Ledger :=
  { l with tally := { l.tally with unresolved := l.tally.unresolved + n } }

end Ledger

/-- A run of the exploration: the model and what has been recognised in it. -/
structure Session where
  model : Model := {}
  ledger : Ledger := {}

end ScreenGraph
