/-!
Handles of the entities of a model. Each kind of entity lives in its own arena, and a handle is
tagged with its kind, so that a state can never be taken for a transition. The printed index of a
handle counts from one: index zero names nothing.
-/

namespace ScreenGraph

inductive Entity
  | window | widget | input | avm | action | snapshot | state | transition
  deriving DecidableEq

def Entity.letter : Entity → String
  | .window => "W"
  | .widget => "w"
  | .input => "i"
  | .avm => "avm"
  | .action => "a"
  | .snapshot => "g"
  | .state => "S"
  | .transition => "T"

def Entity.handleName : Entity → String
  | .window => "WindowId"
  | .widget => "WidgetId"
  | .input => "InputId"
  | .avm => "AvmId"
  | .action => "ActionId"
  | .snapshot => "SnapshotId"
  | .state => "StateId"
  | .transition => "TransitionId"

/-- The position of a cell in the arena of its kind, counted from zero. -/
structure Handle (e : Entity) where
  slot : Nat
  deriving DecidableEq

abbrev WindowId := Handle .window
abbrev WidgetId := Handle .widget
abbrev InputId := Handle .input
abbrev AvmId := Handle .avm
abbrev ActionId := Handle .action
abbrev SnapshotId := Handle .snapshot
abbrev StateId := Handle .state
abbrev TransitionId := Handle .transition

namespace Handle

variable {e : Entity}

def index (h : Handle e) : Nat := h.slot + 1

def ofIndex? : Nat → Option (Handle e)
  | 0 => none
  | n + 1 => some ⟨n⟩

def label (h : Handle e) : String := e.letter ++ toString h.index

def fullName (h : Handle e) : String := e.handleName ++ "(" ++ toString h.index ++ ")"

@[ext] theorem ext {h k : Handle e} (same : h.slot = k.slot) : h = k := by
  cases h; cases k; simpa using same

theorem index_pos (h : Handle e) : 0 < h.index := Nat.succ_pos _

theorem ofIndex?_index (h : Handle e) : ofIndex? h.index = some h := rfl

theorem index_injective {h k : Handle e} (same : h.index = k.index) : h = k :=
  ext (Nat.succ.inj same)

end Handle

/-- The version of the program under exploration. What is known of the base version was recorded
before the run, and what is known of the running one is gathered in it. -/
inductive Version
  | base | running
  deriving DecidableEq

def Version.label : Version → String
  | .base => "BASE"
  | .running => "RUNNING"

end ScreenGraph
