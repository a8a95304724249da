import ScreenGraph.Store.Handle

namespace ScreenGraph

inductive Fault
  | reservedIndex
  | vacant {e : Entity} (handle : Handle e)
  | ownsTransitions
  | noSource (state : StateId)
  | noDestination (state : StateId)
  | notAtSource (edge : TransitionId) (source : StateId)
  | noActivation (edge : TransitionId)
  | noCoverage (edge : TransitionId)
  | activationOverflow (edge : TransitionId)
  | danglingSource (edge : TransitionId)
  | danglingDestination (edge : TransitionId)
  | unregistered (edge : TransitionId)
  | listsMissing (state : StateId) (edge : TransitionId)
  | wrongSource (edge : TransitionId)
  | staleActivation
  | staleCoverage
  | bindsUnknown (avm : AvmId)
  | avmOutsideGraph (state : StateId)
  | foreignWidget (widget : WidgetId) (window : WindowId)
  | foreignTarget (avm : AvmId) (window : WindowId)
  deriving DecidableEq

def Fault.message : Fault → String
  | .reservedIndex => "Index 0 is reserved"
  | .vacant h => "Index " ++ h.fullName ++ " is not occupied"
  | .ownsTransitions => "New state must not own transitions"
  | .noSource s => "Source " ++ s.label ++ " is not in the graph"
  | .noDestination s => "Destination " ++ s.label ++ " is not in the graph"
  | .notAtSource t s => "Edge " ++ t.label ++ " missing from its source " ++ s.label
  | .noActivation t => "Edge " ++ t.label ++ " has no activation entry"
  | .noCoverage t => "Edge " ++ t.label ++ " has no coverage entry"
  | .activationOverflow _ => "attempt to add with overflow"
  | .danglingSource t => "Edge " ++ t.label ++ " has dangling source"
  | .danglingDestination t => "Edge " ++ t.label ++ " has dangling destination"
  | .unregistered t => "Edge " ++ t.label ++ " is not registered at its source"
  | .listsMissing s t => "State " ++ s.label ++ " lists missing edge " ++ t.label
  | .wrongSource t => "Edge " ++ t.label ++ " listed at wrong source"
  | .staleActivation => "Stale activation entries"
  | .staleCoverage => "Stale coverage entries"
  | .bindsUnknown a => "Binding unknown " ++ a.label
  | .avmOutsideGraph s => "AVM for unknown state " ++ s.label
  | .foreignWidget w win => "Widget " ++ w.label ++ " does not belong to window " ++ win.label
  | .foreignTarget a win => "Action target " ++ a.label ++ " is not on window " ++ win.label

/-- The result of an operation that a broken contract can end. -/
abbrev Checked (α : Type) := Except Fault α

def Handle.ofIndex {e : Entity} (n : Nat) : Checked (Handle e) :=
  match Handle.ofIndex? n with
  | some h => .ok h
  | none => .error .reservedIndex

inductive Refusal
  | emptySnapshot
  | unknownState (state : StateId)
  | unknownTransition (edge : TransitionId)
  | unknownSnapshot (snapshot : SnapshotId)
  | writeFailed (reason : String)
  deriving DecidableEq

namespace Refusal

def message : Refusal → String
  | .emptySnapshot => "Snapshot has no widgets"
  | .unknownState s => "Unknown abstract state " ++ s.label
  | .unknownTransition t => "Unknown abstract transition " ++ t.label
  | .unknownSnapshot g => "Unknown snapshot " ++ g.label
  | .writeFailed reason => "I/O error: " ++ reason

def reason? : Refusal → Option String
  | .writeFailed reason => some reason
  | _ => none

end Refusal

end ScreenGraph
