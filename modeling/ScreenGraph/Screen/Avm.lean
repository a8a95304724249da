import ScreenGraph.Store.Arena
import ScreenGraph.Store.OrderedMap
import ScreenGraph.Text.Basic

namespace ScreenGraph

inductive Rotation
  | portrait | landscape
  deriving DecidableEq

structure Rect where
  left : Int32 := 0
  top : Int32 := 0
  width : Int32 := 0
  height : Int32 := 0
  deriving DecidableEq

def Rect.isEmpty (r : Rect) : Bool := r.width ≤ 0 || r.height ≤ 0

structure Element where
  resourceId : String := ""
  className : String := ""
  text : String := ""
  path : String := ""
  bounds : Rect := {}
  visible : Bool := true
  enabled : Bool := true
  clickable : Bool := false
  longClickable : Bool := false
  checkable : Bool := false
  checked : Bool := false
  scrollable : Bool := false

structure Snapshot where
  windowClass : String
  elements : List Element
  rotation : Rotation := .portrait
  keyboardOpen : Bool := false
  menuOpen : Bool := false

namespace Snapshot

def visibleElements (g : Snapshot) : List Element := g.elements.filter Element.visible

def validate (g : Snapshot) : Except Refusal Unit :=
  if g.elements.isEmpty || Text.isBlankText g.windowClass then .error .emptySnapshot else .ok ()

end Snapshot

structure Attributes where
  resourceId : String := ""
  className : String := ""
  path : String := ""
  clickable : Bool := false
  longClickable : Bool := false
  checkable : Bool := false
  checked : Option Bool := none
  scrollable : Bool := false
  deriving DecidableEq, Hashable

namespace Attributes

def ofElement (w : Element) : Attributes where
  resourceId := w.resourceId
  className := w.className
  path := w.path
  clickable := w.clickable
  longClickable := w.longClickable
  checkable := w.checkable
  checked := if w.checkable then some w.checked else none
  scrollable := w.scrollable

def hasBlankResourceId (a : Attributes) : Bool := Text.isBlankText a.resourceId

def plainPath (a : Attributes) : List (List Char) := Text.plainSegments a.path.toList

def derivedFrom (a b : Attributes) : Bool :=
  a.resourceId == b.resourceId && a.className == b.className &&
    !a.plainPath.isEmpty && !b.plainPath.isEmpty &&
    if a.plainPath.length ≤ b.plainPath.length then a.plainPath.isPrefixOf b.plainPath
    else b.plainPath.isPrefixOf a.plainPath

end Attributes

structure Avm where
  state : StateId
  attributes : Attributes
  hash : UInt64

def Avm.isWebView (a : Avm) : Bool :=
  Text.occursIn "WebView".toList a.attributes.className.toList

structure AvmStore where
  avms : Arena .avm Avm := ∅
  bindings : OrderedMap AvmId WidgetId := ∅
  /-- The structural hash of a valuation. All that is known of it is that it is a function, and
  valuations that differ may collide. -/
  signature : Attributes → UInt64 := hash

namespace AvmStore

def size (s : AvmStore) : Nat := s.avms.size

def get (s : AvmStore) (id : AvmId) : Checked Avm := s.avms.get id

def attributes (s : AvmStore) (id : AvmId) : Checked Attributes := return (← s.get id).attributes

def add (s : AvmStore) (state : StateId) (attributes : Attributes) : AvmId × AvmStore :=
  let (id, avms) := s.avms.add { state, attributes, hash := s.signature attributes }
  (id, { s with avms })

def bind (s : AvmStore) (avm : AvmId) (widget : WidgetId) : Checked AvmStore :=
  if s.avms.contains avm then .ok { s with bindings := s.bindings.insert avm widget }
  else .error (.bindsUnknown avm)

def widgetOf (s : AvmStore) (avm : AvmId) : Option WidgetId := s.bindings.get? avm

end AvmStore

end ScreenGraph
