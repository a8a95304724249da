import ScreenGraph.Action.Basic
import ScreenGraph.Screen.Avm
import ScreenGraph.Store.Checked

namespace ScreenGraph

inductive WindowKind
  | activity
  | dialog (owner : String)
  | optionsMenu | contextMenu
  | launcher
  | outOfApp
  deriving DecidableEq

structure Window where
  className : String
  identifier : String
  kind : WindowKind
  runtimeCreated : Bool := false
  version : Version
  widgets : OrderedSet WidgetId := ∅
  inputs : OrderedSet InputId := ∅
  bounds : OrderedMap Rotation Rect := ∅

namespace Window

def owner? (w : Window) : Option String :=
  match w.kind with
  | .dialog owner => some owner
  | _ => none

def isDialog (w : Window) : Bool := w.owner?.isSome

end Window

structure Widget where
  window : WindowId
  resourceId : String
  identifier : String := resourceId
  className : String := ""
  parent : Option WidgetId := none
  structurePath : String := ""
  runtimeCreated : Bool := false
  version : Version

structure Input where
  event : ActionType
  window : WindowId
  widget : Option WidgetId := none
  data : String := ""
  version : Version
  handlers : OrderedSet String := ∅
  modifiedMethods : OrderedMap String Bool := ∅
  witnessed : Bool := false
  isTarget : Bool := false
  navigateBack : Bool := false

namespace Input

def cover (i : Input) (method : String) (covered : Bool) : Input :=
  { i with modifiedMethods := i.modifiedMethods.insert method covered }

def answers (i : Input) (event : ActionType) (data : String) (widget : Option WidgetId)
    (version : Version) : Bool :=
  i.version = version && i.event = event && i.data == data && i.widget = widget

end Input

structure Catalog where
  windows : Arena .window Window := ∅
  widgets : Arena .widget Widget := ∅
  inputs : Arena .input Input := ∅
  index : OrderedMap (String × String) WindowId := ∅
  replacements : OrderedMap WidgetId WidgetId := ∅
  changedMethods : OrderedSet String := ∅

namespace Catalog

/-- The window of this class and identifier, which is made at the first sight of it. -/
def openWindow (c : Catalog) (className identifier : String) (kind : WindowKind)
    (version : Version) : WindowId × Catalog :=
  match c.index.get? (className, identifier) with
  | some id => (id, c)
  | none =>
    let (id, windows) := c.windows.add { className, identifier, kind, version }
    (id, { c with windows, index := c.index.insert (className, identifier) id })

def window (c : Catalog) (id : WindowId) : Checked Window := c.windows.get id

def widget (c : Catalog) (id : WidgetId) : Checked Widget := c.widgets.get id

def input (c : Catalog) (id : InputId) : Checked Input := c.inputs.get id

def addWidget (c : Catalog) (w : Widget) : Checked (WidgetId × Catalog) := do
  let (id, widgets) := c.widgets.add w
  let windows ← c.windows.update w.window fun win => { win with widgets := win.widgets.insert id }
  return (id, { c with widgets, windows })

def addInput (c : Catalog) (i : Input) : Checked (InputId × Catalog) := do
  let (id, inputs) := c.inputs.add i
  let windows ← c.windows.update i.window fun win => { win with inputs := win.inputs.insert id }
  return (id, { c with inputs, windows })

def updateInput (c : Catalog) (id : InputId) (f : Input → Input) : Checked Catalog :=
  return { c with inputs := ← c.inputs.update id f }

def inputsOf (c : Catalog) (window : WindowId) (version : Version) : Checked (List InputId) := do
  filterChecked (fun i => return (← c.input i).version = version) (← c.window window).inputs.toList

def findInput (c : Catalog) (window : WindowId) (event : ActionType) (data : String)
    (widget : Option WidgetId) (version : Version) : Checked (Option InputId) := do
  findChecked (fun i => return (← c.input i).answers event data widget version)
    (← c.window window).inputs.toList

def runtimeWidgets (c : Catalog) (window : WindowId) (version : Version) :
    Checked (OrderedSet WidgetId) := do
  let widgets ← filterChecked
    (fun id => do
      let w ← c.widget id
      return w.runtimeCreated && w.version = version)
    (← c.window window).widgets.toList
  return .ofList widgets

/-- Two windows can show equivalent states if they are one window, or dialogs of one activity. -/
def compatible (c : Catalog) (a b : WindowId) : Checked Bool := do
  if a = b then return true
  let wa ← c.window a
  let wb ← c.window b
  match wa.owner?, wb.owner? with
  | some x, some y => return x == y
  | _, _ => return false

def replace (c : Catalog) (base updated : WidgetId) : Catalog :=
  { c with replacements := c.replacements.insert base updated }

def replacementOf (c : Catalog) (base : WidgetId) : Option WidgetId := c.replacements.get? base

/-- Two widgets are one identity if they are equal or one of them replaces the other. -/
def sameIdentity (c : Catalog) (a b : WidgetId) : Bool :=
  a = b || c.replacementOf a = some b || c.replacementOf b = some a

def markChanged (c : Catalog) (method : String) : Catalog :=
  { c with changedMethods := c.changedMethods.insert method }

def isChanged (c : Catalog) (method : String) : Bool := decide (method ∈ c.changedMethods)

theorem sameIdentity_comm (c : Catalog) (a b : WidgetId) :
    c.sameIdentity a b = c.sameIdentity b a := by
  simp only [sameIdentity, eq_comm (a := a), Bool.or_assoc]
  congr 1
  exact Bool.or_comm _ _

theorem replacementOf_replace (c : Catalog) (base updated w : WidgetId) :
    (c.replace base updated).replacementOf w =
      if base = w then some updated else c.replacementOf w :=
  OrderedMap.get?_insert ..

end Catalog

end ScreenGraph
