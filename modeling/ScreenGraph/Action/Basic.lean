import ScreenGraph.Store.Arena
import ScreenGraph.Store.OrderedMap
import ScreenGraph.Text.Printable

namespace ScreenGraph

inductive ActionType
  | click | longClick | itemClick | itemLongClick | swipe | textInsert
  | pressBack | pressMenu | pressHome | launchApp | resetApp
  | rotateUi | closeKeyboard | minimizeMaximize | wait | sendIntent
  deriving DecidableEq

namespace ActionType

def all : List ActionType :=
  [.click, .longClick, .itemClick, .itemLongClick, .swipe, .textInsert,
   .pressBack, .pressMenu, .pressHome, .launchApp, .resetApp,
   .rotateUi, .closeKeyboard, .minimizeMaximize, .wait, .sendIntent]

def name : ActionType → String
  | .click => "Click"
  | .longClick => "LongClick"
  | .itemClick => "ItemClick"
  | .itemLongClick => "ItemLongClick"
  | .swipe => "Swipe"
  | .textInsert => "TextInsert"
  | .pressBack => "PressBack"
  | .pressMenu => "PressMenu"
  | .pressHome => "PressHome"
  | .launchApp => "LaunchApp"
  | .resetApp => "ResetApp"
  | .rotateUi => "RotateUi"
  | .closeKeyboard => "CloseKeyboard"
  | .minimizeMaximize => "MinimizeMaximize"
  | .wait => "Wait"
  | .sendIntent => "SendIntent"

def ofName? (s : String) : Option ActionType := all.find? fun t => t.name == s

end ActionType

inductive Direction
  | up | down | left | right
  deriving DecidableEq

namespace Direction

def all : List Direction := [.up, .down, .left, .right]

def name : Direction → String
  | .up => "Up"
  | .down => "Down"
  | .left => "Left"
  | .right => "Right"

def ofName? (s : String) : Option Direction := all.find? fun d => d.name == s

end Direction

inductive ActionKind
  | click | longClick | itemClick | itemLongClick
  | swipe (direction : Direction)
  | textInsert (text : String)
  | pressBack | pressMenu | pressHome | launchApp | resetApp
  | rotateUi | closeKeyboard | minimizeMaximize | wait
  | sendIntent (intent : String)
  deriving DecidableEq

namespace ActionKind

def type : ActionKind → ActionType
  | .click => .click
  | .longClick => .longClick
  | .itemClick => .itemClick
  | .itemLongClick => .itemLongClick
  | .swipe _ => .swipe
  | .textInsert _ => .textInsert
  | .pressBack => .pressBack
  | .pressMenu => .pressMenu
  | .pressHome => .pressHome
  | .launchApp => .launchApp
  | .resetApp => .resetApp
  | .rotateUi => .rotateUi
  | .closeKeyboard => .closeKeyboard
  | .minimizeMaximize => .minimizeMaximize
  | .wait => .wait
  | .sendIntent _ => .sendIntent

def ofType? : ActionType → Option ActionKind
  | .click => some .click
  | .longClick => some .longClick
  | .itemClick => some .itemClick
  | .itemLongClick => some .itemLongClick
  | .pressBack => some .pressBack
  | .pressMenu => some .pressMenu
  | .pressHome => some .pressHome
  | .launchApp => some .launchApp
  | .resetApp => some .resetApp
  | .rotateUi => some .rotateUi
  | .closeKeyboard => some .closeKeyboard
  | .minimizeMaximize => some .minimizeMaximize
  | .wait => some .wait
  | .swipe | .textInsert | .sendIntent => none

def data : ActionKind → String
  | .textInsert text => text
  | .sendIntent intent => intent
  | _ => ""

def label : ActionKind → String
  | .swipe d => "Swipe(" ++ d.name ++ ")"
  | .textInsert text => "TextInsert(" ++ Text.quoted text ++ ")"
  | .sendIntent intent => "SendIntent(" ++ intent ++ ")"
  | k => k.type.name

end ActionKind

structure Action where
  kind : ActionKind
  target : Option AvmId := none
  deriving DecidableEq

namespace Action

def type (a : Action) : ActionType := a.kind.type

def isLaunchOrReset (a : Action) : Bool := a.kind = .launchApp || a.kind = .resetApp

def label (a : Action) : String :=
  match a.target with
  | some avm => a.kind.label ++ "@" ++ avm.label
  | none => a.kind.label

end Action

structure ActionEntry where
  action : Action
  navigateBack : Bool := false
  inputs : OrderedSet InputId := ∅

structure ActionTable where
  entries : Arena .action ActionEntry := ∅
  index : OrderedMap (WindowId × Action) ActionId := ∅

namespace ActionTable

def find? (t : ActionTable) (window : WindowId) (a : Action) : Option ActionId :=
  t.index.get? (window, a)

def intern (t : ActionTable) (window : WindowId) (a : Action) : ActionId × ActionTable :=
  match t.find? window a with
  | some id => (id, t)
  | none =>
    let (id, entries) := t.entries.add { action := a }
    (id, { entries, index := t.index.insert (window, a) id })

def action (t : ActionTable) (id : ActionId) : Checked Action := return (← t.entries.get id).action

def isNavigateBack (t : ActionTable) (id : ActionId) : Checked Bool :=
  return (← t.entries.get id).navigateBack

def inputsOf (t : ActionTable) (id : ActionId) : Checked (OrderedSet InputId) :=
  return (← t.entries.get id).inputs

def update (t : ActionTable) (id : ActionId) (f : ActionEntry → ActionEntry) :
    Checked ActionTable :=
  return { t with entries := ← t.entries.update id f }

def markNavigateBack (t : ActionTable) (id : ActionId) : Checked ActionTable :=
  t.update id fun e => { e with navigateBack := true }

def bindInput (t : ActionTable) (id : ActionId) (input : InputId) : Checked ActionTable :=
  t.update id fun e => { e with inputs := e.inputs.insert input }

end ActionTable

end ScreenGraph
