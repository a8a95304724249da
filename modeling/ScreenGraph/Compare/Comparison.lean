import ScreenGraph.Compare.Matching
import ScreenGraph.Model

namespace ScreenGraph

inductive Verdict
  | equivalent | notEquivalent | inconclusive
  deriving DecidableEq

inductive Rule
  | window | rotation | menu | keyboard
  | avmMatch | blankResourceId | disjointWidgets | runtimeWidgets
  deriving DecidableEq

namespace Rule

def all : List Rule :=
  [.window, .rotation, .menu, .keyboard,
   .avmMatch, .blankResourceId, .disjointWidgets, .runtimeWidgets]

def name : Rule → String
  | .window => "window"
  | .rotation => "rotation"
  | .menu => "menu"
  | .keyboard => "keyboard"
  | .avmMatch => "avm-match"
  | .blankResourceId => "blank-resource-id"
  | .disjointWidgets => "disjoint-widgets"
  | .runtimeWidgets => "runtime-widgets"

end Rule

structure Comparison where
  verdict : Verdict
  rule : Option Rule
  matching : Option Matching

namespace Comparison

def isEquivalent (c : Comparison) : Bool := c.verdict = .equivalent

def ruleName (c : Comparison) : String := (c.rule.map Rule.name).getD "default"

def accepted? (c : Comparison) : Option (Rule × Matching) :=
  match c.verdict, c.rule with
  | .equivalent, some r => some (r, c.matching.getD {})
  | _, _ => none

end Comparison

/-- A comparison under way: its two sides and what the matching has left over. -/
structure Trial where
  observed : State
  expected : State
  strict : Bool
  matching : Option Matching := none
  restObserved : OrderedSet AvmId := ∅
  restExpected : OrderedSet AvmId := ∅

namespace Verdict

def rejectUnless (same : Bool) : Verdict := if same then .inconclusive else .notEquivalent

def acceptIf (same : Bool) : Verdict := if same then .equivalent else .inconclusive

end Verdict

namespace Trial

def widgets? (m : Model) (rest : OrderedSet AvmId) : Option (List WidgetId) :=
  rest.toList.mapM m.avms.widgetOf

def identities (m : Model) (rest : OrderedSet AvmId) : List (Option WidgetId) :=
  rest.toList.map m.avms.widgetOf

/-- Not created at run time, or known among the run-time widgets of the other side. -/
def isExplained (c : Catalog) (others : OrderedSet WidgetId) (w : WidgetId) : Checked Bool := do
  if !(← c.widget w).runtimeCreated then return true
  return others.toList.any fun x => c.sameIdentity x w

def disjointWidgets (m : Model) (t : Trial) : Bool :=
  let expected := identities m t.restExpected
  (identities m t.restObserved).all fun w => decide (w ∉ expected)

def unknownRuntimeWidgets (m : Model) (t : Trial) : Checked Bool := do
  match widgets? m t.restObserved, widgets? m t.restExpected with
  | some observed, some expected => do
    let ofExpected ← m.catalog.runtimeWidgets t.expected.window t.expected.version
    let ofObserved ← m.catalog.runtimeWidgets t.observed.window t.observed.version
    if ← anyChecked (isExplained m.catalog ofExpected) observed then return false
    if ← anyChecked (isExplained m.catalog ofObserved) expected then return false
    return true
  | _, _ => return false

def hasRest (t : Trial) : Bool := !t.restObserved.isEmpty || !t.restExpected.isEmpty

end Trial

namespace Rule

/-- What a rule settles before it judges: the matching, or what of its rest is not blank. -/
def prepare (r : Rule) (m : Model) (t : Trial) : Checked (Model × Trial) := do
  match r with
  | .avmMatch =>
    let (matching, catalog) ← Matching.run m.avms m.catalog m.policy
      t.observed.comparableAvms t.expected.comparableAvms
    return ({ m with catalog }, { t with
      matching := some matching
      restObserved := matching.restObserved
      restExpected := matching.restExpected })
  | .blankResourceId =>
    let named (a : AvmId) : Checked Bool := return !(← m.avms.attributes a).hasBlankResourceId
    let restObserved ← t.restObserved.filterChecked named
    let restExpected ← t.restExpected.filterChecked named
    return (m, { t with restObserved, restExpected })
  | _ => return (m, t)

def judge (r : Rule) (m : Model) (t : Trial) : Checked Verdict := do
  match r with
  | .window => return .rejectUnless (← m.catalog.compatible t.observed.window t.expected.window)
  | .rotation => return .rejectUnless (t.observed.rotation = t.expected.rotation)
  | .menu => return .rejectUnless (t.observed.menuOpen == t.expected.menuOpen)
  | .keyboard => return .rejectUnless (t.observed.keyboardOpen == t.expected.keyboardOpen)
  | .avmMatch => return .acceptIf !t.hasRest
  | .blankResourceId => return .acceptIf !t.hasRest
  | .disjointWidgets =>
    return .acceptIf (!t.strict && m.policy.disjointWidgets && t.disjointWidgets m)
  | .runtimeWidgets => return .acceptIf (← t.unknownRuntimeWidgets m)

end Rule

def Trial.settle : List Rule → Model → Trial → Checked (Comparison × Model)
  | [], m, t => .ok (⟨.notEquivalent, none, t.matching⟩, m)
  | r :: rules, m, t => do
    let (m, t) ← r.prepare m t
    match ← r.judge m t with
    | .inconclusive => settle rules m t
    | verdict => return (⟨verdict, some r, t.matching⟩, m)

def Model.compare (m : Model) (observed expected : StateId) (strict : Bool) :
    Checked (Comparison × Model) := do
  let o ← m.graph.state observed
  let e ← m.graph.state expected
  Trial.settle Rule.all m { observed := o, expected := e, strict }

end ScreenGraph
