import ScreenGraph.Screen.Avm
import ScreenGraph.Catalog.Basic
import ScreenGraph.Similarity.Score

/-!
Matching of the attribute valuations of two states, the observed one and the expected one. It goes
through phases, each of which sees only what the phases before it left over and settles all its
pairs before it registers any:

* equal valuations, by their hashes or in full, then valuations derived from one another;
* valuations bound to one identity, by the replacement table, that agree on whether they can be
  clicked and are checked;
* valuations bound to different widgets created at run time, whose scores the policy accepts. These
  pairs are one to one, the closest first, and enter the replacement table.
-/

namespace ScreenGraph

structure Matching where
  ofObserved : OrderedMap AvmId (OrderedSet AvmId) := ∅
  ofExpected : OrderedMap AvmId (OrderedSet AvmId) := ∅
  restObserved : OrderedSet AvmId := ∅
  restExpected : OrderedSet AvmId := ∅

namespace Matching

def start (observed expected : OrderedSet AvmId) : Matching :=
  { restObserved := observed, restExpected := expected }

def register (m : Matching) (pair : AvmId × AvmId) : Matching :=
  { m with
    ofObserved := m.ofObserved.addTo pair.1 pair.2
    ofExpected := m.ofExpected.addTo pair.2 pair.1 }

def registerAll (m : Matching) (pairs : List (AvmId × AvmId)) : Matching :=
  let m := pairs.foldl register m
  { m with
    restObserved := m.restObserved.eraseMany (pairs.map Prod.fst)
    restExpected := m.restExpected.eraseMany (pairs.map Prod.snd) }

def isComplete (m : Matching) : Bool := m.restObserved.isEmpty && m.restExpected.isEmpty

def image? (m : Matching) (expected : AvmId) : Option AvmId :=
  (m.ofExpected.get? expected).bind OrderedSet.first?

def ofPairs (pairs : List (AvmId × AvmId)) : Matching := pairs.foldl register {}

def restPairs (m : Matching) : List (AvmId × AvmId) :=
  m.restObserved.toList.flatMap fun o => m.restExpected.toList.map fun e => (o, e)

def phase (m : Matching) (test : AvmId → AvmId → Checked Bool) : Checked Matching :=
  return m.registerAll (← filterChecked (fun (o, e) => test o e) m.restPairs)

end Matching

namespace AvmStore

/-- Whether two valuations have one structural hash, or one set of attributes. -/
def areEqual (s : AvmStore) (o e : AvmId) : Checked Bool := do
  let a ← s.get o
  let b ← s.get e
  return a.hash == b.hash || a.attributes == b.attributes

def areDerived (s : AvmStore) (o e : AvmId) : Checked Bool := do
  let a ← s.attributes o
  let b ← s.attributes e
  return a.derivedFrom b

def areReplaced (s : AvmStore) (c : Catalog) (o e : AvmId) : Checked Bool := do
  match s.widgetOf o, s.widgetOf e with
  | some wo, some we => do
    let a ← s.attributes o
    let b ← s.attributes e
    return c.sameIdentity we wo && a.clickable == b.clickable && a.checked == b.checked
  | _, _ => return false

def scores (s : AvmStore) (o e : AvmId) : Checked (Score × Score) := do
  let a ← s.attributes o
  let b ← s.attributes e
  return (.ofResourceIds a.resourceId b.resourceId, .ofPaths a.path b.path)

end AvmStore

/-- A pair that the fuzzy phase accepts, with the widgets that it is bound to. -/
structure FuzzyPair where
  closeness : Int
  observed : AvmId
  expected : AvmId
  observedWidget : WidgetId
  expectedWidget : WidgetId
  deriving DecidableEq

namespace FuzzyPair

def ends (p : FuzzyPair) : AvmId × AvmId := (p.observed, p.expected)

/-- The closer pair comes first, then the lower observed and the lower expected handle. -/
def notAfter (p q : FuzzyPair) : Bool :=
  q.closeness < p.closeness ||
    p.closeness = q.closeness &&
      (p.observed.slot < q.observed.slot ||
        p.observed = q.observed && p.expected.slot ≤ q.expected.slot)

def sharesEnd (p q : FuzzyPair) : Bool := p.observed = q.observed || p.expected = q.expected

def select (pairs : List FuzzyPair) : List FuzzyPair :=
  pairs.foldl (fun taken p => if taken.any p.sharesEnd then taken else taken ++ [p]) []

end FuzzyPair

section

variable (s : AvmStore) (c : Catalog) (p : Policy)

def fuzzyPair? (o : AvmId) (wo : WidgetId) (e : AvmId) : Checked (Option FuzzyPair) := do
  match s.widgetOf e with
  | none => return none
  | some we =>
    if we = wo then return none
    if !(← c.widget we).runtimeCreated then return none
    let (rid, path) ← s.scores o e
    if !Score.accept [rid, path] p then return none
    return some ⟨orderRank (Score.mean [rid, path]), o, e, wo, we⟩

def fuzzyPairsOf (expected : List AvmId) (o : AvmId) : Checked (List FuzzyPair) := do
  match s.widgetOf o with
  | none => return []
  | some wo =>
    if !(← c.widget wo).runtimeCreated then return []
    filterMapChecked (fuzzyPair? s c p o wo) expected

def fuzzyPairs (m : Matching) : Checked (List FuzzyPair) := do
  let pairs ← flatMapChecked (fuzzyPairsOf s c p m.restExpected.toList) m.restObserved.toList
  return FuzzyPair.select (pairs.mergeSort FuzzyPair.notAfter)

/-- Records that the widget of each expected end was replaced by that of the observed end. -/
def Catalog.replaceAll (pairs : List FuzzyPair) : Catalog :=
  pairs.foldl (fun c p => c.replace p.expectedWidget p.observedWidget) c

def Matching.run (observed expected : OrderedSet AvmId) : Checked (Matching × Catalog) := do
  let m := Matching.start observed expected
  let m ← m.phase s.areEqual
  let m ← m.phase s.areDerived
  let m ← m.phase (s.areReplaced c)
  let pairs ← fuzzyPairs s c p m
  return (m.registerAll (pairs.map FuzzyPair.ends), c.replaceAll pairs)

end

end ScreenGraph
