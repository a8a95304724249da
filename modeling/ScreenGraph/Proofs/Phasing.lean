import ScreenGraph.Proofs.Matching

/-!
The pairs of a matching, phase by phase. What a phase enters is said by the two sets, the store and
the catalog alone, without a run: the pairs that pass its test and whose ends no phase before it has
given a partner. The fuzzy phase enters a greedy choice of its candidates, and there is only one.
-/

namespace ScreenGraph

namespace FuzzyPair

variable {p q r : FuzzyPair} {taken taken' : List FuzzyPair} {isOpen : FuzzyPair → Prop}

def Precedes (p q : FuzzyPair) : Prop :=
  q.closeness < p.closeness ∨ p.closeness = q.closeness ∧
    (p.observed.slot < q.observed.slot ∨
      p.observed = q.observed ∧ p.expected.slot < q.expected.slot)

theorem not_notAfter_iff : ¬ p.notAfter q = true ↔ q.Precedes p := by
  rw [notAfter_iff, Precedes, Handle.ext_iff]
  omega

/-- A one-to-one choice among the pairs that are open. One that it leaves out shares an end with one
that it takes and that precedes it. -/
structure Greedy (isOpen : FuzzyPair → Prop) (taken : List FuzzyPair) : Prop where
  chosen : ∀ q ∈ taken, isOpen q
  apart : ∀ q ∈ taken, ∀ r ∈ taken, q.observed = r.observed ∨ q.expected = r.expected → q = r
  barred : ∀ q, isOpen q → q ∉ taken →
    ∃ r ∈ taken, (r.observed = q.observed ∨ r.expected = q.expected) ∧ r.Precedes q

theorem IsChoice.greedy (h : IsChoice isOpen taken)
    (apart : ∀ q r, isOpen q → isOpen r → q.ends = r.ends → q = r) : Greedy isOpen taken where
  chosen q mem := ((h q).1 mem).1
  apart q hq r hr shares := by
    have shares := sharesEnd_iff.2 shares
    obtain ⟨openq, firstq⟩ := (h q).1 hq
    obtain ⟨openr, firstr⟩ := (h r).1 hr
    have before := firstr q hq shares
    have after := firstq r hr (by rwa [sharesEnd_comm])
    exact apart q r openq openr (ends_eq_of_notAfter after before)
  barred q isOpen out := by
    by_contra none
    refine out ((h q).2 ⟨isOpen, fun r hr shares => ?_⟩)
    by_contra after
    exact none ⟨r, hr, sharesEnd_iff.1 shares, not_notAfter_iff.1 after⟩

theorem Greedy.isChoice (h : Greedy isOpen taken) : IsChoice isOpen taken := by
  intro q
  constructor
  · intro mem
    refine ⟨h.chosen q mem, fun r hr shares => ?_⟩
    cases h.apart r hr q mem (sharesEnd_iff.1 shares)
    exact notAfter_refl q
  · rintro ⟨isOpen, first⟩
    by_contra out
    obtain ⟨r, hr, shares, precedes⟩ := h.barred q isOpen out
    exact not_notAfter_iff.2 precedes (first r hr (sharesEnd_iff.2 shares))

theorem Greedy.mem_of_alone (h : Greedy isOpen taken) (hq : isOpen q)
    (alone : ∀ r, isOpen r → r.observed = q.observed ∨ r.expected = q.expected → r = q) :
    q ∈ taken := by
  by_contra out
  obtain ⟨r, mem, shares, -⟩ := h.barred q hq out
  cases alone r (h.chosen r mem) shares
  exact out mem

theorem Greedy.unique (h : Greedy isOpen taken) (h' : Greedy isOpen taken') (q : FuzzyPair) :
    q ∈ taken ↔ q ∈ taken' :=
  h.isChoice.unique h'.isChoice q

end FuzzyPair

def AvmStore.Attributed (s : AvmStore) (r : Attributes → Attributes → Prop) (o e : AvmId) : Prop :=
  ∃ a b, s.attributes o = .ok a ∧ s.attributes e = .ok b ∧ r a b

def AvmStore.Alike (s : AvmStore) (o e : AvmId) : Prop :=
  ∃ a b, s.get o = .ok a ∧ s.get e = .ok b ∧ (a.hash = b.hash ∨ a.attributes = b.attributes)

/-- No two valuations of the two sides that differ have one hash. -/
def AvmStore.Distinguishes (s : AvmStore) (observed expected : OrderedSet AvmId) : Prop :=
  ∀ o ∈ observed, ∀ e ∈ expected, ∀ a ∈ s.avms.get? o, ∀ b ∈ s.avms.get? e,
    a.hash = b.hash → a.attributes = b.attributes

def AvmStore.Replaced (s : AvmStore) (c : Catalog) (o e : AvmId) : Prop :=
  ∃ wo we, s.widgetOf o = some wo ∧ s.widgetOf e = some we ∧ c.sameIdentity we wo = true ∧
    s.Attributed (fun a b => a.clickable = b.clickable ∧ a.checked = b.checked) o e

namespace AvmStore

variable {s : AvmStore} {c : Catalog} {o e : AvmId}

theorem attributed_iff {r : Attributes → Attributes → Prop} {test : Attributes → Attributes → Bool}
    (decides : ∀ a b, test a b = true ↔ r a b) :
    (do
      let a ← s.attributes o
      let b ← s.attributes e
      return test a b) = .ok true ↔ s.Attributed r o e := by
  simp only [Attributed, Checked.bind_eq_ok, pure_eq_ok, decides, exists_and_left]

theorem areEqual_iff : s.areEqual o e = .ok true ↔ s.Alike o e := by
  simp only [areEqual, Alike, Checked.bind_eq_ok, pure_eq_ok, Bool.or_eq_true, beq_iff_eq,
    exists_and_left]

theorem attributes_eq_ok {a : Attributes} :
    s.attributes o = .ok a ↔ ∃ v, s.get o = .ok v ∧ v.attributes = a := by
  simp only [attributes, Checked.bind_eq_ok, pure_eq_ok]

theorem Distinguishes.alike_iff {observed expected : OrderedSet AvmId}
    (distinct : s.Distinguishes observed expected) (ho : o ∈ observed) (he : e ∈ expected) :
    s.Alike o e ↔ s.Attributed (· = ·) o e := by
  constructor
  · rintro ⟨a, b, ha, hb, same⟩
    have same := same.elim
      (distinct o ho e he a (Arena.get_eq_ok_iff.1 ha) b (Arena.get_eq_ok_iff.1 hb)) id
    exact ⟨_, _, attributes_eq_ok.2 ⟨a, ha, rfl⟩, attributes_eq_ok.2 ⟨b, hb, rfl⟩, same⟩
  · rintro ⟨_, _, hx, hy, rfl⟩
    obtain ⟨a, ha, rfl⟩ := attributes_eq_ok.1 hx
    obtain ⟨b, hb, same⟩ := attributes_eq_ok.1 hy
    exact ⟨a, b, ha, hb, .inr same.symm⟩

theorem areDerived_iff :
    s.areDerived o e = .ok true ↔ s.Attributed (fun a b => a.derivedFrom b = true) o e :=
  attributed_iff fun _ _ => Iff.rfl

theorem areReplaced_iff : s.areReplaced c o e = .ok true ↔ s.Replaced c o e := by
  unfold areReplaced Replaced
  split
  · next wo we hwo hwe =>
    rw [attributed_iff (r := fun a b => c.sameIdentity we wo = true ∧ a.clickable = b.clickable ∧
      a.checked = b.checked) fun a b => by simp [and_assoc]]
    simp only [Attributed, hwo, hwe, Option.some.injEq]
    constructor
    · rintro ⟨a, b, ha, hb, same, flags⟩
      exact ⟨wo, we, rfl, rfl, same, a, b, ha, hb, flags⟩
    · rintro ⟨_, _, rfl, rfl, same, a, b, ha, hb, flags⟩
      exact ⟨a, b, ha, hb, same, flags⟩
  · next unbound =>
    refine iff_of_false (by simp) ?_
    rintro ⟨wo, we, hwo, hwe, -⟩
    exact unbound wo we hwo hwe

end AvmStore

theorem Score.isVeto_ofResourceIds {a b : String} :
    (ofResourceIds a b).isVeto = false ↔ Text.isBlankText a = Text.isBlankText b := by
  have blank : ∀ x : String, Text.isBlankText x = true ↔ Text.trim x.toList = [] :=
    fun _ => Text.trim_eq_nil_iff.symm
  rw [Bool.eq_iff_iff (a := Text.isBlankText a), blank, blank]
  unfold ofResourceIds
  cases Text.trim a.toList <;> cases Text.trim b.toList <;> simp [isVeto]

theorem FuzzyPair.IsCandidate.attributed {s : AvmStore} {c : Catalog} {p : Policy} {q : FuzzyPair}
    (h : q.IsCandidate s c p) : s.Attributed
      (fun a b => a.hasBlankResourceId = b.hasBlankResourceId) q.observed q.expected := by
  obtain ⟨rid, path, scored, accepted, -⟩ := h.close
  obtain ⟨a, ha, scored⟩ := Checked.bind_eq_ok.1 scored
  obtain ⟨b, hb, done⟩ := Checked.bind_eq_ok.1 scored
  cases done
  simp only [Score.accept, List.any_cons, Bool.and_eq_true, Bool.not_eq_true',
    Bool.or_eq_false_iff] at accepted
  exact ⟨a, b, ha, hb, Score.isVeto_ofResourceIds.1 accepted.1.1.1.1⟩

namespace Matching

structure Unpaired (observed expected : OrderedSet AvmId) (r : AvmId → AvmId → Prop)
    (o e : AvmId) : Prop where
  observed : o ∈ observed
  expected : e ∈ expected
  noExpected : ∀ e', ¬ r o e'
  noObserved : ∀ o', ¬ r o' e

section

variable {observed expected : OrderedSet AvmId} {m m' : Matching} {o e : AvmId}

theorem Unpaired.mono {r r' : AvmId → AvmId → Prop} (h : Unpaired observed expected r o e)
    (le : ∀ o e, r' o e → r o e) : Unpaired observed expected r' o e where
  observed := h.observed
  expected := h.expected
  noExpected e' related := h.noExpected e' (le o e' related)
  noObserved o' related := h.noObserved o' (le o' e related)

theorem Partitions.mem_restPairs_iff (h : m.Partitions observed expected) :
    (o, e) ∈ m.restPairs ↔ Unpaired observed expected m.ofObserved.Relates o e := by
  have left : o ∈ m.restObserved ↔ o ∈ observed ∧ ∀ e', ¬ m.ofObserved.Relates o e' := by
    rw [h.observed.mem, ← not_exists, ← h.observed.filled.contains_iff]
    have := h.observed.apart o
    tauto
  have right : e ∈ m.restExpected ↔ e ∈ expected ∧ ∀ o', ¬ m.ofObserved.Relates o' e := by
    simp only [h.mirror]
    rw [h.expected.mem, ← not_exists, ← h.expected.filled.contains_iff]
    have := h.expected.apart e
    tauto
  rw [mem_restPairs, left, right]
  constructor
  · rintro ⟨⟨ho, alone⟩, he, alone'⟩
    exact ⟨ho, he, alone, alone'⟩
  · rintro ⟨ho, he, alone, alone'⟩
    exact ⟨⟨ho, alone⟩, he, alone'⟩

theorem Partitions.relates_phase (h : m.Partitions observed expected)
    {test : AvmId → AvmId → Checked Bool} (ok : m.phase test = .ok m') :
    m'.ofObserved.Relates o e ↔ m.ofObserved.Relates o e ∨
      Unpaired observed expected m.ofObserved.Relates o e ∧ test o e = .ok true := by
  obtain ⟨pairs, passed, done⟩ := Checked.bind_eq_ok.1 ok
  cases done
  rw [relates_registerAll, mem_filterChecked passed, h.mem_restPairs_iff]

end

section

variable (s : AvmStore) (c : Catalog) (p : Policy) (observed expected : OrderedSet AvmId)

def EqualPair (o e : AvmId) : Prop := o ∈ observed ∧ e ∈ expected ∧ s.Alike o e

def DerivedPair (o e : AvmId) : Prop :=
  Unpaired observed expected (EqualPair s observed expected) o e ∧
    s.Attributed (fun a b => a.derivedFrom b = true) o e

def ReplacedPair (o e : AvmId) : Prop :=
  Unpaired observed expected
    (fun o e => EqualPair s observed expected o e ∨ DerivedPair s observed expected o e) o e ∧
    s.Replaced c o e

def FuzzyOpen (q : FuzzyPair) : Prop :=
  Unpaired observed expected
    (fun o e => EqualPair s observed expected o e ∨ DerivedPair s observed expected o e ∨
      ReplacedPair s c observed expected o e) q.observed q.expected ∧
    q.IsCandidate s c p

inductive Phase
  | equal | derived | replaced | fuzzy
  deriving DecidableEq

def Phase.rank : Phase → Nat
  | .equal => 0
  | .derived => 1
  | .replaced => 2
  | .fuzzy => 3

def Phase.Pairs (taken : List FuzzyPair) : Phase → AvmId → AvmId → Prop
  | .equal, o, e => EqualPair s observed expected o e
  | .derived, o, e => DerivedPair s observed expected o e
  | .replaced, o, e => ReplacedPair s c observed expected o e
  | .fuzzy, o, e => ∃ q ∈ taken, q.ends = (o, e)

/-- A matching that comes about phase by phase. All partners of a valuation come from one phase. -/
structure Phased (m : Matching) (taken : List FuzzyPair) : Prop where
  greedy : FuzzyPair.Greedy (FuzzyOpen s c p observed expected) taken
  ofObserved : ∀ o e, m.ofObserved.Relates o e ↔
    ∃ f : Phase, f.Pairs s c observed expected taken o e
  ofExpected : ∀ e o, m.ofExpected.Relates e o ↔
    ∃ f : Phase, f.Pairs s c observed expected taken o e
  observedOnce : ∀ {f f' : Phase} {o e e'}, f.Pairs s c observed expected taken o e →
    f'.Pairs s c observed expected taken o e' → f = f'
  expectedOnce : ∀ {f f' : Phase} {o o' e}, f.Pairs s c observed expected taken o e →
    f'.Pairs s c observed expected taken o' e → f = f'

end

variable {s : AvmStore} {c c' : Catalog} {p : Policy} {observed expected : OrderedSet AvmId}
  {m : Matching}

theorem equal_relates (ok : (start observed expected).phase s.areEqual = .ok m) :
    m.ofObserved.Relates = EqualPair s observed expected := by
  have none : ∀ o e, ¬ (start observed expected).ofObserved.Relates o e := by
    simp [start, OrderedMap.Relates]
  funext o e
  rw [(Partitions.start observed expected).relates_phase ok, AvmStore.areEqual_iff]
  refine propext ⟨?_, ?_⟩
  · rintro (old | ⟨⟨ho, he, -, -⟩, same⟩)
    · exact absurd old (none o e)
    · exact ⟨ho, he, same⟩
  · rintro ⟨ho, he, same⟩
    exact .inr ⟨⟨ho, he, none o, fun o' => none o' e⟩, same⟩

theorem unscored_relates (ok : unscored s c observed expected = .ok m) :
    m.ofObserved.Relates = fun o e => EqualPair s observed expected o e ∨
      DerivedPair s observed expected o e ∨ ReplacedPair s c observed expected o e := by
  obtain ⟨m₁, equal, ok⟩ := Checked.bind_eq_ok.1 ok
  obtain ⟨m₂, derived, replaced⟩ := Checked.bind_eq_ok.1 ok
  have sorted₁ := (Partitions.start observed expected).phase equal
  have sorted₂ := sorted₁.phase derived
  have second : m₂.ofObserved.Relates =
      fun o e => EqualPair s observed expected o e ∨ DerivedPair s observed expected o e := by
    funext o e
    rw [sorted₁.relates_phase derived, AvmStore.areDerived_iff, equal_relates equal]
    rfl
  funext o e
  rw [sorted₂.relates_phase replaced, AvmStore.areReplaced_iff, second, or_assoc]
  rfl

theorem Phase.Pairs.unpaired {taken : List FuzzyPair}
    (chosen : ∀ q ∈ taken, FuzzyOpen s c p observed expected q) {f f' : Phase} {o e : AvmId}
    (pair : f.Pairs s c observed expected taken o e) (before : f'.rank < f.rank) :
    Unpaired observed expected (f'.Pairs s c observed expected taken) o e := by
  cases f with
  | equal => exact absurd before (Nat.not_lt_zero _)
  | derived =>
    cases f' with
    | equal => exact pair.1
    | _ => exact absurd before (by decide)
  | replaced =>
    cases f' with
    | equal => exact pair.1.mono fun _ _ => .inl
    | derived => exact pair.1.mono fun _ _ => .inr
    | _ => exact absurd before (by decide)
  | fuzzy =>
    obtain ⟨q, mem, ⟨⟩⟩ := pair
    have free := (chosen q mem).1
    cases f' with
    | equal => exact free.mono fun _ _ => .inl
    | derived => exact free.mono fun _ _ h => .inr (.inl h)
    | replaced => exact free.mono fun _ _ h => .inr (.inr h)
    | fuzzy => exact absurd before (by decide)

theorem Phase.Pairs.not_before {taken : List FuzzyPair}
    (chosen : ∀ q ∈ taken, FuzzyOpen s c p observed expected q) {f f' : Phase} {o o' e e' : AvmId}
    (pair : f.Pairs s c observed expected taken o e)
    (pair' : f'.Pairs s c observed expected taken o' e') (shares : o = o' ∨ e = e') :
    ¬ f'.rank < f.rank := by
  intro before
  have free := pair.unpaired chosen before
  rcases shares with rfl | rfl
  · exact free.noExpected e' pair'
  · exact free.noObserved o' pair'

theorem Phase.Pairs.eq_of_share {taken : List FuzzyPair}
    (chosen : ∀ q ∈ taken, FuzzyOpen s c p observed expected q) {f f' : Phase} {o o' e e' : AvmId}
    (pair : f.Pairs s c observed expected taken o e)
    (pair' : f'.Pairs s c observed expected taken o' e') (shares : o = o' ∨ e = e') : f = f' := by
  have same : f.rank = f'.rank := Nat.le_antisymm
    (Nat.le_of_not_lt (pair.not_before chosen pair' shares))
    (Nat.le_of_not_lt (pair'.not_before chosen pair (shares.imp Eq.symm Eq.symm)))
  cases f <;> cases f' <;> first | rfl | cases same

theorem fuzzyOpen_iff {m₃ : Matching} (certain : unscored s c observed expected = .ok m₃)
    {q : FuzzyPair} : FuzzyOpen s c p observed expected q ↔ m₃.Offers s c p q := by
  rw [FuzzyOpen, ← unscored_relates certain, ← (unscored_partitions certain).mem_restPairs_iff,
    mem_restPairs, and_assoc]
  rfl

theorem fuzzyPairs_greedy {m₃ : Matching} {taken : List FuzzyPair}
    (certain : unscored s c observed expected = .ok m₃) (fuzzy : fuzzyPairs s c p m₃ = .ok taken) :
    FuzzyPair.Greedy (FuzzyOpen s c p observed expected) taken := by
  have chosen := (fuzzyPairs_eq_ok fuzzy).1.congr fun _ => (fuzzyOpen_iff certain).symm
  exact chosen.greedy fun q r openq openr same => openq.2.eq_of_ends openr.2 same

theorem phased {m₃ : Matching} {taken : List FuzzyPair}
    (certain : unscored s c observed expected = .ok m₃) (fuzzy : fuzzyPairs s c p m₃ = .ok taken) :
    Phased s c p observed expected (m₃.registerAll (taken.map FuzzyPair.ends)) taken := by
  have greedy := fuzzyPairs_greedy certain fuzzy
  have run : Matching.run s c p observed expected =
      .ok (m₃.registerAll (taken.map FuzzyPair.ends), c.replaceAll taken) :=
    run_eq_ok_iff.2 ⟨m₃, taken, certain, fuzzy, rfl, rfl⟩
  have ofObserved : ∀ o e, (m₃.registerAll (taken.map FuzzyPair.ends)).ofObserved.Relates o e ↔
      ∃ f : Phase, f.Pairs s c observed expected taken o e := by
    intro o e
    rw [relates_registerAll, unscored_relates certain, List.mem_map]
    constructor
    · rintro ((h | h | h) | h)
      · exact ⟨.equal, h⟩
      · exact ⟨.derived, h⟩
      · exact ⟨.replaced, h⟩
      · exact ⟨.fuzzy, h⟩
    · rintro ⟨_ | _ | _ | _, h⟩
      · exact .inl (.inl h)
      · exact .inl (.inr (.inl h))
      · exact .inl (.inr (.inr h))
      · exact .inr h
  refine ⟨greedy, ofObserved, ?_, ?_, ?_⟩
  · intro e o
    rw [← (run_partitions run).mirror]
    exact ofObserved o e
  · exact fun pair pair' => pair.eq_of_share greedy.chosen pair' (.inl rfl)
  · exact fun pair pair' => pair.eq_of_share greedy.chosen pair' (.inr rfl)

variable (s c p observed expected)

/-- Which pairs a matching consists of, and that no other choice of fuzzy pairs is greedy. As hashes
do not collide, the equal pairs are those with equal attributes. -/
theorem run_phased (distinct : s.Distinguishes observed expected) :
    (∀ o e, EqualPair s observed expected o e ↔
      o ∈ observed ∧ e ∈ expected ∧ s.Attributed (· = ·) o e) ∧
    (∀ m c', Matching.run s c p observed expected = .ok (m, c') → ∃ taken,
      Phased s c p observed expected m taken ∧
      (∀ q ∈ taken, s.Attributed (fun a b => a.hasBlankResourceId = b.hasBlankResourceId)
        q.observed q.expected) ∧
      ∀ taken', FuzzyPair.Greedy (FuzzyOpen s c p observed expected) taken' →
        ∀ q, q ∈ taken' ↔ q ∈ taken) ∧
    ((∀ a, a ∈ observed → s.Readable c a) → (∀ a, a ∈ expected → s.Readable c a) →
      Succeeds (Matching.run s c p observed expected)) := by
  refine ⟨fun o e => ?_, fun m c' run => ?_, fun ho he => run_succeeds ho he⟩
  · constructor
    · exact fun ⟨ho, he, alike⟩ => ⟨ho, he, (distinct.alike_iff ho he).1 alike⟩
    · exact fun ⟨ho, he, same⟩ => ⟨ho, he, (distinct.alike_iff ho he).2 same⟩
  obtain ⟨m₃, taken, certain, fuzzy, rfl, -⟩ := run_eq_ok_iff.1 run
  have phased := Matching.phased certain fuzzy
  refine ⟨taken, phased, ?_, ?_⟩
  · exact fun q mem => (phased.greedy.chosen q mem).2.attributed
  · exact fun taken' greedy => greedy.unique phased.greedy

end Matching

def AvmStore.renamed : AvmStore :=
  { addAll { signature := Attributes.spelling } [(⟨0⟩, { resourceId := "row", path := "/list/a" }),
      (⟨0⟩, { resourceId := "cell", path := "/grid/b" }),
      (⟨1⟩, { resourceId := "cell_", path := "/grid/b" }),
      (⟨1⟩, { resourceId := "row_", path := "/list/a" }), (⟨1⟩, { resourceId := "ok" })] with
    bindings := .ofList [(⟨0⟩, ⟨0⟩), (⟨1⟩, ⟨0⟩), (⟨2⟩, ⟨1⟩), (⟨3⟩, ⟨2⟩)] }

def Catalog.renaming : Catalog where
  widgets := (((Arena.add ∅
    { window := ⟨0⟩, resourceId := "item", version := .base, runtimeCreated := true }).2.add
    { window := ⟨0⟩, resourceId := "cell_", version := .running, runtimeCreated := true }).2.add
    { window := ⟨0⟩, resourceId := "row_", version := .running, runtimeCreated := true }).2

namespace FuzzyPair

def ofCells : FuzzyPair where
  closeness :=
    orderRank (Score.mean [.ofResourceIds "cell_" "cell", .ofPaths "/grid/b" "/grid/b"])
  observed := ⟨2⟩
  expected := ⟨1⟩
  observedWidget := ⟨1⟩
  expectedWidget := ⟨0⟩

def ofRows : FuzzyPair where
  closeness := orderRank (Score.mean [.ofResourceIds "row_" "row", .ofPaths "/list/a" "/list/a"])
  observed := ⟨3⟩
  expected := ⟨0⟩
  observedWidget := ⟨2⟩
  expectedWidget := ⟨0⟩

end FuzzyPair

namespace Matching

def newSide : OrderedSet AvmId := .ofList [⟨2⟩, ⟨3⟩, ⟨4⟩]

def oldSide : OrderedSet AvmId := .ofList [⟨0⟩, ⟨1⟩, ⟨4⟩]

theorem fuzzyOpen_renamed (q : FuzzyPair) :
    FuzzyOpen .renamed .renaming {} newSide oldSide q ↔ q = .ofCells ∨ q = .ofRows := by
  have scored : (Matching.unscored .renamed .renaming newSide oldSide >>= fun m => flatMapChecked
      (fuzzyPairsOf .renamed .renaming {} m.restExpected.toList) m.restObserved.toList).toOption =
      some [.ofCells, .ofRows] := by decide +kernel
  obtain ⟨m₃, certain, found⟩ := Checked.bind_eq_ok.1 (toOption_eq_some.1 scored)
  simp [fuzzyOpen_iff certain, offers_iff found]

theorem greedy_renamed {taken : List FuzzyPair}
    (greedy : FuzzyPair.Greedy (FuzzyOpen .renamed .renaming {} newSide oldSide) taken)
    (q : FuzzyPair) : q ∈ taken ↔ q = .ofCells ∨ q = .ofRows := by
  rw [← fuzzyOpen_renamed]
  refine ⟨greedy.chosen q, fun isOpen => greedy.mem_of_alone isOpen fun r isOpen' shares => ?_⟩
  rw [fuzzyOpen_renamed] at isOpen isOpen'
  rcases isOpen with rfl | rfl <;> rcases isOpen' with same | same
  · exact same
  · exact absurd (same ▸ shares) (by decide)
  · exact absurd (same ▸ shares) (by decide)
  · exact same

theorem readable_renamed : (∀ a, a ∈ newSide → AvmStore.renamed.Readable .renaming a) ∧
    ∀ a, a ∈ oldSide → AvmStore.renamed.Readable .renaming a := by
  simp only [newSide, oldSide, OrderedSet.mem_ofList, AvmStore.readable_iff]
  decide

theorem distinguishes_renamed : AvmStore.renamed.Distinguishes newSide oldSide := by
  simp only [AvmStore.Distinguishes, newSide, oldSide, OrderedSet.mem_ofList]
  decide

theorem run_phased_renamed : ∃ m c',
    Matching.run .renamed .renaming {} newSide oldSide = .ok (m, c') ∧
      m.ofObserved.Relates ⟨4⟩ ⟨4⟩ ∧ m.ofObserved.Relates ⟨2⟩ ⟨1⟩ ∧
        m.ofObserved.Relates ⟨3⟩ ⟨0⟩ := by
  obtain ⟨-, phases, succeeds⟩ := run_phased .renamed .renaming {} newSide oldSide
    distinguishes_renamed
  obtain ⟨⟨m, c'⟩, run⟩ := succeeds readable_renamed.1 readable_renamed.2
  obtain ⟨taken, phased, -⟩ := phases m c' run
  have takes := greedy_renamed phased.greedy
  refine ⟨m, c', run, ?_, ?_, ?_⟩
  · exact (phased.ofObserved _ _).2 ⟨.equal, by decide, by decide, _, _, rfl, rfl, .inr rfl⟩
  · exact (phased.ofObserved _ _).2 ⟨.fuzzy, .ofCells, (takes _).2 (.inl rfl), rfl⟩
  · exact (phased.ofObserved _ _).2 ⟨.fuzzy, .ofRows, (takes _).2 (.inr rfl), rfl⟩

end Matching

end ScreenGraph
