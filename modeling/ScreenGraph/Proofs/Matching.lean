import ScreenGraph.Proofs.Choosing
import ScreenGraph.Proofs.Consistency

namespace ScreenGraph

namespace OrderedMap

section

variable {κ α : Type} [DecidableEq κ]

def Relates (m : OrderedMap κ (OrderedSet α)) (k : κ) (a : α) : Prop :=
  ∃ s, m.get? k = some s ∧ a ∈ s

variable {m : OrderedMap κ (OrderedSet α)} {k k₂ : κ} {a a₂ : α}

theorem Relates.contains (h : m.Relates k a) : m.contains k = true := by
  obtain ⟨s, found, -⟩ := h
  exact contains_of_get? found

theorem relates_iff : m.Relates k a ↔ a ∈ ((m.get? k).map OrderedSet.toList).getD [] := by
  cases found : m.get? k <;> simp [Relates, found, OrderedSet.mem_def]

theorem Filled.contains_iff (h : m.Filled) : m.contains k = true ↔ ∃ a, m.Relates k a := by
  constructor
  · intro known
    obtain ⟨s, found⟩ := OrderedMap.contains_iff.1 known
    obtain ⟨a, mem⟩ := OrderedSet.exists_mem (Bool.eq_false_iff.1 (h k s found))
    exact ⟨a, s, found, mem⟩
  · rintro ⟨a, related⟩
    exact related.contains

variable [DecidableEq α]

theorem relates_addTo : (m.addTo k a).Relates k₂ a₂ ↔ m.Relates k₂ a₂ ∨ k = k₂ ∧ a₂ = a := by
  simp only [relates_iff, mem_addTo]

def addPairs (m : OrderedMap κ (OrderedSet α)) (pairs : List (κ × α)) :
    OrderedMap κ (OrderedSet α) :=
  pairs.foldl (fun m p => m.addTo p.1 p.2) m

theorem relates_addPairs {pairs : List (κ × α)} :
    (m.addPairs pairs).Relates k a ↔ m.Relates k a ∨ (k, a) ∈ pairs := by
  induction pairs generalizing m with
  | nil => simp [addPairs]
  | cons p r ih =>
    refine ih.trans ?_
    rw [relates_addTo, List.mem_cons, or_assoc, Prod.ext_iff]
    simp only [eq_comm]

theorem Filled.addPairs (h : m.Filled) (pairs : List (κ × α)) : (m.addPairs pairs).Filled := by
  induction pairs generalizing m with
  | nil => exact h
  | cons p r ih => exact ih (h.addTo p.1 p.2)

theorem Filled.contains_addPairs (h : m.Filled) {pairs : List (κ × α)} :
    (m.addPairs pairs).contains k = true ↔ m.contains k = true ∨ k ∈ pairs.map Prod.fst := by
  simp [(h.addPairs pairs).contains_iff, h.contains_iff, relates_addPairs, exists_or]

end

end OrderedMap

namespace Matching

/-- How one side of a matching sorts its set. An element has at least one partner or is left over,
and never both. -/
structure Sorts (all : OrderedSet AvmId) (partners : OrderedMap AvmId (OrderedSet AvmId))
    (rest : OrderedSet AvmId) : Prop where
  mem : ∀ a, a ∈ all ↔ partners.contains a = true ∨ a ∈ rest
  apart : ∀ a, ¬ (partners.contains a = true ∧ a ∈ rest)
  filled : partners.Filled

namespace Sorts

variable {all rest : OrderedSet AvmId} {partners : OrderedMap AvmId (OrderedSet AvmId)}

theorem start (all : OrderedSet AvmId) : Sorts all ∅ all where
  mem a := by simp [OrderedMap.contains]
  apart a := by simp [OrderedMap.contains]
  filled := nofun

theorem addPairs (h : Sorts all partners rest) {pairs : List (AvmId × AvmId)}
    (unmatched : ∀ p ∈ pairs, p.1 ∈ rest) :
    Sorts all (partners.addPairs pairs) (rest.eraseMany (pairs.map Prod.fst)) where
  mem a := by
    have taken : a ∈ pairs.map Prod.fst → a ∈ rest := by
      intro first
      obtain ⟨p, mem, rfl⟩ := List.mem_map.1 first
      exact unmatched p mem
    rw [h.mem a, h.filled.contains_addPairs, OrderedSet.mem_eraseMany]
    by_cases first : a ∈ pairs.map Prod.fst
    · simp [first, taken first]
    · simp [first]
  apart a := by
    rw [h.filled.contains_addPairs, OrderedSet.mem_eraseMany]
    rintro ⟨matched | taken, left, free⟩
    · exact h.apart a ⟨matched, left⟩
    · exact free taken
  filled := h.filled.addPairs pairs

theorem size_eq (h : Sorts all partners rest) : partners.size + rest.size = all.size := by
  have disjoint : ∀ a ∈ partners.keys, ∀ b ∈ rest.toList, a ≠ b := by
    rintro a matched b left rfl
    exact h.apart a ⟨OrderedMap.mem_keys_iff.1 matched, left⟩
  have nodup : (partners.keys ++ rest.toList).Nodup :=
    List.nodup_append.2 ⟨partners.nodup, rest.nodup, disjoint⟩
  have perm : (partners.keys ++ rest.toList).Perm all.toList := by
    refine (List.perm_ext_iff_of_nodup nodup all.nodup).2 fun a => ?_
    rw [List.mem_append, OrderedMap.mem_keys_iff]
    exact (h.mem a).symm
  rw [OrderedMap.size_eq, OrderedSet.size, OrderedSet.size, ← List.length_append]
  exact perm.length_eq

end Sorts

/-- A matching of two sets. Both are sorted, and what one side enters the other enters too. -/
structure Partitions (observed expected : OrderedSet AvmId) (m : Matching) : Prop where
  observed : Sorts observed m.ofObserved m.restObserved
  expected : Sorts expected m.ofExpected m.restExpected
  mirror : ∀ o e, m.ofObserved.Relates o e ↔ m.ofExpected.Relates e o

structure Within (observed expected : OrderedSet AvmId) (m : Matching) : Prop where
  restObserved : ∀ a, a ∈ m.restObserved → a ∈ observed
  restExpected : ∀ a, a ∈ m.restExpected → a ∈ expected
  partner : ∀ {e os}, m.ofExpected.get? e = some os → ∀ o, o ∈ os → o ∈ observed

variable {observed expected : OrderedSet AvmId} {m m' : Matching}

theorem foldl_register (m : Matching) (pairs : List (AvmId × AvmId)) :
    pairs.foldl register m =
      { m with
        ofObserved := m.ofObserved.addPairs pairs
        ofExpected := m.ofExpected.addPairs (pairs.map Prod.swap) } := by
  induction pairs generalizing m with
  | nil => rfl
  | cons p r ih => exact ih (m.register p)

variable {pairs : List (AvmId × AvmId)} {o e : AvmId}

theorem relates_registerAll :
    (m.registerAll pairs).ofObserved.Relates o e ↔ m.ofObserved.Relates o e ∨ (o, e) ∈ pairs := by
  simp only [registerAll, foldl_register, OrderedMap.relates_addPairs]

theorem relates_registerAll_expected :
    (m.registerAll pairs).ofExpected.Relates e o ↔ m.ofExpected.Relates e o ∨ (o, e) ∈ pairs := by
  have entered : (e, o) ∈ pairs.map Prod.swap ↔ (o, e) ∈ pairs := by
    constructor
    · intro mem
      obtain ⟨p, hp, ⟨⟩⟩ := List.mem_map.1 mem
      exact hp
    · exact List.mem_map_of_mem
  simp only [registerAll, foldl_register, OrderedMap.relates_addPairs, entered]

theorem mem_restPairs {p : AvmId × AvmId} :
    p ∈ m.restPairs ↔ p.1 ∈ m.restObserved ∧ p.2 ∈ m.restExpected := by
  obtain ⟨o, e⟩ := p
  simp [restPairs, OrderedSet.mem_def]

namespace Partitions

theorem start (observed expected : OrderedSet AvmId) :
    (Matching.start observed expected).Partitions observed expected where
  observed := .start observed
  expected := .start expected
  mirror o e := by simp [Matching.start, OrderedMap.Relates]

theorem registerAll (h : m.Partitions observed expected) (mem : ∀ p ∈ pairs, p ∈ m.restPairs) :
    (m.registerAll pairs).Partitions observed expected where
  observed := by
    simp only [Matching.registerAll, foldl_register]
    exact h.observed.addPairs fun p hp => (mem_restPairs.1 (mem p hp)).1
  expected := by
    have swapped : (pairs.map Prod.swap).map Prod.fst = pairs.map Prod.snd := by simp
    simp only [Matching.registerAll, foldl_register]
    rw [← swapped]
    refine h.expected.addPairs fun q hq => ?_
    obtain ⟨p, hp, rfl⟩ := List.mem_map.1 hq
    exact (mem_restPairs.1 (mem p hp)).2
  mirror o e := by rw [relates_registerAll, relates_registerAll_expected, h.mirror]

theorem phase (h : m.Partitions observed expected) {test : AvmId → AvmId → Checked Bool}
    (ok : m.phase test = .ok m') : m'.Partitions observed expected := by
  obtain ⟨pairs, passed, done⟩ := Checked.bind_eq_ok.1 ok
  cases done
  exact h.registerAll fun p hp => ((mem_filterChecked passed).1 hp).1

theorem phase_succeeds (h : m.Partitions observed expected)
    {test : AvmId → AvmId → Checked Bool}
    (goes : ∀ o e, o ∈ observed → e ∈ expected → Succeeds (test o e)) :
    Succeeds (m.phase test) := by
  refine Succeeds.bind ?_ fun _ _ => succeeds_pure _
  refine filterChecked_succeeds fun p hp => ?_
  obtain ⟨ho, he⟩ := mem_restPairs.1 hp
  exact goes _ _ ((h.observed.mem _).2 (.inr ho)) ((h.expected.mem _).2 (.inr he))

theorem ends (h : m.Partitions observed expected) (pair : m.ofObserved.Relates o e) :
    o ∈ observed ∧ e ∈ expected :=
  ⟨(h.observed.mem o).2 (.inl pair.contains),
    (h.expected.mem e).2 (.inl ((h.mirror o e).1 pair).contains)⟩

theorem within (h : m.Partitions observed expected) : m.Within observed expected where
  restObserved a left := (h.observed.mem a).2 (.inr left)
  restExpected a left := (h.expected.mem a).2 (.inr left)
  partner found o mem := (h.ends ((h.mirror o _).2 ⟨_, found, mem⟩)).1

end Partitions

end Matching

section

variable {s : AvmStore} {c c' : Catalog} {p : Policy} {observed expected : OrderedSet AvmId}

def Matching.unscored (s : AvmStore) (c : Catalog) (observed expected : OrderedSet AvmId) :
    Checked Matching := do
  let m ← (Matching.start observed expected).phase s.areEqual
  let m ← m.phase s.areDerived
  m.phase (s.areReplaced c)

theorem Matching.run_eq_ok_iff {m : Matching} :
    Matching.run s c p observed expected = .ok (m, c') ↔ ∃ m₃ pairs,
      Matching.unscored s c observed expected = .ok m₃ ∧ fuzzyPairs s c p m₃ = .ok pairs ∧
        m = m₃.registerAll (pairs.map FuzzyPair.ends) ∧ c' = c.replaceAll pairs := by
  simp only [Matching.run, Matching.unscored, Checked.bind_eq_ok, pure_eq_ok, Prod.mk.injEq]
  constructor
  · rintro ⟨m₁, equal, m₂, derived, m₃, replaced, pairs, fuzzy, rfl, rfl⟩
    exact ⟨m₃, pairs, ⟨m₁, equal, m₂, derived, replaced⟩, fuzzy, rfl, rfl⟩
  · rintro ⟨m₃, pairs, ⟨m₁, equal, m₂, derived, replaced⟩, fuzzy, rfl, rfl⟩
    exact ⟨m₁, equal, m₂, derived, m₃, replaced, pairs, fuzzy, rfl, rfl⟩

theorem Matching.unscored_partitions {m : Matching}
    (ok : Matching.unscored s c observed expected = .ok m) : m.Partitions observed expected := by
  obtain ⟨m₁, equal, ok⟩ := Checked.bind_eq_ok.1 ok
  obtain ⟨m₂, derived, replaced⟩ := Checked.bind_eq_ok.1 ok
  exact (((Partitions.start observed expected).phase equal).phase derived).phase replaced

theorem Matching.run_partitions {m : Matching}
    (ok : Matching.run s c p observed expected = .ok (m, c')) : m.Partitions observed expected := by
  obtain ⟨m₃, pairs, certain, fuzzy, rfl, -⟩ := Matching.run_eq_ok_iff.1 ok
  refine (Matching.unscored_partitions certain).registerAll fun q hq => ?_
  obtain ⟨pair, hpair, rfl⟩ := List.mem_map.1 hq
  obtain ⟨ho, he, -⟩ := (((fuzzyPairs_eq_ok fuzzy).1 pair).1 hpair).1
  exact Matching.mem_restPairs.2 ⟨ho, he⟩

structure AvmStore.Readable (s : AvmStore) (c : Catalog) (a : AvmId) : Prop where
  live : s.avms.contains a = true
  bound : ∀ {w}, s.widgetOf a = some w → c.widgets.contains w = true

theorem AvmStore.readable_iff {a : AvmId} : s.Readable c a ↔
    s.avms.contains a = true ∧ (s.widgetOf a).all c.widgets.contains = true := by
  rw [Option.all_eq_true]
  exact ⟨fun h => ⟨h.live, fun _ => h.bound⟩, fun ⟨live, bound⟩ => ⟨live, bound _⟩⟩

theorem AvmStore.get_succeeds {a : AvmId} (live : s.avms.contains a = true) :
    Succeeds (s.get a) := by
  obtain ⟨v, hv⟩ := Arena.contains_iff.1 live
  exact ⟨v, Arena.get_eq_ok_iff.2 hv⟩

theorem AvmStore.attributes_succeeds {a : AvmId} (live : s.avms.contains a = true) :
    Succeeds (s.attributes a) :=
  (AvmStore.get_succeeds live).bind fun _ _ => succeeds_pure _

theorem AvmStore.areEqual_succeeds {o e : AvmId} (ho : s.avms.contains o = true)
    (he : s.avms.contains e = true) : Succeeds (s.areEqual o e) :=
  (AvmStore.get_succeeds ho).bind fun _ _ =>
    (AvmStore.get_succeeds he).bind fun _ _ => succeeds_pure _

theorem fuzzyPairs_succeeds {m : Matching} (ho : ∀ a, a ∈ m.restObserved → s.Readable c a)
    (he : ∀ a, a ∈ m.restExpected → s.Readable c a) : Succeeds (fuzzyPairs s c p m) := by
  refine fuzzyPairs_succeeds_iff.2 fun o mem wo hwo => ?_
  obtain ⟨w, hw⟩ := Arena.contains_iff.1 ((ho o mem).bound hwo)
  refine ⟨w, hw, fun _ e mem' => fuzzyPair?_succeeds_iff.2 fun we hwe _ => ?_⟩
  obtain ⟨v, hv⟩ := Arena.contains_iff.1 ((he e mem').bound hwe)
  refine ⟨v, hv, fun _ => (AvmStore.attributes_succeeds (ho o mem).live).bind fun _ _ => ?_⟩
  exact (AvmStore.attributes_succeeds (he e mem').live).bind fun _ _ => succeeds_pure _

theorem Matching.run_succeeds (ho : ∀ a, a ∈ observed → s.Readable c a)
    (he : ∀ a, a ∈ expected → s.Readable c a) :
    Succeeds (Matching.run s c p observed expected) := by
  have reads : ∀ (test : Attributes → Attributes → Bool) o e, o ∈ observed → e ∈ expected →
      Succeeds (do
        let a ← s.attributes o
        let b ← s.attributes e
        return test a b) := by
    intro test o e mo me
    refine (AvmStore.attributes_succeeds (ho o mo).live).bind fun _ _ => ?_
    exact (AvmStore.attributes_succeeds (he e me).live).bind fun _ _ => succeeds_pure _
  have sorted := Partitions.start observed expected
  have compares : ∀ o e, o ∈ observed → e ∈ expected → Succeeds (s.areEqual o e) :=
    fun o e mo me => AvmStore.areEqual_succeeds (ho o mo).live (he e me).live
  refine (sorted.phase_succeeds compares).bind fun m₁ equal => ?_
  have sorted := sorted.phase equal
  refine (sorted.phase_succeeds (reads fun a b => a.derivedFrom b)).bind fun m₂ derived => ?_
  have sorted := sorted.phase derived
  refine (sorted.phase_succeeds ?_).bind fun m₃ replaced => ?_
  · intro o e mo me
    unfold AvmStore.areReplaced
    split
    · exact reads _ o e mo me
    · exact succeeds_pure _
  have within := (sorted.phase replaced).within
  refine Succeeds.bind ?_ fun _ _ => succeeds_pure _
  exact fuzzyPairs_succeeds (fun a ha => ho a (within.restObserved a ha))
    fun a ha => he a (within.restExpected a ha)

variable (s c p observed expected)

/-- Matching loses no valuation and makes none up, and enters each pair on both sides. -/
theorem Matching.run_conserves (ho : ∀ a, a ∈ observed → s.Readable c a)
    (he : ∀ a, a ∈ expected → s.Readable c a) :
    ∃ m c', Matching.run s c p observed expected = .ok (m, c') ∧
      m.Partitions observed expected ∧
      (∀ o e, m.ofObserved.Relates o e → o ∈ observed ∧ e ∈ expected) ∧
      m.ofObserved.size + m.restObserved.size = observed.size ∧
      m.ofExpected.size + m.restExpected.size = expected.size := by
  obtain ⟨⟨m, c'⟩, run⟩ := Matching.run_succeeds (p := p) ho he
  have sorted := Matching.run_partitions run
  refine ⟨m, c', run, sorted, ?_, sorted.observed.size_eq, sorted.expected.size_eq⟩
  exact fun o e pair => sorted.ends pair

end

def Attributes.spelling (a : Attributes) : UInt64 :=
  a.resourceId.toList.foldl (fun n c => 31 * n + c.toNat.toUInt64) 0

def AvmStore.addAll (s : AvmStore) (avms : List (StateId × Attributes)) : AvmStore :=
  avms.foldl (fun s a => (s.add a.1 a.2).2) s

def AvmStore.buttons : AvmStore :=
  { addAll { signature := Attributes.spelling } [
      (⟨0⟩, { resourceId := "ok" }), (⟨1⟩, { resourceId := "ok" }),
      (⟨1⟩, { resourceId := "close" })] with
    bindings := .ofList [(⟨2⟩, ⟨0⟩)] }

def Catalog.closing : Catalog where
  widgets := (Arena.add ∅ { window := ⟨0⟩, resourceId := "close", version := .base }).2

theorem Matching.run_conserves_buttons : ∃ m c',
    Matching.run .buttons .closing {} (.ofList [⟨0⟩, ⟨1⟩]) (.ofList [⟨1⟩, ⟨2⟩]) = .ok (m, c') ∧
      m.ofObserved.size + m.restObserved.size = 2 ∧
      m.ofExpected.size + m.restExpected.size = 2 := by
  have free : ∀ a ∈ [⟨0⟩, ⟨1⟩], AvmStore.buttons.Readable .closing a := by
    simp only [List.forall_mem_cons]
    exact ⟨⟨rfl, nofun⟩, ⟨rfl, nofun⟩, nofun⟩
  have bound : AvmStore.buttons.Readable .closing ⟨2⟩ := ⟨rfl, by rintro w ⟨⟩; rfl⟩
  obtain ⟨m, c', run, -, -, sizes⟩ := Matching.run_conserves .buttons .closing {}
    (.ofList [⟨0⟩, ⟨1⟩]) (.ofList [⟨1⟩, ⟨2⟩]) (fun a mem => free a (OrderedSet.mem_ofList.1 mem))
    (by simpa using ⟨free ⟨1⟩ (by simp), bound⟩)
  exact ⟨m, c', run, sizes⟩

end ScreenGraph
