import ScreenGraph.Proofs.Matching

namespace ScreenGraph

namespace Matching

structure Same (m m' : Matching) : Prop where
  ofObserved : ∀ o e, m.ofObserved.Relates o e ↔ m'.ofObserved.Relates o e
  ofExpected : ∀ e o, m.ofExpected.Relates e o ↔ m'.ofExpected.Relates e o
  restObserved : ∀ a, a ∈ m.restObserved ↔ a ∈ m'.restObserved
  restExpected : ∀ a, a ∈ m.restExpected ↔ a ∈ m'.restExpected

/-- Runs that end alike: both in a fault, or in the same matching with one catalog. -/
inductive Alike : Checked (Matching × Catalog) → Checked (Matching × Catalog) → Prop
  | matched {m m' c} (same : Same m m') : Alike (.ok (m, c)) (.ok (m', c))
  | faulted {f f'} : Alike (.error f) (.error f')

variable {m m' m'' m₁ : Matching}

theorem Alike.of_ok {c : Catalog} {x : Checked (Matching × Catalog)} (h : Alike (.ok (m, c)) x) :
    ∃ m', x = .ok (m', c) ∧ m.Same m' := by
  cases h with
  | matched same => exact ⟨_, rfl, same⟩

namespace Same

theorem refl (m : Matching) : m.Same m where
  ofObserved _ _ := .rfl
  ofExpected _ _ := .rfl
  restObserved _ := .rfl
  restExpected _ := .rfl

theorem trans (h : m.Same m') (h' : m'.Same m'') : m.Same m'' where
  ofObserved o e := (h.ofObserved o e).trans (h'.ofObserved o e)
  ofExpected e o := (h.ofExpected e o).trans (h'.ofExpected e o)
  restObserved a := (h.restObserved a).trans (h'.restObserved a)
  restExpected a := (h.restExpected a).trans (h'.restExpected a)

theorem mem_restPairs (h : m.Same m') (p : AvmId × AvmId) : p ∈ m.restPairs ↔ p ∈ m'.restPairs := by
  rw [Matching.mem_restPairs, Matching.mem_restPairs, h.restObserved, h.restExpected]

theorem start {observed observed' expected expected' : OrderedSet AvmId}
    (ho : ∀ a, a ∈ observed ↔ a ∈ observed') (he : ∀ a, a ∈ expected ↔ a ∈ expected') :
    (Matching.start observed expected).Same (Matching.start observed' expected') where
  ofObserved _ _ := .rfl
  ofExpected _ _ := .rfl
  restObserved := ho
  restExpected := he

theorem registerAll (h : m.Same m') {pairs pairs' : List (AvmId × AvmId)}
    (same : ∀ p, p ∈ pairs ↔ p ∈ pairs') : (m.registerAll pairs).Same (m'.registerAll pairs') where
  ofObserved o e := by rw [relates_registerAll, relates_registerAll, h.ofObserved, same]
  ofExpected e o := by
    rw [relates_registerAll_expected, relates_registerAll_expected, h.ofExpected, same]
  restObserved a := by
    simp only [Matching.registerAll, foldl_register, OrderedSet.mem_eraseMany, h.restObserved,
      List.mem_map, same]
  restExpected a := by
    simp only [Matching.registerAll, foldl_register, OrderedSet.mem_eraseMany, h.restExpected,
      List.mem_map, same]

theorem phase (h : m.Same m') {test : AvmId → AvmId → Checked Bool} (ok : m.phase test = .ok m₁) :
    ∃ m₁', m'.phase test = .ok m₁' ∧ m₁.Same m₁' := by
  obtain ⟨pairs, passed, done⟩ := Checked.bind_eq_ok.1 ok
  cases done
  have goes : Succeeds (filterChecked (fun p => test p.1 p.2) m'.restPairs) := by
    refine filterChecked_succeeds fun p hp => ?_
    exact filterChecked_each passed ((h.mem_restPairs p).2 hp)
  obtain ⟨pairs', passed'⟩ := goes
  refine ⟨_, Checked.bind_eq_ok.2 ⟨pairs', passed', rfl⟩, h.registerAll fun p => ?_⟩
  rw [mem_filterChecked passed, mem_filterChecked passed', h.mem_restPairs]

theorem fuzzyPairs {s : AvmStore} {c : Catalog} {p : Policy} (h : m.Same m')
    {taken : List FuzzyPair} (ok : fuzzyPairs s c p m = .ok taken) :
    ScreenGraph.fuzzyPairs s c p m' = .ok taken := by
  have goes : Succeeds (ScreenGraph.fuzzyPairs s c p m') := by
    refine fuzzyPairs_succeeds_iff.2 fun o ho wo hwo => ?_
    obtain ⟨w, hw, goes⟩ := fuzzyPairs_succeeds_iff.1 ⟨taken, ok⟩ o ((h.restObserved o).2 ho) wo hwo
    exact ⟨w, hw, fun created e he => goes created e ((h.restExpected e).2 he)⟩
  obtain ⟨taken', ok'⟩ := goes
  obtain ⟨choice, nodup, sorted⟩ := fuzzyPairs_eq_ok ok
  obtain ⟨choice', nodup', sorted'⟩ := fuzzyPairs_eq_ok ok'
  have offers : ∀ q, m'.Offers s c p q ↔ m.Offers s c p q := by
    intro q
    rw [Offers, Offers, h.restObserved, h.restExpected]
  have perm : taken'.Perm taken :=
    (List.perm_ext_iff_of_nodup nodup' nodup).2 ((choice'.congr offers).unique choice)
  -- no two candidates have the same ends, so there is one way to list them from the closest on
  have listed : taken' = taken := by
    refine perm.eq_of_pairwise (fun q r hq hr before after => ?_) sorted' sorted
    have same := FuzzyPair.ends_eq_of_notAfter before after
    exact ((choice' q).1 hq).1.2.2.eq_of_ends ((choice r).1 hr).1.2.2 same
  rw [ok', listed]

end Same

section

variable {s : AvmStore} {c c' : Catalog} {p : Policy}
  {observed observed' expected expected' : OrderedSet AvmId}

theorem unscored_same (ho : ∀ a, a ∈ observed ↔ a ∈ observed')
    (he : ∀ a, a ∈ expected ↔ a ∈ expected') (ok : unscored s c observed expected = .ok m) :
    ∃ m', unscored s c observed' expected' = .ok m' ∧ m.Same m' := by
  obtain ⟨m₁, equal, ok⟩ := Checked.bind_eq_ok.1 ok
  obtain ⟨m₂, derived, replaced⟩ := Checked.bind_eq_ok.1 ok
  obtain ⟨m₁', equal', same⟩ := (Same.start ho he).phase equal
  obtain ⟨m₂', derived', same⟩ := same.phase derived
  obtain ⟨m₃', replaced', same⟩ := same.phase replaced
  refine ⟨m₃', ?_, same⟩
  exact Checked.bind_eq_ok.2 ⟨m₁', equal', Checked.bind_eq_ok.2 ⟨m₂', derived', replaced'⟩⟩

theorem run_same (ho : ∀ a, a ∈ observed ↔ a ∈ observed') (he : ∀ a, a ∈ expected ↔ a ∈ expected')
    (ok : run s c p observed expected = .ok (m, c')) :
    ∃ m', run s c p observed' expected' = .ok (m', c') ∧ m.Same m' := by
  obtain ⟨m₃, pairs, certain, fuzzy, rfl, rfl⟩ := run_eq_ok_iff.1 ok
  obtain ⟨m₃', certain', same⟩ := unscored_same ho he certain
  refine ⟨_, run_eq_ok_iff.2 ⟨m₃', pairs, certain', same.fuzzyPairs fuzzy, rfl, rfl⟩, ?_⟩
  exact same.registerAll fun _ => .rfl

variable (s c p)

/-- Two sets may be listed in any order. The runs end alike, and in a matching if the valuations and
the widgets that they are bound to are there. -/
theorem run_rearranged (ho : observed.toList.Perm observed'.toList)
    (he : expected.toList.Perm expected'.toList) :
    Alike (run s c p observed expected) (run s c p observed' expected') ∧
      ((∀ a, a ∈ observed → s.Readable c a) → (∀ a, a ∈ expected → s.Readable c a) →
        Succeeds (run s c p observed expected)) := by
  have ho : ∀ a, a ∈ observed ↔ a ∈ observed' := fun a => ho.mem_iff
  have he : ∀ a, a ∈ expected ↔ a ∈ expected' := fun a => he.mem_iff
  refine ⟨?_, run_succeeds⟩
  cases first : run s c p observed expected with
  | ok result =>
    obtain ⟨m', second, same⟩ := run_same ho he first
    rw [second]
    exact .matched same
  | error f =>
    cases second : run s c p observed' expected' with
    | ok result =>
      obtain ⟨m', again, -⟩ := run_same (fun a => (ho a).symm) (fun a => (he a).symm) second
      cases first.symm.trans again
    | error f' => exact .faulted

end

end Matching

theorem AvmStore.buttons_readable {a : AvmId} (mem : a ∈ [⟨0⟩, ⟨1⟩, ⟨2⟩]) :
    AvmStore.buttons.Readable .closing a := by
  simp only [List.mem_cons, List.not_mem_nil, or_false] at mem
  obtain rfl | rfl | rfl := mem
  · exact ⟨rfl, nofun⟩
  · exact ⟨rfl, nofun⟩
  · exact ⟨rfl, by rintro w ⟨⟩; rfl⟩

theorem Matching.run_rearranged_buttons : ∃ m m' c',
    Matching.run .buttons .closing {} (.ofList [⟨0⟩, ⟨1⟩]) (.ofList [⟨1⟩, ⟨2⟩]) = .ok (m, c') ∧
      Matching.run .buttons .closing {} (.ofList [⟨1⟩, ⟨0⟩]) (.ofList [⟨2⟩, ⟨1⟩]) = .ok (m', c') ∧
      m.Same m' := by
  have ho : (OrderedSet.ofList [⟨0⟩, ⟨1⟩] : OrderedSet AvmId).toList.Perm
      (OrderedSet.ofList [⟨1⟩, ⟨0⟩]).toList := .swap ..
  have he : (OrderedSet.ofList [⟨1⟩, ⟨2⟩] : OrderedSet AvmId).toList.Perm
      (OrderedSet.ofList [⟨2⟩, ⟨1⟩]).toList := .swap ..
  obtain ⟨alike, goes⟩ := Matching.run_rearranged .buttons .closing {} ho he
  obtain ⟨⟨m, c'⟩, first⟩ := goes
    (fun a mem => AvmStore.buttons_readable (List.mem_of_mem_take (i := 2) mem))
    (fun a mem => AvmStore.buttons_readable (List.mem_of_mem_tail mem))
  rw [first] at alike
  obtain ⟨m', second, same⟩ := alike.of_ok
  exact ⟨m, m', c', first, second, same⟩

end ScreenGraph
