import ScreenGraph.Proofs.Rearranging
import ScreenGraph.Proofs.Similarity

namespace ScreenGraph

namespace Attributes

theorem isPrefixOf_comm {x y : List (List Char)} (same : x.length = y.length) :
    x.isPrefixOf y = y.isPrefixOf x := by
  rw [Bool.eq_iff_iff, List.isPrefixOf_iff_prefix, List.isPrefixOf_iff_prefix]
  constructor
  · intro h
    cases h.eq_of_length same
    exact List.prefix_rfl
  · intro h
    cases h.eq_of_length same.symm
    exact List.prefix_rfl

theorem derivedFrom_comm (a b : Attributes) : a.derivedFrom b = b.derivedFrom a := by
  have nested : (if a.plainPath.length ≤ b.plainPath.length then a.plainPath.isPrefixOf b.plainPath
      else b.plainPath.isPrefixOf a.plainPath) =
      if b.plainPath.length ≤ a.plainPath.length then b.plainPath.isPrefixOf a.plainPath
      else a.plainPath.isPrefixOf b.plainPath := by
    rcases Nat.lt_trichotomy a.plainPath.length b.plainPath.length with lt | same | gt
    · rw [if_pos (by omega), if_neg (by omega)]
    · rw [if_pos (by omega), if_pos (by omega), isPrefixOf_comm same]
    · rw [if_neg (by omega), if_pos (by omega)]
  unfold derivedFrom
  rw [nested, BEq.comm (a := a.resourceId), BEq.comm (a := a.className)]
  simp only [Bool.and_assoc, Bool.and_left_comm (!a.plainPath.isEmpty)]

end Attributes

namespace AvmStore

variable {s : AvmStore} {c : Catalog} {o e : AvmId}

theorem read_swap {α : Type} {f g : Attributes → Attributes → α} (same : ∀ a b, f a b = g b a)
    {x : α} (ok : (do
      let a ← s.attributes o
      let b ← s.attributes e
      return f a b) = .ok x) :
    (do
      let a ← s.attributes e
      let b ← s.attributes o
      return g a b) = .ok x := by
  simp only [Checked.bind_eq_ok, pure_eq_ok] at ok ⊢
  obtain ⟨a, ha, b, hb, rfl⟩ := ok
  exact ⟨b, hb, a, ha, (same a b).symm⟩

theorem areEqual_swap {x : Bool} (ok : s.areEqual o e = .ok x) : s.areEqual e o = .ok x := by
  simp only [areEqual, Checked.bind_eq_ok, pure_eq_ok] at ok ⊢
  obtain ⟨a, ha, b, hb, rfl⟩ := ok
  refine ⟨b, hb, a, ha, ?_⟩
  rw [BEq.comm (a := a.hash), BEq.comm (a := a.attributes)]

theorem areDerived_swap {x : Bool} (ok : s.areDerived o e = .ok x) : s.areDerived e o = .ok x :=
  read_swap Attributes.derivedFrom_comm ok

theorem areReplaced_swap {x : Bool} (ok : s.areReplaced c o e = .ok x) :
    s.areReplaced c e o = .ok x := by
  unfold areReplaced at ok ⊢
  cases ho : s.widgetOf o with
  | none => cases he : s.widgetOf e <;> simpa [ho, he] using ok
  | some wo =>
    cases he : s.widgetOf e with
    | none => simpa [ho, he] using ok
    | some we =>
      rw [ho, he] at ok
      refine read_swap (fun a b => ?_) ok
      rw [c.sameIdentity_comm, BEq.comm (a := a.clickable), BEq.comm (a := a.checked)]

theorem scores_swap {x : Score × Score} (ok : s.scores o e = .ok x) : s.scores e o = .ok x :=
  read_swap (fun a b => by rw [Score.ofResourceIds_comm, Score.ofPaths_comm]) ok

end AvmStore

namespace FuzzyPair

variable {s : AvmStore} {c : Catalog} {p : Policy} {q r : FuzzyPair} {taken : List FuzzyPair}

def swap (q : FuzzyPair) : FuzzyPair where
  closeness := q.closeness
  observed := q.expected
  expected := q.observed
  observedWidget := q.expectedWidget
  expectedWidget := q.observedWidget

theorem sharesEnd_swap (q r : FuzzyPair) : q.swap.sharesEnd r = q.sharesEnd r.swap :=
  Bool.or_comm ..

theorem notAfter_swap (shares : q.sharesEnd r = true) :
    q.swap.notAfter r.swap = true ↔ q.notAfter r = true := by
  rw [notAfter_iff, notAfter_iff]
  rcases sharesEnd_iff.1 shares with same | same
  · have slots := congrArg Handle.slot same
    simp only [swap]
    omega
  · have slots := congrArg Handle.slot same
    simp only [swap]
    omega

theorem mem_map_swap : q ∈ taken.map swap ↔ q.swap ∈ taken := by
  constructor
  · intro mem
    obtain ⟨r, hr, rfl⟩ := List.mem_map.1 mem
    exact hr
  · exact fun mem => List.mem_map.2 ⟨q.swap, mem, rfl⟩

theorem IsCandidate.swap (h : q.IsCandidate s c p) : q.swap.IsCandidate s c p where
  observedBound := h.expectedBound
  expectedBound := h.observedBound
  differ := h.differ.symm
  observedRuntime := h.expectedRuntime
  expectedRuntime := h.observedRuntime
  close := by
    obtain ⟨rid, path, scored, accepted, closeness⟩ := h.close
    exact ⟨rid, path, AvmStore.scores_swap scored, accepted, closeness⟩

theorem IsChoice.swap {isOpen : FuzzyPair → Prop} (h : IsChoice isOpen taken) :
    IsChoice (fun q => isOpen q.swap) (taken.map FuzzyPair.swap) := by
  intro q
  rw [mem_map_swap, h q.swap]
  refine and_congr_right fun _ => ⟨fun first r mem shares => ?_, fun first r mem shares => ?_⟩
  · rw [← notAfter_swap (by rwa [sharesEnd_comm])]
    exact first r.swap (mem_map_swap.1 mem) (by rwa [sharesEnd_swap])
  · have shares' : r.swap.sharesEnd q = true := by rwa [sharesEnd_swap]
    have after := first r.swap (mem_map_swap.2 mem) shares'
    rwa [← notAfter_swap (by rwa [sharesEnd_comm])] at after

end FuzzyPair

namespace Matching

def transpose (m : Matching) : Matching where
  ofObserved := m.ofExpected
  ofExpected := m.ofObserved
  restObserved := m.restExpected
  restExpected := m.restObserved

variable {m m' m₁ : Matching}

theorem transpose_registerAll (m : Matching) (pairs : List (AvmId × AvmId)) :
    (m.registerAll pairs).transpose = m.transpose.registerAll (pairs.map Prod.swap) := by
  simp [registerAll, foldl_register, transpose, Function.comp_def]

theorem mem_restPairs_transpose (p : AvmId × AvmId) :
    p ∈ m.transpose.restPairs ↔ p.swap ∈ m.restPairs := by
  rw [mem_restPairs, mem_restPairs, and_comm]
  rfl

theorem phase_transpose {test test' : AvmId → AvmId → Checked Bool}
    (swap : ∀ {o e x}, test o e = .ok x → test' e o = .ok x) (ok : m.phase test = .ok m₁) :
    ∃ m₁', m.transpose.phase test' = .ok m₁' ∧ m₁.transpose.Same m₁' := by
  obtain ⟨pairs, passed, done⟩ := Checked.bind_eq_ok.1 ok
  cases done
  have tested : ∀ p ∈ m.transpose.restPairs, ∃ x, test p.2 p.1 = .ok x ∧ test' p.1 p.2 = .ok x := by
    intro p hp
    obtain ⟨x, hx⟩ := filterChecked_each passed ((mem_restPairs_transpose p).1 hp)
    exact ⟨x, hx, swap hx⟩
  have goes : Succeeds (filterChecked (fun p => test' p.1 p.2) m.transpose.restPairs) := by
    refine filterChecked_succeeds fun p hp => ?_
    obtain ⟨x, -, hx⟩ := tested p hp
    exact ⟨x, hx⟩
  obtain ⟨pairs', passed'⟩ := goes
  refine ⟨_, Checked.bind_eq_ok.2 ⟨pairs', passed', rfl⟩, ?_⟩
  rw [transpose_registerAll]
  refine (Same.refl _).registerAll fun p => ?_
  rw [mem_filterChecked passed', mem_restPairs_transpose]
  constructor
  · intro mem
    obtain ⟨q, hq, rfl⟩ := List.mem_map.1 mem
    obtain ⟨rest, pass⟩ := (mem_filterChecked passed).1 hq
    exact ⟨rest, swap pass⟩
  · rintro ⟨rest, pass⟩
    obtain ⟨x, hx, hx'⟩ := tested p ((mem_restPairs_transpose p).2 rest)
    cases pass.symm.trans hx'
    exact List.mem_map.2 ⟨p.swap, (mem_filterChecked passed).2 ⟨rest, hx⟩, rfl⟩

variable {s : AvmStore} {c c₁ c₂ : Catalog} {p : Policy} {observed expected : OrderedSet AvmId}
  {taken taken' : List FuzzyPair}

theorem unscored_transpose (ok : unscored s c observed expected = .ok m) :
    ∃ m', unscored s c expected observed = .ok m' ∧ m.transpose.Same m' := by
  obtain ⟨m₁, equal, ok⟩ := Checked.bind_eq_ok.1 ok
  obtain ⟨m₂, derived, replaced⟩ := Checked.bind_eq_ok.1 ok
  obtain ⟨n₁, equal', same₁⟩ := phase_transpose AvmStore.areEqual_swap equal
  obtain ⟨n₂, derived', same₂⟩ := phase_transpose AvmStore.areDerived_swap derived
  obtain ⟨n₂, derived', again₂⟩ := same₁.phase derived'
  obtain ⟨n₃, replaced', same₃⟩ := phase_transpose AvmStore.areReplaced_swap replaced
  obtain ⟨n₃, replaced', again₃⟩ := (same₂.trans again₂).phase replaced'
  refine ⟨n₃, ?_, same₃.trans again₃⟩
  exact Checked.bind_eq_ok.2 ⟨n₁, equal', Checked.bind_eq_ok.2 ⟨n₂, derived', replaced'⟩⟩

theorem offers_transpose (q : FuzzyPair) :
    m.transpose.Offers s c p q ↔ m.Offers s c p q.swap := by
  constructor
  · exact fun ⟨ho, he, candidate⟩ => ⟨he, ho, candidate.swap⟩
  · exact fun ⟨ho, he, candidate⟩ => ⟨he, ho, candidate.swap⟩

theorem Same.fuzzyPairs_swap (h : m.transpose.Same m')
    (ok : ScreenGraph.fuzzyPairs s c p m = .ok taken)
    (ok' : ScreenGraph.fuzzyPairs s c p m' = .ok taken') (q : FuzzyPair) :
    q ∈ taken.map FuzzyPair.swap ↔ q ∈ taken' := by
  have choice := (fuzzyPairs_eq_ok ok).1.swap
  refine choice.unique ((fuzzyPairs_eq_ok ok').1.congr fun q => ?_) q
  rw [← offers_transpose, Offers, Offers, h.restObserved, h.restExpected]

theorem Same.fuzzyPairs_succeeds (h : m.transpose.Same m')
    (goes : Succeeds (ScreenGraph.fuzzyPairs s c p m))
    (bound : ∀ e w, e ∈ m.restExpected → s.widgetOf e = some w → c.widgets.contains w = true) :
    Succeeds (ScreenGraph.fuzzyPairs s c p m') := by
  rw [fuzzyPairs_succeeds_iff] at goes ⊢
  intro e he we hwe
  have left : e ∈ m.restExpected := (h.restObserved e).2 he
  obtain ⟨w, hw⟩ := Arena.contains_iff.1 (bound e we left hwe)
  refine ⟨w, hw, fun created o ho => fuzzyPair?_succeeds_iff.2 fun wo hwo differ => ?_⟩
  obtain ⟨v, hv, goes⟩ := goes o ((h.restExpected o).2 ho) wo hwo
  refine ⟨v, hv, fun created' => ?_⟩
  obtain ⟨w', hw', scored⟩ := fuzzyPair?_succeeds_iff.1 (goes created' e left) we hwe differ.symm
  cases hw.symm.trans hw'
  obtain ⟨x, hx⟩ := scored created
  exact ⟨x, AvmStore.scores_swap hx⟩

theorem run_swap (ok : run s c p observed expected = .ok (m, c₁))
    (ok' : run s c p expected observed = .ok (m', c₂)) : m.transpose.Same m' := by
  obtain ⟨m₃, pairs, certain, fuzzy, rfl, -⟩ := run_eq_ok_iff.1 ok
  obtain ⟨n₃, pairs', certain', fuzzy', rfl, -⟩ := run_eq_ok_iff.1 ok'
  obtain ⟨n, found, same⟩ := unscored_transpose certain
  cases certain'.symm.trans found
  rw [transpose_registerAll]
  refine same.registerAll fun pair => ?_
  have ends : (pairs.map FuzzyPair.ends).map Prod.swap =
      (pairs.map FuzzyPair.swap).map FuzzyPair.ends := by
    simp [Function.comp_def, FuzzyPair.ends, FuzzyPair.swap]
  simp only [ends, List.mem_map (f := FuzzyPair.ends), same.fuzzyPairs_swap fuzzy fuzzy']

theorem run_swap_succeeds
    (bound : ∀ e w, e ∈ expected → s.widgetOf e = some w → c.widgets.contains w = true)
    (goes : Succeeds (run s c p observed expected)) : Succeeds (run s c p expected observed) := by
  obtain ⟨⟨m, c₁⟩, ok⟩ := goes
  obtain ⟨m₃, pairs, certain, fuzzy, -, -⟩ := run_eq_ok_iff.1 ok
  obtain ⟨n₃, certain', same⟩ := unscored_transpose certain
  have within := (unscored_partitions certain).within
  obtain ⟨pairs', fuzzy'⟩ := same.fuzzyPairs_succeeds ⟨pairs, fuzzy⟩ fun e w left =>
    bound e w (within.restExpected e left)
  exact ⟨_, run_eq_ok_iff.2 ⟨n₃, pairs', certain', fuzzy', rfl, rfl⟩⟩

-- The catalog does not know the widget of the button.
example : run .buttons {} {} (.ofList [⟨2⟩]) ∅ = .error (.vacant (e := .widget) ⟨0⟩) := rfl

example : Succeeds (run .buttons {} {} ∅ (.ofList [⟨2⟩])) := ⟨_, rfl⟩

variable (s c p observed expected)

/-- To match two sets the other way round exchanges the two sides of the result. Both runs end in a
matching if the valuations and the widgets that they are bound to are there. If one run does, then
the other one does where the widgets on the other side are there. -/
theorem run_transposed :
    (∀ {m c₁ m' c₂}, run s c p observed expected = .ok (m, c₁) →
      run s c p expected observed = .ok (m', c₂) → m.transpose.Same m') ∧
      ((∀ e w, e ∈ expected → s.widgetOf e = some w → c.widgets.contains w = true) →
        Succeeds (run s c p observed expected) → Succeeds (run s c p expected observed)) ∧
      ((∀ a, a ∈ observed → s.Readable c a) → (∀ a, a ∈ expected → s.Readable c a) →
        Succeeds (run s c p observed expected) ∧ Succeeds (run s c p expected observed)) :=
  ⟨run_swap, run_swap_succeeds, fun ho he => ⟨run_succeeds ho he, run_succeeds he ho⟩⟩

theorem run_transposed_buttons : ∃ m c₁ m' c₂,
    run .buttons .closing {} (.ofList [⟨0⟩, ⟨1⟩]) (.ofList [⟨1⟩, ⟨2⟩]) = .ok (m, c₁) ∧
      run .buttons .closing {} (.ofList [⟨1⟩, ⟨2⟩]) (.ofList [⟨0⟩, ⟨1⟩]) = .ok (m', c₂) ∧
      m.transpose.Same m' := by
  obtain ⟨swap, succeeds, goes⟩ := run_transposed .buttons .closing {}
    (.ofList [⟨0⟩, ⟨1⟩]) (.ofList [⟨1⟩, ⟨2⟩])
  have readable : ∀ a ∈ [⟨1⟩, ⟨2⟩], AvmStore.buttons.Readable .closing a :=
    fun a mem => AvmStore.buttons_readable (List.mem_of_mem_tail mem)
  obtain ⟨⟨m, c₁⟩, first⟩ := (goes
    (fun a mem => AvmStore.buttons_readable (List.mem_of_mem_take (i := 2) mem)) readable).1
  obtain ⟨⟨m', c₂⟩, second⟩ := succeeds (fun e w mem => (readable e mem).bound) ⟨_, first⟩
  exact ⟨m, c₁, m', c₂, first, second, swap first second⟩

end Matching

end ScreenGraph
