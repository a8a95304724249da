import Mathlib.Data.List.Induction
import ScreenGraph.Compare.Matching
import ScreenGraph.Proofs.Checked

namespace ScreenGraph

namespace FuzzyPair

variable {p q r : FuzzyPair} {pairs taken taken' : List FuzzyPair}

theorem notAfter_iff : p.notAfter q = true ↔ q.closeness < p.closeness ∨
    p.closeness = q.closeness ∧ (p.observed.slot < q.observed.slot ∨
      p.observed.slot = q.observed.slot ∧ p.expected.slot ≤ q.expected.slot) := by
  have same : p.observed = q.observed ↔ p.observed.slot = q.observed.slot :=
    ⟨congrArg Handle.slot, Handle.ext⟩
  simp [notAfter, same]

theorem notAfter_refl (p : FuzzyPair) : p.notAfter p = true := by
  simp [notAfter_iff]

theorem notAfter_trans (h : p.notAfter q = true) (h' : q.notAfter r = true) :
    p.notAfter r = true := by
  rw [notAfter_iff] at *
  omega

theorem notAfter_total (p q : FuzzyPair) : p.notAfter q = true ∨ q.notAfter p = true := by
  rw [notAfter_iff, notAfter_iff]
  omega

theorem ends_eq_of_notAfter (h : p.notAfter q = true) (h' : q.notAfter p = true) :
    p.ends = q.ends := by
  rw [notAfter_iff] at h h'
  have observed : p.observed = q.observed := Handle.ext (by omega)
  have expected : p.expected = q.expected := Handle.ext (by omega)
  rw [ends, ends, observed, expected]

theorem sharesEnd_iff : p.sharesEnd q = true ↔
    p.observed = q.observed ∨ p.expected = q.expected := by
  simp [sharesEnd]

theorem sharesEnd_comm (p q : FuzzyPair) : p.sharesEnd q = q.sharesEnd p := by
  simp only [sharesEnd, eq_comm]

theorem exists_first (some : pairs ≠ []) : ∃ p ∈ pairs, ∀ q ∈ pairs, p.notAfter q = true := by
  induction pairs with
  | nil => exact absurd rfl some
  | cons p r ih =>
    cases r with
    | nil => exact ⟨p, by simp, by simp [notAfter_refl]⟩
    | cons p' r =>
      obtain ⟨f, mem, first⟩ := ih (by simp)
      rcases notAfter_total p f with before | after
      · refine ⟨p, by simp, ?_⟩
        intro q hq
        rcases List.mem_cons.1 hq with rfl | hq
        · exact notAfter_refl q
        · exact notAfter_trans before (first q hq)
      · refine ⟨f, List.mem_cons_of_mem p mem, ?_⟩
        intro q hq
        rcases List.mem_cons.1 hq with rfl | hq
        · exact after
        · exact first q hq

/-- A choice among the pairs that are open. It leaves out those, and only those, that share an end
with a pair that it takes and that comes before them. -/
def IsChoice (isOpen : FuzzyPair → Prop) (taken : List FuzzyPair) : Prop :=
  ∀ p, p ∈ taken ↔ isOpen p ∧ ∀ q ∈ taken, q.sharesEnd p = true → p.notAfter q = true

namespace IsChoice

variable {isOpen isOpen' : FuzzyPair → Prop}

theorem congr (h : IsChoice isOpen taken) (same : ∀ p, isOpen p ↔ isOpen' p) :
    IsChoice isOpen' taken := by
  intro p
  rw [← same]
  exact h p

theorem transfer (h : IsChoice isOpen taken) (h' : IsChoice isOpen taken')
    (before : ∀ q ∈ taken', ¬ p.notAfter q = true → q ∈ taken) (mem : p ∈ taken) :
    p ∈ taken' := by
  obtain ⟨isOpen, first⟩ := (h p).1 mem
  refine (h' p).2 ⟨isOpen, fun q hq shares => ?_⟩
  by_cases after : p.notAfter q = true
  · exact after
  · exact first q (before q hq after) shares

theorem unique (h : IsChoice isOpen taken) (h' : IsChoice isOpen taken') (p : FuzzyPair) :
    p ∈ taken ↔ p ∈ taken' := by
  let differs := (taken ++ taken').filter fun p => decide ¬ (p ∈ taken ↔ p ∈ taken')
  have agree : ∀ {q}, q ∉ differs → (q ∈ taken ↔ q ∈ taken') := by
    intro q out
    by_cases mem : q ∈ taken ++ taken'
    · by_contra differ
      exact out (List.mem_filter.2 ⟨mem, decide_eq_true differ⟩)
    · simp only [List.mem_append, not_or] at mem
      simp [mem]
  suffices none : differs = [] by exact agree (by simp [none])
  by_cases some : differs = []
  · exact some
  obtain ⟨f, mem, first⟩ := exists_first some
  have same : f ∈ taken ↔ f ∈ taken' := by
    constructor
    · refine h.transfer h' fun q hq after => ?_
      exact (agree fun differ => after (first q differ)).2 hq
    · refine h'.transfer h fun q hq after => ?_
      exact (agree fun differ => after (first q differ)).1 hq
  exact absurd same (of_decide_eq_true (List.mem_filter.1 mem).2)

end IsChoice

theorem select_concat (pairs : List FuzzyPair) (p : FuzzyPair) :
    select (pairs ++ [p]) =
      if (select pairs).any p.sharesEnd then select pairs else select pairs ++ [p] := by
  simp [select, List.foldl_append]

theorem select_sublist (pairs : List FuzzyPair) : (select pairs).Sublist pairs := by
  induction pairs using List.reverseRecOn with
  | nil => exact .slnil
  | append_singleton r p ih =>
    rw [select_concat]
    split
    · exact ih.trans (List.sublist_append_left r [p])
    · exact ih.append_right [p]

theorem select_nodup (pairs : List FuzzyPair) : (select pairs).Nodup := by
  induction pairs using List.reverseRecOn with
  | nil => exact List.nodup_nil
  | append_singleton r p ih =>
    rw [select_concat]
    split
    · exact ih
    · next free =>
      refine List.nodup_append.2 ⟨ih, by simp, ?_⟩
      rintro q mem _ (_ | ⟨_, ⟨⟩⟩) rfl
      exact free (List.any_eq_true.2 ⟨q, mem, sharesEnd_iff.2 (.inl rfl)⟩)

theorem select_isChoice (sorted : pairs.Pairwise fun p q => p.notAfter q = true)
    (apart : ∀ p ∈ pairs, ∀ q ∈ pairs, p.ends = q.ends → p = q) :
    IsChoice (· ∈ pairs) (select pairs) := by
  induction pairs using List.reverseRecOn with
  | nil => simp [IsChoice, select]
  | append_singleton r p ih =>
    obtain ⟨sorted, -, last⟩ := List.pairwise_append.1 sorted
    have chosen := ih sorted fun x hx y hy => apart x (by simp [hx]) y (by simp [hy])
    have before : ∀ q ∈ select r, q.notAfter p = true := by
      intro q mem
      exact last q ((select_sublist r).subset mem) p (by simp)
    rw [select_concat]
    intro x
    split
    · next shares =>
      obtain ⟨q, mem, shares⟩ := List.any_eq_true.1 shares
      refine (chosen x).trans ?_
      simp only [List.mem_append, List.mem_singleton]
      refine and_congr_left fun first => ⟨.inl, ?_⟩
      rintro (old | rfl)
      · exact old
      · -- the pair that bars the last one comes before it, so it would have to be the last one
        have after := first q mem (by rwa [sharesEnd_comm])
        have listed := (select_sublist r).subset mem
        rw [apart x (by simp) q (by simp [listed]) (ends_eq_of_notAfter after (before q mem))]
        exact listed
    · next free =>
      have free : ∀ q ∈ select r, p.sharesEnd q = false := by simpa using free
      simp only [List.mem_append, List.mem_singleton, chosen x, or_imp, forall_and, forall_eq]
      constructor
      · rintro (⟨old, first⟩ | rfl)
        · refine ⟨.inl old, first, fun shares => ?_⟩
          rw [free x ((chosen x).2 ⟨old, first⟩)] at shares
          cases shares
        · refine ⟨.inr rfl, fun q mem shares => ?_, fun _ => notAfter_refl x⟩
          rw [sharesEnd_comm, free q mem] at shares
          cases shares
      · rintro ⟨old | rfl, first, -⟩
        · exact .inl ⟨old, first⟩
        · exact .inr rfl

end FuzzyPair

def Catalog.IsRuntime (c : Catalog) (w : WidgetId) : Prop :=
  ∃ v, c.widgets.get? w = some v ∧ v.runtimeCreated = true

structure FuzzyPair.IsCandidate (s : AvmStore) (c : Catalog) (p : Policy) (q : FuzzyPair) :
    Prop where
  observedBound : s.widgetOf q.observed = some q.observedWidget
  expectedBound : s.widgetOf q.expected = some q.expectedWidget
  differ : q.expectedWidget ≠ q.observedWidget
  observedRuntime : c.IsRuntime q.observedWidget
  expectedRuntime : c.IsRuntime q.expectedWidget
  close : ∃ rid path, s.scores q.observed q.expected = .ok (rid, path) ∧
    Score.accept [rid, path] p = true ∧ q.closeness = orderRank (Score.mean [rid, path])

section

variable {s : AvmStore} {c : Catalog} {p : Policy} {q r : FuzzyPair}

theorem FuzzyPair.IsCandidate.eq_of_ends (h : q.IsCandidate s c p) (h' : r.IsCandidate s c p)
    (same : q.ends = r.ends) : q = r := by
  obtain ⟨closeness, o, e, wo, we⟩ := q
  obtain ⟨closeness', o', e', wo', we'⟩ := r
  obtain ⟨rfl, rfl⟩ := Prod.mk.inj same
  obtain ⟨rid, path, scored, -, rfl⟩ := h.close
  obtain ⟨rid', path', scored', -, rfl⟩ := h'.close
  cases scored.symm.trans scored'
  cases h.observedBound.symm.trans h'.observedBound
  cases h.expectedBound.symm.trans h'.expectedBound
  rfl

theorem fuzzyPair?_eq_some {o e : AvmId} {wo : WidgetId} (bound : s.widgetOf o = some wo)
    (runtime : c.IsRuntime wo) :
    fuzzyPair? s c p o wo e = .ok (some q) ↔ q.ends = (o, e) ∧ q.IsCandidate s c p := by
  constructor
  · intro ok
    unfold fuzzyPair? at ok
    split at ok
    · cases ok
    next we hwe =>
    split at ok
    · cases ok
    next differ =>
    obtain ⟨w, hw, ok⟩ := Arena.get_bind_eq_ok.1 ok
    split at ok
    · cases ok
    next created =>
    obtain ⟨⟨rid, path⟩, scored, ok⟩ := Checked.bind_eq_ok.1 ok
    dsimp only at ok
    split at ok
    · cases ok
    next accepted =>
    cases ok
    exact ⟨rfl, bound, hwe, differ, runtime, ⟨w, hw, by simpa using created⟩,
      ⟨rid, path, scored, by simpa using accepted, rfl⟩⟩
  · rintro ⟨same, candidate⟩
    obtain ⟨rfl, rfl⟩ := Prod.mk.inj same
    cases bound.symm.trans candidate.observedBound
    obtain ⟨w, hw, created⟩ := candidate.expectedRuntime
    obtain ⟨rid, path, scored, accepted, closeness⟩ := candidate.close
    have found : c.widget q.expectedWidget = .ok w := Arena.get_eq_ok_iff.2 hw
    simp [fuzzyPair?, candidate.expectedBound, candidate.differ, found, created, scored, accepted,
      ← closeness, bind, Except.bind, pure, Except.pure]

theorem mem_fuzzyPairsOf {expected : List AvmId} {o : AvmId} {qs : List FuzzyPair}
    (ok : fuzzyPairsOf s c p expected o = .ok qs) :
    q ∈ qs ↔ q.observed = o ∧ q.expected ∈ expected ∧ q.IsCandidate s c p := by
  unfold fuzzyPairsOf at ok
  split at ok
  · next unbound =>
    cases ok
    refine iff_of_false (by simp) ?_
    rintro ⟨rfl, -, candidate⟩
    cases unbound.symm.trans candidate.observedBound
  next wo bound =>
  obtain ⟨w, hw, ok⟩ := Arena.get_bind_eq_ok.1 ok
  split at ok
  · next created =>
    cases ok
    refine iff_of_false (by simp) ?_
    rintro ⟨rfl, -, candidate⟩
    cases bound.symm.trans candidate.observedBound
    obtain ⟨w', hw', created'⟩ := candidate.observedRuntime
    cases hw.symm.trans hw'
    simp [created'] at created
  next created =>
  rw [mem_filterMapChecked ok]
  simp only [fuzzyPair?_eq_some bound ⟨w, hw, by simpa using created⟩]
  constructor
  · rintro ⟨e, he, same, candidate⟩
    obtain ⟨rfl, rfl⟩ := Prod.mk.inj same
    exact ⟨rfl, he, candidate⟩
  · rintro ⟨rfl, he, candidate⟩
    exact ⟨q.expected, he, rfl, candidate⟩

theorem fuzzyPair?_succeeds_iff {o e : AvmId} {wo : WidgetId} :
    Succeeds (fuzzyPair? s c p o wo e) ↔ ∀ we, s.widgetOf e = some we → we ≠ wo →
      ∃ w, c.widgets.get? we = some w ∧ (w.runtimeCreated = true → Succeeds (s.scores o e)) := by
  unfold fuzzyPair?
  split
  · next unbound => simp [unbound]
  next we bound =>
  split
  · next same => simp [bound, same]
  next differ =>
  simp only [bound, Option.some.injEq, forall_eq', differ, ne_eq, not_false_eq_true, forall_const]
  refine Arena.succeeds_get_bind_iff.trans (exists_congr fun w => and_congr_right fun _ => ?_)
  cases created : w.runtimeCreated with
  | false => simp
  | true =>
    simp only [Bool.not_true, Bool.false_eq_true, ite_false, forall_const]
    constructor
    · rintro ⟨q, ok⟩
      obtain ⟨scores, scored, -⟩ := Checked.bind_eq_ok.1 ok
      exact ⟨scores, scored⟩
    · refine fun scored => scored.bind fun ⟨rid, path⟩ _ => ?_
      dsimp only
      split <;> exact succeeds_pure _

theorem fuzzyPairs_succeeds_iff {m : Matching} :
    Succeeds (fuzzyPairs s c p m) ↔ ∀ o ∈ m.restObserved, ∀ wo, s.widgetOf o = some wo →
      ∃ w, c.widgets.get? wo = some w ∧ (w.runtimeCreated = true → ∀ e ∈ m.restExpected,
        Succeeds (fuzzyPair? s c p o wo e)) := by
  have each : ∀ o, Succeeds (fuzzyPairsOf s c p m.restExpected.toList o) ↔
      ∀ wo, s.widgetOf o = some wo → ∃ w, c.widgets.get? wo = some w ∧
        (w.runtimeCreated = true → ∀ e ∈ m.restExpected, Succeeds (fuzzyPair? s c p o wo e)) := by
    intro o
    unfold fuzzyPairsOf
    split
    · next unbound => simp [unbound]
    next wo bound =>
    simp only [bound, Option.some.injEq, forall_eq']
    refine Arena.succeeds_get_bind_iff.trans (exists_congr fun w => and_congr_right fun _ => ?_)
    cases created : w.runtimeCreated with
    | false => simp
    | true =>
      simp only [Bool.not_true, Bool.false_eq_true, ite_false, forall_const]
      constructor
      · exact fun ⟨qs, ok⟩ e he => filterMapChecked_each ok he
      · exact fun goes => filterMapChecked_succeeds goes
  constructor
  · rintro ⟨taken, ok⟩ o ho
    obtain ⟨all, found, -⟩ := Checked.bind_eq_ok.1 ok
    exact (each o).1 (flatMapChecked_each found ho)
  · intro goes
    refine (flatMapChecked_succeeds fun o ho => (each o).2 (goes o ho)).bind fun _ _ => ?_
    exact succeeds_pure _

def Matching.Offers (s : AvmStore) (c : Catalog) (p : Policy) (m : Matching) (q : FuzzyPair) :
    Prop :=
  q.observed ∈ m.restObserved ∧ q.expected ∈ m.restExpected ∧ q.IsCandidate s c p

theorem Matching.offers_iff {m : Matching} {all : List FuzzyPair}
    (found : flatMapChecked (fuzzyPairsOf s c p m.restExpected.toList) m.restObserved.toList =
      .ok all) : m.Offers s c p q ↔ q ∈ all := by
  rw [mem_flatMapChecked found]
  constructor
  · rintro ⟨ho, he, candidate⟩
    obtain ⟨qs, hqs⟩ := flatMapChecked_each found ho
    exact ⟨q.observed, ho, qs, hqs, (mem_fuzzyPairsOf hqs).2 ⟨rfl, he, candidate⟩⟩
  · rintro ⟨o, ho, qs, hqs, mem⟩
    obtain ⟨rfl, he, candidate⟩ := (mem_fuzzyPairsOf hqs).1 mem
    exact ⟨ho, he, candidate⟩

theorem fuzzyPairs_eq_ok {m : Matching} {taken : List FuzzyPair}
    (ok : fuzzyPairs s c p m = .ok taken) :
    FuzzyPair.IsChoice (m.Offers s c p) taken ∧ taken.Nodup ∧
      taken.Pairwise fun p q => p.notAfter q = true := by
  obtain ⟨all, found, done⟩ := Checked.bind_eq_ok.1 ok
  cases done
  have offered : ∀ q, q ∈ all.mergeSort FuzzyPair.notAfter ↔ m.Offers s c p q := by
    intro q
    rw [List.mem_mergeSort, Matching.offers_iff found]
  have sorted : (all.mergeSort FuzzyPair.notAfter).Pairwise fun p q => p.notAfter q = true := by
    apply List.pairwise_mergeSort
    · exact fun _ _ _ => FuzzyPair.notAfter_trans
    · exact fun p q => by simpa using FuzzyPair.notAfter_total p q
  refine ⟨?_, FuzzyPair.select_nodup _, sorted.sublist (FuzzyPair.select_sublist _)⟩
  refine (FuzzyPair.select_isChoice sorted fun p hp q hq => ?_).congr offered
  exact ((offered p).1 hp).2.2.eq_of_ends ((offered q).1 hq).2.2

end

end ScreenGraph
