import ScreenGraph.Proofs.Comparing
import ScreenGraph.Proofs.Phasing

namespace ScreenGraph

namespace Matching

variable {s : AvmStore} {c : Catalog} {p : Policy} {observed expected : OrderedSet AvmId}
  {m : Matching}

theorem phase_of_restPairs_nil (none : m.restPairs = []) (test : AvmId → AvmId → Checked Bool) :
    m.phase test = .ok m := by
  rw [phase, none]
  rfl

theorem run_of_isComplete (equal : (start observed expected).phase s.areEqual = .ok m)
    (complete : m.isComplete = true) : Matching.run s c p observed expected = .ok (m, c) := by
  obtain ⟨noneo, -⟩ := Bool.and_eq_true_iff.1 complete
  have restObserved : m.restObserved.toList = [] := List.isEmpty_iff.1 noneo
  have none : m.restPairs = [] := by rw [restPairs, restObserved]; rfl
  have unscored : Matching.unscored s c observed expected = .ok m := by
    simp [Matching.unscored, equal, phase_of_restPairs_nil none, bind, Except.bind]
  have fuzzy : fuzzyPairs s c p m = .ok [] := by
    rw [fuzzyPairs, restObserved]
    simp [flatMapChecked, FuzzyPair.select, bind, Except.bind, pure, Except.pure]
  exact run_eq_ok_iff.2 ⟨m, [], unscored, fuzzy, rfl, rfl⟩

theorem EqualPair.refl {xs : OrderedSet AvmId} {a : AvmId} (mem : a ∈ xs)
    (live : s.avms.contains a = true) : EqualPair s xs xs a a := by
  obtain ⟨v, hv⟩ := AvmStore.get_succeeds live
  exact ⟨mem, mem, v, v, hv, hv, .inl rfl⟩

theorem run_self {xs : OrderedSet AvmId} (live : ∀ a, a ∈ xs → s.avms.contains a = true) :
    ∃ m, Matching.run s c p xs xs = .ok (m, c) ∧ m.isComplete = true ∧ m.Partitions xs xs ∧
      m.ofObserved.Relates = EqualPair s xs xs := by
  have reads : ∀ o e, o ∈ xs → e ∈ xs → Succeeds (s.areEqual o e) :=
    fun o e ho he => AvmStore.areEqual_succeeds (live o ho) (live e he)
  obtain ⟨m, equal⟩ := (Partitions.start xs xs).phase_succeeds reads
  have sorted := (Partitions.start xs xs).phase equal
  have relates := equal_relates equal
  have reflexive : ∀ a, a ∈ xs → m.ofObserved.Relates a a := by
    intro a mem
    rw [relates]
    exact .refl mem (live a mem)
  have complete : m.isComplete = true := by
    rw [isComplete, Bool.and_eq_true, OrderedSet.isEmpty_iff, OrderedSet.isEmpty_iff]
    constructor
    · intro a left
      have mem := sorted.within.restObserved a left
      exact sorted.observed.apart a ⟨(reflexive a mem).contains, left⟩
    · intro a left
      have mem := sorted.within.restExpected a left
      exact sorted.expected.apart a ⟨((sorted.mirror a a).1 (reflexive a mem)).contains, left⟩
  exact ⟨m, run_of_isComplete equal complete, complete, sorted, relates⟩

end Matching

namespace Trial

variable {m : Model} {t : Trial} {r : Rule} {rules : List Rule}

theorem settle_of_inconclusive (prepared : r.prepare m t = .ok (m, t))
    (judged : r.judge m t = .ok .inconclusive) : settle (r :: rules) m t = settle rules m t := by
  rw [settle, prepared]
  simp [judged, bind, Except.bind]

theorem settle_self (same : t.observed = t.expected) :
    settle Rule.all m t =
      settle [.avmMatch, .blankResourceId, .disjointWidgets, .runtimeWidgets] m t := by
  have window : Rule.window.judge m t = .ok .inconclusive := by
    simp [Rule.judge, same, Catalog.compatible, Verdict.rejectUnless, bind, Except.bind, pure,
      Except.pure]
  rw [Rule.all, settle_of_inconclusive rfl window]
  iterate 3 rw [settle_of_inconclusive rfl (by simp [Rule.judge, same, Verdict.rejectUnless])]

theorem settle_avmMatch {x : Matching} (run : Matching.run m.avms m.catalog m.policy
    t.observed.comparableAvms t.expected.comparableAvms = .ok (x, m.catalog))
    (complete : x.isComplete = true) :
    settle (.avmMatch :: rules) m t = .ok (⟨.equivalent, some .avmMatch, some x⟩, m) := by
  have prepared : Rule.avmMatch.prepare m t = .ok (m, { t with
      matching := some x, restObserved := x.restObserved, restExpected := x.restExpected }) := by
    rw [Rule.prepare, run]
    rfl
  have rest : (x.restObserved.isEmpty && x.restExpected.isEmpty) = true := complete
  rw [settle, prepared]
  simp only [Bool.and_eq_true] at rest
  simp [Rule.judge, hasRest, rest, Verdict.acceptIf, bind, Except.bind, pure, Except.pure]

end Trial

namespace Model

/-- A state is equivalent to itself by its valuations. All of these have to be there, but neither
the widgets that they are bound to nor the window of the state. -/
theorem compare_self {m : Model} {s : StateId} {st : State}
    (live : m.graph.states.get? s = some st)
    (known : ∀ a, a ∈ st.comparableAvms → m.avms.avms.contains a = true) (strict : Bool) :
    ∃ x, m.compare s s strict = .ok (⟨.equivalent, some .avmMatch, some x⟩, m) ∧
      x.isComplete = true ∧
      (∀ a, a ∈ st.comparableAvms → x.ofObserved.Relates a a ∧ x.ofExpected.Relates a a) ∧
      ∀ o e, x.ofObserved.Relates o e ↔
        Matching.EqualPair m.avms st.comparableAvms st.comparableAvms o e := by
  obtain ⟨x, run, complete, sorted, relates⟩ :=
    Matching.run_self (c := m.catalog) (p := m.policy) known
  refine ⟨x, ?_, complete, fun a mem => ?_, fun o e => by rw [relates]⟩
  · have found : m.graph.state s = .ok st := Arena.get_eq_ok_iff.2 live
    rw [compare, found]
    exact (Trial.settle_self rfl).trans (Trial.settle_avmMatch run complete)
  · have paired : x.ofObserved.Relates a a := by
      rw [relates]
      exact .refl mem (known a mem)
    exact ⟨paired, (sorted.mirror a a).1 paired⟩

def detached : Model where
  catalog := { replacements := .ofList [(⟨0⟩, ⟨1⟩)] }
  avms := { AvmStore.addAll {} [(⟨0⟩, { resourceId := "ok" }), (⟨0⟩, { resourceId := "ok" })] with
    bindings := .ofList [(⟨1⟩, ⟨0⟩)] }
  graph := {
    states := (Arena.add ∅
      { window := ⟨0⟩, version := .running, kind := .virtual,
        knownGood := some (.ofList [⟨0⟩, ⟨1⟩]) }).2 }

theorem compare_self_detached : ∃ x,
    Model.detached.compare ⟨0⟩ ⟨0⟩ true = .ok (⟨.equivalent, some .avmMatch, some x⟩, .detached) ∧
      x.ofObserved.Relates ⟨1⟩ ⟨1⟩ ∧ x.ofObserved.Relates ⟨0⟩ ⟨1⟩ := by
  have known : ∀ a ∈ [(⟨0⟩ : AvmId), ⟨1⟩], Model.detached.avms.avms.contains a = true := by decide
  obtain ⟨x, same, -, self, pairs⟩ := compare_self (m := .detached) (s := ⟨0⟩) rfl
    (fun a mem => known a (OrderedSet.mem_ofList.1 mem)) true
  exact ⟨x, same, (self ⟨1⟩ (OrderedSet.mem_ofList.2 (by simp))).1,
    (pairs ⟨0⟩ ⟨1⟩).2 ⟨OrderedSet.mem_ofList.2 (by simp), OrderedSet.mem_ofList.2 (by simp),
      _, _, rfl, rfl, .inr rfl⟩⟩

end Model

end ScreenGraph
