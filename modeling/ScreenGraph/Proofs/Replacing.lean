import ScreenGraph.Proofs.Frame
import ScreenGraph.Proofs.Phasing

namespace ScreenGraph

namespace FuzzyPair

variable {isOpen : FuzzyPair → Prop} {q r : FuzzyPair} {taken : List FuzzyPair}

structure IsLast (taken : List FuzzyPair) (q : FuzzyPair) : Prop where
  mem : q ∈ taken
  after : ∀ r ∈ taken, r.expectedWidget = q.expectedWidget → ¬ q.Precedes r

theorem not_precedes_iff : ¬ q.Precedes r ↔ r.notAfter q = true := by
  rw [← not_notAfter_iff, Decidable.not_not]

theorem Greedy.last_unique (h : Greedy isOpen taken) (hq : q.IsLast taken) (hr : r.IsLast taken)
    (same : r.expectedWidget = q.expectedWidget) : r = q := by
  have before := not_precedes_iff.1 (hq.after r hr.mem same)
  have after := not_precedes_iff.1 (hr.after q hq.mem same.symm)
  exact h.apart r hr.mem q hq.mem (.inl (Prod.mk.inj (ends_eq_of_notAfter before after)).1)

end FuzzyPair

namespace Catalog

variable {c c' : Catalog} {pairs taken : List FuzzyPair} {w : WidgetId}

theorem replacementOf_replaceAll (c : Catalog)
    (sorted : pairs.Pairwise fun p q => p.notAfter q = true) (w : WidgetId) :
    (∀ q ∈ pairs, q.expectedWidget ≠ w) ∧
      (c.replaceAll pairs).replacementOf w = c.replacementOf w ∨
    ∃ q : FuzzyPair, q.IsLast pairs ∧ q.expectedWidget = w ∧
      (c.replaceAll pairs).replacementOf w = some q.observedWidget := by
  induction pairs using List.reverseRecOn with
  | nil => exact .inl ⟨nofun, rfl⟩
  | append_singleton front p ih =>
    obtain ⟨sorted, -, before⟩ := List.pairwise_append.1 sorted
    have entered : (c.replaceAll (front ++ [p])).replacementOf w =
        if p.expectedWidget = w then some p.observedWidget
        else (c.replaceAll front).replacementOf w := by
      rw [replaceAll, List.foldl_append]
      exact replacementOf_replace ..
    rw [entered]
    by_cases here : p.expectedWidget = w
    · refine .inr ⟨p, ⟨by simp, fun r mem _ => ?_⟩, here, if_pos here⟩
      rw [FuzzyPair.not_precedes_iff]
      rcases List.mem_append.1 mem with mem | mem
      · exact before r mem p (by simp)
      · cases List.mem_singleton.1 mem
        exact FuzzyPair.notAfter_refl p
    · rw [if_neg here]
      rcases ih sorted with ⟨none, same⟩ | ⟨q, last, there, kept⟩
      · refine .inl ⟨fun q mem => ?_, same⟩
        rcases List.mem_append.1 mem with mem | mem
        · exact none q mem
        · cases List.mem_singleton.1 mem
          exact here
      · refine .inr ⟨q, ⟨by simp [last.mem], fun r mem same => ?_⟩, there, kept⟩
        rcases List.mem_append.1 mem with mem | mem
        · exact last.after r mem same
        · cases List.mem_singleton.1 mem
          exact absurd (same.trans there) here

/-- How a catalog comes out of a matching that takes given pairs: nothing but its replacement table
changes, and that at the widgets of the expected ends, where it has the last pair of each widget. -/
structure Remembers (c c' : Catalog) (taken : List FuzzyPair) : Prop where
  frame : c' = { c with replacements := c'.replacements }
  last : ∀ q : FuzzyPair, q.IsLast taken → c'.replacementOf q.expectedWidget = some q.observedWidget
  remembered_iff : ∀ q ∈ taken, (c'.replacementOf q.expectedWidget = some q.observedWidget ↔
    ∀ r : FuzzyPair, r.IsLast taken → r.expectedWidget = q.expectedWidget →
      r.observedWidget = q.observedWidget)
  other : ∀ w, (∀ q ∈ taken, q.expectedWidget ≠ w) → c'.replacementOf w = c.replacementOf w

theorem replaceAll_remembers (c : Catalog) {isOpen : FuzzyPair → Prop}
    (greedy : FuzzyPair.Greedy isOpen taken)
    (sorted : taken.Pairwise fun p q => p.notAfter q = true) :
    c.Remembers (c.replaceAll taken) taken := by
  have entered : ∀ q ∈ taken, ∃ r : FuzzyPair, r.IsLast taken ∧
      r.expectedWidget = q.expectedWidget ∧
      (c.replaceAll taken).replacementOf q.expectedWidget = some r.observedWidget := by
    intro q mem
    rcases c.replacementOf_replaceAll sorted q.expectedWidget with ⟨none, -⟩ | last
    · exact absurd rfl (none q mem)
    · exact last
  constructor
  · obtain ⟨rs, same⟩ := c.replaceAll_eq taken
    rw [same]
  · intro q last
    obtain ⟨r, last', same, kept⟩ := entered q last.mem
    cases greedy.last_unique last last' same
    exact kept
  · intro q mem
    obtain ⟨r, last, same, kept⟩ := entered q mem
    rw [kept, Option.some.injEq]
    constructor
    · intro agree r' last' same'
      cases greedy.last_unique last last' (same'.trans same.symm)
      exact agree
    · exact fun agree => agree r last same
  · intro w none
    rcases c.replacementOf_replaceAll sorted w with ⟨-, same⟩ | ⟨q, last, there, -⟩
    · exact same
    · exact absurd there (none q last.mem)

end Catalog

namespace Matching

section

variable (s : AvmStore) (c : Catalog) (p : Policy) (observed expected : OrderedSet AvmId)

/-- A pair of the fuzzy phase is remembered unless a later one of the same widget has another
replacement, and no other entry of the table changes. -/
theorem run_remembers :
    (∀ m c', Matching.run s c p observed expected = .ok (m, c') → ∃ taken,
      Phased s c p observed expected m taken ∧ c.Remembers c' taken) ∧
    ((∀ a, a ∈ observed → s.Readable c a) → (∀ a, a ∈ expected → s.Readable c a) →
      Succeeds (Matching.run s c p observed expected)) := by
  refine ⟨fun m c' run => ?_, fun ho he => run_succeeds ho he⟩
  obtain ⟨m₃, taken, certain, fuzzy, rfl, rfl⟩ := run_eq_ok_iff.1 run
  obtain ⟨-, -, sorted⟩ := fuzzyPairs_eq_ok fuzzy
  have phased := Matching.phased certain fuzzy
  exact ⟨taken, phased, c.replaceAll_remembers phased.greedy sorted⟩

end

theorem run_remembers_renamed : ∃ m c',
    Matching.run .renamed .renaming {} newSide oldSide = .ok (m, c') ∧
      c'.replacementOf ⟨0⟩ = some ⟨2⟩ ∧ c'.replacementOf ⟨1⟩ = none := by
  obtain ⟨remembers, succeeds⟩ := run_remembers .renamed .renaming {} newSide oldSide
  obtain ⟨⟨m, c'⟩, run⟩ := succeeds readable_renamed.1 readable_renamed.2
  obtain ⟨taken, phased, table⟩ := remembers m c' run
  have takes := greedy_renamed phased.greedy
  refine ⟨m, c', run, table.last .ofRows ⟨(takes _).2 (.inr rfl), fun r mem _ => ?_⟩, ?_⟩
  · rw [FuzzyPair.not_precedes_iff]
    rcases (takes r).1 mem with rfl | rfl
    · decide +kernel
    · exact FuzzyPair.notAfter_refl _
  · refine table.other ⟨1⟩ fun r mem => ?_
    rcases (takes r).1 mem with rfl | rfl <;> decide

/-- The pair of the cells is matched and not remembered. -/
theorem not_all_remembered_renamed : ¬ ∀ s c p observed expected m c' taken,
    Matching.run s c p observed expected = .ok (m, c') →
    Phased s c p observed expected m taken →
    ∀ q ∈ taken, c'.replacementOf q.expectedWidget = some q.observedWidget := by
  intro remembered
  obtain ⟨⟨m, c'⟩, run⟩ := run_succeeds (p := {}) readable_renamed.1 readable_renamed.2
  obtain ⟨m₃, taken, certain, fuzzy, rfl, -⟩ := run_eq_ok_iff.1 run
  have phased := Matching.phased certain fuzzy
  have takes := greedy_renamed phased.greedy
  have cells := remembered _ _ _ _ _ _ _ _ run phased .ofCells ((takes _).2 (.inl rfl))
  have rows := remembered _ _ _ _ _ _ _ _ run phased .ofRows ((takes _).2 (.inr rfl))
  exact absurd (cells.symm.trans rows) (by decide)

end Matching

end ScreenGraph
