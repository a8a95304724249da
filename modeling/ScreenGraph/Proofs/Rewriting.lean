import Mathlib.Data.Nat.Basic
import Mathlib.Order.Bounds.Defs
import Mathlib.Order.MinMax
import ScreenGraph.Proofs.Similarity

namespace ScreenGraph

namespace EditDistance

section

variable {α : Type} {n m : Nat} {u v w : List α}

/-- One element is put in, taken out or exchanged, at the head of a list or further on. -/
inductive Change : List α → List α → Prop
  | insert (y : α) (u : List α) : Change u (y :: u)
  | delete (x : α) (u : List α) : Change (x :: u) u
  | substitute (x y : α) (u : List α) : Change (x :: u) (y :: u)
  | cons (x : α) {u v : List α} (rest : Change u v) : Change (x :: u) (x :: v)

inductive Script : Nat → List α → List α → Prop
  | nil (u : List α) : Script 0 u u
  | step {n : Nat} {u v w : List α} (before : Script n u v) (last : Change v w) :
      Script (n + 1) u w

inductive Aligned : Nat → List α → List α → Prop
  | nil : Aligned 0 [] []
  | keep (x : α) {n : Nat} {u v : List α} (rest : Aligned n u v) : Aligned n (x :: u) (x :: v)
  | substitute (x y : α) {n : Nat} {u v : List α} (rest : Aligned n u v) :
      Aligned (n + 1) (x :: u) (y :: v)
  | delete (x : α) {n : Nat} {u v : List α} (rest : Aligned n u v) : Aligned (n + 1) (x :: u) v
  | insert (y : α) {n : Nat} {u v : List α} (rest : Aligned n u v) : Aligned (n + 1) u (y :: v)

namespace Change

theorem prepend (h : Change u v) (w : List α) : Change (w ++ u) (w ++ v) := by
  induction w with
  | nil => exact h
  | cons x w ih => exact ih.cons x

theorem append (h : Change u v) (w : List α) : Change (u ++ w) (v ++ w) := by
  induction h with
  | insert y u => exact .insert y (u ++ w)
  | delete x u => exact .delete x (u ++ w)
  | substitute x y u => exact .substitute x y (u ++ w)
  | cons x rest ih => exact ih.cons x

theorem reverse (h : Change u v) : Change u.reverse v.reverse := by
  induction h with
  | insert y u => simpa using (Change.insert y []).prepend u.reverse
  | delete x u => simpa using (Change.delete x []).prepend u.reverse
  | substitute x y u => simpa using (Change.substitute x y []).prepend u.reverse
  | cons x rest ih => simpa using ih.append [x]

theorem length_le (h : Change u v) : u.length ≤ v.length + 1 ∧ v.length ≤ u.length + 1 := by
  induction h <;> simp only [List.length_cons] <;> omega

end Change

namespace Script

theorem cons (h : Script n u v) (x : α) : Script n (x :: u) (x :: v) := by
  induction h with
  | nil u => exact .nil (x :: u)
  | step before last ih => exact ih.step (last.cons x)

theorem trans (h : Script n u v) (h' : Script m v w) : Script (n + m) u w := by
  induction h' with
  | nil => exact h
  | step before last ih => exact (ih h).step last

theorem reverse (h : Script n u v) : Script n u.reverse v.reverse := by
  induction h with
  | nil u => exact .nil u.reverse
  | step before last ih => exact ih.step last.reverse

theorem reverse_iff : Script n u.reverse v.reverse ↔ Script n u v :=
  ⟨fun h => by simpa using h.reverse, reverse⟩

theorem zero_iff : Script 0 u v ↔ u = v := by
  constructor
  · rintro ⟨⟩
    rfl
  · rintro rfl
    exact .nil u

theorem length_le (h : Script n u v) : u.length ≤ v.length + n ∧ v.length ≤ u.length + n := by
  induction h with
  | nil => simp
  | step before last ih =>
    have := last.length_le
    omega

end Script

namespace Aligned

theorem refl (u : List α) : Aligned 0 u u := by
  induction u with
  | nil => exact .nil
  | cons x u ih => exact ih.keep x

theorem deleteAll (u : List α) : Aligned u.length u [] := by
  induction u with
  | nil => exact .nil
  | cons x u ih => exact ih.delete x

theorem insertAll (v : List α) : Aligned v.length [] v := by
  induction v with
  | nil => exact .nil
  | cons y v ih => exact ih.insert y

theorem script (h : Aligned n u v) : Script n u v := by
  induction h with
  | nil => exact .nil []
  | keep x rest ih => exact ih.cons x
  | substitute x y rest ih => exact (ih.cons x).step (.substitute x y _)
  | delete x rest ih => exact (ih.cons x).step (.delete x _)
  | insert y rest ih => exact ih.step (.insert y _)

theorem change (h : Aligned n u v) (c : Change v w) : ∃ m ≤ n + 1, Aligned m u w := by
  induction h generalizing w with
  | nil =>
    cases c with
    | insert z => exact ⟨1, by simp, .insert z .nil⟩
  | @keep x n u v rest ih =>
    cases c with
    | insert z => exact ⟨n + 1, le_rfl, (rest.keep x).insert z⟩
    | delete => exact ⟨n + 1, le_rfl, rest.delete x⟩
    | substitute _ z => exact ⟨n + 1, le_rfl, rest.substitute x z⟩
    | cons _ c =>
      obtain ⟨m, le, aligned⟩ := ih c
      exact ⟨m, le, aligned.keep x⟩
  | @substitute x y n u v rest ih =>
    cases c with
    | insert z => exact ⟨n + 2, le_rfl, (rest.substitute x y).insert z⟩
    | delete => exact ⟨n + 1, by simp, rest.delete x⟩
    | substitute _ z => exact ⟨n + 1, by simp, rest.substitute x z⟩
    | cons _ c =>
      obtain ⟨m, le, aligned⟩ := ih c
      exact ⟨m + 1, by simpa, aligned.substitute x y⟩
  | delete x rest ih =>
    obtain ⟨m, le, aligned⟩ := ih c
    exact ⟨m + 1, by simpa, aligned.delete x⟩
  | @insert y n u v rest ih =>
    cases c with
    | insert z => exact ⟨n + 2, le_rfl, (rest.insert y).insert z⟩
    | delete => exact ⟨n, by omega, rest⟩
    | substitute _ z => exact ⟨n + 1, by simp, rest.insert z⟩
    | cons _ c =>
      obtain ⟨m, le, aligned⟩ := ih c
      exact ⟨m + 1, by simpa, aligned.insert y⟩

end Aligned

theorem Script.aligned (h : Script n u v) : ∃ m ≤ n, Aligned m u v := by
  induction h with
  | nil u => exact ⟨0, le_rfl, .refl u⟩
  | step before last ih =>
    obtain ⟨m, le, aligned⟩ := ih
    obtain ⟨k, le', aligned⟩ := aligned.change last
    exact ⟨k, by omega, aligned⟩

end

variable {α : Type} [DecidableEq α] {n : Nat} {u v : List α}

theorem aligned_distance (u v : List α) : Aligned (distance u v) u v := by
  induction u, v using distance.induct with
  | case1 v =>
    rw [distance]
    exact .insertAll v
  | case2 x u =>
    rw [distance_nil]
    exact .deleteAll (x :: u)
  | case3 x u y v down left diagonal =>
    rw [distance]
    -- the least of the three prices is the price of the step that it stands for
    rcases min_choice (min (distance u (y :: v) + 1) (distance (x :: u) v + 1))
      (distance u v + if x = y then 0 else 1) with least | least
    · rw [least]
      rcases min_choice (distance u (y :: v) + 1) (distance (x :: u) v + 1) with least | least
      · rw [least]
        exact down.delete x
      · rw [least]
        exact left.insert y
    · rw [least]
      split
      · next same =>
        rw [← same]
        exact diagonal.keep x
      · exact diagonal.substitute x y

theorem distance_cons_le (x : α) (u v : List α) : distance (x :: u) v ≤ distance u v + 1 := by
  cases v with
  | nil => simp [distance_nil]
  | cons y v =>
    rw [distance]
    exact (Nat.min_le_left _ _).trans (Nat.min_le_left _ _)

theorem distance_cons_cons_le (x y : α) (u v : List α) :
    distance (x :: u) (y :: v) ≤ distance u v + if x = y then 0 else 1 := by
  rw [distance]
  exact Nat.min_le_right _ _

theorem Aligned.distance_le (h : Aligned n u v) : distance u v ≤ n := by
  induction h with
  | nil => simp [distance]
  | keep x rest ih => exact (distance_cons_cons_le x x _ _).trans (by simpa using ih)
  | substitute x y rest ih =>
    refine (distance_cons_cons_le x y _ _).trans ?_
    split <;> omega
  | delete x rest ih => exact (distance_cons_le x _ _).trans (Nat.succ_le_succ ih)
  | insert y rest ih =>
    rw [distance_comm] at ih ⊢
    exact (distance_cons_le y _ _).trans (Nat.succ_le_succ ih)

theorem isLeast_distance (u v : List α) : IsLeast {n | Script n u v} (distance u v) := by
  refine ⟨(aligned_distance u v).script, fun n script => ?_⟩
  obtain ⟨m, le, aligned⟩ := script.aligned
  exact aligned.distance_le.trans le

theorem distance_le_max (u v : List α) : distance u v ≤ max u.length v.length := by
  induction u, v using distance.induct with
  | case1 v => simp [distance]
  | case2 x u => simp [distance_nil]
  | case3 x u y v _ _ diagonal =>
    refine (distance_cons_cons_le x y u v).trans ?_
    simp only [List.length_cons]
    split <;> omega

end EditDistance

open EditDistance

variable {α : Type} [DecidableEq α]

theorem editDistance_isLeast (a b : List α) : IsLeast {n | Script n a b} (editDistance a b) := by
  rw [editDistance_eq]
  simpa only [Script.reverse_iff] using isLeast_distance a.reverse b.reverse

/-- The value that is left in the row is the least number of changes that turn one list into the
other, among all scripts of any length. So it is a metric, and it lies between the difference and
the maximum of the two lengths. -/
theorem editDistance_counts (a b : List α) :
    IsLeast {n | Script n a b} (editDistance a b) ∧
      (editDistance a b = 0 ↔ a = b) ∧ editDistance a b = editDistance b a ∧
      (∀ c, editDistance a c ≤ editDistance a b + editDistance b c) ∧
      max a.length b.length - min a.length b.length ≤ editDistance a b ∧
      editDistance a b ≤ max a.length b.length := by
  obtain ⟨script, least⟩ := editDistance_isLeast a b
  refine ⟨⟨script, least⟩, ⟨?_, ?_⟩, editDistance_comm a b, fun c => ?_, ?_, ?_⟩
  · intro zero
    rw [zero] at script
    exact Script.zero_iff.1 script
  · exact fun same => Nat.le_zero.1 (least (Script.zero_iff.2 same))
  · exact (editDistance_isLeast a c).2 (script.trans (editDistance_isLeast b c).1)
  · have lengths := Script.length_le script
    omega
  · rw [editDistance_eq]
    simpa using distance_le_max a.reverse b.reverse

example : editDistance "kitten".toList "sitting".toList = 3 := by decide

end ScreenGraph
