import Mathlib.Data.Finmap
import Mathlib.Data.Fintype.EquivFin
import Mathlib.Order.Bounds.Defs
import ScreenGraph.Proofs.Auditing

/-!
An arena is a finite map that gives out the least free handle. The cell that an arena remembers is
no more than a bound: adding a value moves it past the cell that was filled, and removing one moves
it back. What both keep is that no cell before it is vacant, and this is why the search finds the
least free handle, whatever was added and removed before.
-/

namespace ScreenGraph

namespace Arena

inductive Operation (e : Entity) (α : Type)
  | add (v : α)
  | remove (h : Handle e)
  | write (h : Handle e) (f : α → α)

inductive Answer (e : Entity) (α : Type)
  | added (h : Handle e)
  | held (old : Option α)

variable {e : Entity} {α : Type}

def answerAll {σ : Type} (perform : σ → Operation e α → Answer e α × σ) :
    σ → List (Operation e α) → List (Answer e α) × σ
  | s, [] => ([], s)
  | s, op :: ops =>
    let (answer, s) := perform s op
    let (answers, s) := answerAll perform s ops
    (answer :: answers, s)

def perform (a : Arena e α) : Operation e α → Answer e α × Arena e α
  | .add v => (.added (a.add v).1, (a.add v).2)
  | .remove h =>
    match a.remove? h with
    | some (v, a) => (.held (some v), a)
    | none => (.held none, a)
  | .write h f => (.held (a.get? h), a.modify h f)

end Arena

abbrev Table (e : Entity) (α : Type) := Finmap fun _ : Handle e => α

namespace Table

variable {e : Entity} {α : Type}

theorem exists_free (m : Table e α) : ∃ n, (⟨n⟩ : Handle e) ∉ m := by
  obtain ⟨n, free⟩ := Infinite.exists_notMem_finset (m.keys.image Handle.slot)
  refine ⟨n, fun taken => free (Finset.mem_image.2 ⟨⟨n⟩, Finmap.mem_keys.2 taken, rfl⟩)⟩

def leastFree (m : Table e α) : Handle e := ⟨Nat.find m.exists_free⟩

def perform (m : Table e α) : Arena.Operation e α → Arena.Answer e α × Table e α
  | .add v => (.added m.leastFree, m.insert m.leastFree v)
  | .remove h => (.held (m.lookup h), m.erase h)
  | .write h f =>
    (.held (m.lookup h), match m.lookup h with
      | some v => m.insert h (f v)
      | none => m)

theorem leastFree_notMem (m : Table e α) : m.leastFree ∉ m := Nat.find_spec m.exists_free

theorem leastFree_eq {m : Table e α} {h : Handle e} (free : h ∉ m)
    (below : ∀ k : Handle e, k.slot < h.slot → k ∈ m) : m.leastFree = h := by
  refine Handle.ext ((Nat.find_eq_iff m.exists_free).2 ⟨free, fun n lt notMem => ?_⟩)
  exact notMem (below ⟨n⟩ lt)

theorem lookup_insert (m : Table e α) (h k : Handle e) (v : α) :
    (m.insert h v).lookup k = if k = h then some v else m.lookup k := by
  split
  · next same =>
    rw [same]
    exact Finmap.lookup_insert m
  · next other => exact Finmap.lookup_insert_of_ne m other

theorem lookup_erase (m : Table e α) (h k : Handle e) :
    (m.erase h).lookup k = if k = h then none else m.lookup k := by
  split
  · next same =>
    rw [same]
    exact Finmap.lookup_erase h m
  · next other => exact Finmap.lookup_erase_ne other

end Table

namespace Arena

variable {e : Entity} {α : Type}

theorem perform_remove (a : Arena e α) (h : Handle e) : a.perform (.remove h) =
    (.held (a.get? h), if a.contains h then a.vacate h else a) := by
  cases live : a.get? h <;> simp [perform, remove?, contains, live]

/-- The cells of the arena are those of the map, none is vacant before the remembered one, and as
many are occupied as the arena remembers. -/
structure Represents (a : Arena e α) (m : Table e α) : Prop where
  cells : ∀ h, a.get? h = m.lookup h
  packed : ∀ h : Handle e, h.slot < a.searchFrom → h ∈ m
  counted : a.Counted

namespace Represents

variable {a : Arena e α} {m : Table e α}

theorem empty : Represents (∅ : Arena e α) ∅ where
  cells _ := rfl
  packed h lt := absurd lt h.slot.not_lt_zero
  counted := rfl

theorem contains (h : a.Represents m) (k : Handle e) : a.contains k = true ↔ k ∈ m := by
  rw [Arena.contains, h.cells, Finmap.lookup_isSome]

theorem get_eq_ok_iff (h : a.Represents m) {k : Handle e} {v : α} :
    a.get k = .ok v ↔ m.lookup k = some v := by
  rw [Arena.get_eq_ok_iff, h.cells]

theorem get_eq_vacant_iff (h : a.Represents m) {k : Handle e} :
    a.get k = .error (.vacant k) ↔ k ∉ m := by
  rw [← Finmap.lookup_eq_none, ← h.cells, Arena.get]
  cases a.get? k <;> simp

theorem mem_of_lt_next (h : a.Represents m) {k : Handle e} (lt : k.slot < a.next.slot) :
    k ∈ m := by
  rcases Nat.lt_or_ge k.slot a.searchFrom with before | behind
  · exact h.packed k before
  have inside : k.slot < a.cells.length := lt.trans_le a.next_slot_le
  have passed : a.isVacant k.slot = false := by
    unfold next searched at lt
    cases found : (List.range' a.searchFrom (a.cells.length - a.searchFrom)).find? a.isVacant with
    | none =>
      have := List.find?_range'_eq_none.1 found k.slot behind (by omega)
      simpa using this
    | some i =>
      rw [found] at lt
      simpa using (List.find?_range'_eq_some.1 found).2.2 k.slot behind lt
  rw [← h.contains, Arena.contains, get?]
  simp only [isVacant, List.getElem?_eq_getElem inside] at passed ⊢
  cases cell : a.cells[k.slot] with
  | none => simp [cell] at passed
  | some v => rfl

theorem leastFree_eq (h : a.Represents m) : m.leastFree = a.next := by
  refine Table.leastFree_eq ?_ fun k => h.mem_of_lt_next
  rw [← Finmap.lookup_eq_none, ← h.cells]
  exact a.get?_next

theorem add (h : a.Represents m) (v : α) :
    (a.add v).2.Represents (m.insert m.leastFree v) where
  cells k := by
    rw [get?_add, Table.lookup_insert, h.leastFree_eq, h.cells]
  packed k lt := by
    rw [h.leastFree_eq, Finmap.mem_insert]
    rcases Nat.lt_succ_iff_lt_or_eq.1 lt with before | last
    · exact .inr (h.mem_of_lt_next before)
    · exact .inl (Handle.ext last)
  counted := h.counted.add v

theorem vacate (h : a.Represents m) {k : Handle e} {v : α} (live : a.get? k = some v) :
    (a.vacate k).Represents (m.erase k) where
  cells l := by
    simp only [get?_vacate, Table.lookup_erase, h.cells, eq_comm]
  packed l lt := by
    have lt : l.slot < min a.searchFrom k.slot := lt
    rw [Finmap.mem_erase]
    refine ⟨fun same => ?_, h.packed l (by omega)⟩
    rw [same] at lt
    omega
  counted := h.counted.vacate live

theorem erase_of_notMem (h : a.Represents m) {k : Handle e} (free : a.get? k = none) :
    a.Represents (m.erase k) where
  cells l := by
    rw [Table.lookup_erase]
    split
    · next same => rw [same, free]
    · exact h.cells l
  packed l lt := by
    refine Finmap.mem_erase.2 ⟨fun same => ?_, h.packed l lt⟩
    rw [same] at lt
    exact Finmap.lookup_eq_none.1 ((h.cells k).symm.trans free) (h.packed k lt)
  counted := h.counted

theorem write (h : a.Represents m) (k : Handle e) (f : α → α) :
    (a.modify k f).Represents (m.perform (.write k f)).2 := by
  cases found : m.lookup k with
  | none =>
    simp only [Table.perform, found]
    refine ⟨fun l => ?_, h.packed, h.counted.modify k f⟩
    rw [get?_modify, h.cells]
    split
    · next same => rw [← same, found]; rfl
    · rfl
  | some v =>
    simp only [Table.perform, found]
    refine ⟨fun l => ?_, fun l lt => ?_, h.counted.modify k f⟩
    · rw [get?_modify, Table.lookup_insert, h.cells]
      by_cases same : k = l
      · subst same
        simp [found]
      · simp [same, Ne.symm same]
    · exact Finmap.mem_insert.2 (.inr (h.packed l lt))

theorem perform (h : a.Represents m) (op : Operation e α) :
    (a.perform op).1 = (m.perform op).1 ∧ (a.perform op).2.Represents (m.perform op).2 := by
  cases op with
  | add v => exact ⟨congrArg Answer.added h.leastFree_eq.symm, h.add v⟩
  | remove k =>
    rw [perform_remove]
    refine ⟨congrArg Answer.held (h.cells k), ?_⟩
    cases live : a.get? k with
    | none =>
      rw [if_neg (by simp [Arena.contains, live])]
      exact h.erase_of_notMem live
    | some v =>
      rw [if_pos (contains_of_get? live)]
      exact h.vacate live
  | write k f => exact ⟨congrArg Answer.held (h.cells k), h.write k f⟩

theorem answerAll (h : a.Represents m) (ops : List (Operation e α)) :
    (answerAll Arena.perform a ops).1 = (answerAll Table.perform m ops).1 ∧
      (answerAll Arena.perform a ops).2.Represents (answerAll Table.perform m ops).2 := by
  induction ops generalizing a m with
  | nil => exact ⟨rfl, h⟩
  | cons op ops ih =>
    obtain ⟨same, next⟩ := h.perform op
    obtain ⟨rest, last⟩ := ih next
    exact ⟨congrArg₂ List.cons same rest, last⟩

theorem size_eq (h : a.Represents m) : a.size = m.keys.card := by
  have same : a.handles.toFinset = m.keys := by
    ext k
    rw [List.mem_toFinset, mem_handles, h.contains, Finmap.mem_keys]
  rw [← same, List.toFinset_card_of_nodup a.handles_nodup, h.counted.size_eq]

theorem isLeast_next (h : a.Represents m) :
    IsLeast {n | 0 < n ∧ ∀ k : Handle e, k.index = n → k ∉ m} a.next.index := by
  refine ⟨⟨a.next.index_pos, fun k same => ?_⟩, fun n free => ?_⟩
  · rw [Handle.index_injective same, ← h.leastFree_eq]
    exact m.leastFree_notMem
  · by_contra lower
    obtain ⟨i, rfl⟩ := Nat.exists_eq_succ_of_ne_zero (Nat.ne_of_gt free.1)
    refine free.2 ⟨i⟩ rfl (h.mem_of_lt_next ?_)
    exact Nat.lt_of_succ_lt_succ (Nat.lt_of_not_le lower)

end Represents

theorem handles_ascending (a : Arena e α) : (a.handles.map Handle.index).Pairwise (· < ·) := by
  have slots : (a.handles.map Handle.slot).Pairwise (· < ·) :=
    List.pairwise_lt_range.sublist a.slots_sublist
  rw [List.pairwise_map] at slots ⊢
  exact slots.imp Nat.succ_lt_succ

theorem get?_perform_remove (a : Arena e α) (h k : Handle e) :
    (a.perform (.remove h)).2.get? k = if h = k then none else a.get? k := by
  rw [perform_remove]
  by_cases live : a.contains h = true
  · rw [if_pos live, get?_vacate]
  · have vacant : a.get? h = none := by simpa [contains] using live
    rw [if_neg live]
    split
    · next same => rw [← same, vacant]
    · rfl

/-- Whatever values were added to an arena, written and removed, the arena and the map that gives
out the least free handle have answered alike, and they hold the same. -/
theorem refines_leastFree (ops : List (Operation e α)) : ∃ answers a m,
    answerAll perform ∅ ops = (answers, a) ∧ answerAll Table.perform ∅ ops = (answers, m) ∧
      -- what can be read of the arena
      (∀ h, a.get? h = m.lookup h) ∧ a.size = m.keys.card ∧
      (∀ h, a.contains h = true ↔ h ∈ m) ∧ (∀ h v, a.get h = .ok v ↔ m.lookup h = some v) ∧
      (∀ h, a.get h = .error (.vacant h) ↔ h ∉ m) ∧
      (∀ h v, (h, v) ∈ a.entries ↔ m.lookup h = some v) ∧
      (a.handles.map Handle.index).Pairwise (· < ·) ∧ (∀ h ∈ a.handles, h.index ≠ 0) ∧
      (∀ h : Handle e, h.slot < a.searchFrom → a.contains h = true) ∧
      -- what the next operation does to it
      (∀ v, IsLeast {n | 0 < n ∧ ∀ h : Handle e, h.index = n → h ∉ m} (a.add v).1.index ∧
        ∀ h, (a.add v).2.get? h = if h = (a.add v).1 then some v else a.get? h) ∧
      (∀ h, (a.perform (.remove h)).1 = .held (a.get? h) ∧
        ∀ k, (a.perform (.remove h)).2.get? k = if h = k then none else a.get? k) ∧
      (∀ h f, (a.perform (.write h f)).1 = .held (a.get? h) ∧
        ∀ k, (a.perform (.write h f)).2.get? k =
          if h = k then (a.get? k).map f else a.get? k) := by
  obtain ⟨alike, h⟩ := Represents.empty.answerAll ops
  refine ⟨_, _, _, rfl, Prod.ext alike.symm rfl, h.cells, h.size_eq, h.contains,
    fun k v => h.get_eq_ok_iff, fun k => h.get_eq_vacant_iff, fun k v => ?entries,
    handles_ascending _, fun k _ => k.index_pos.ne', fun k lt => (h.contains k).2 (h.packed k lt),
    fun v => ⟨h.isLeast_next, get?_add _ v⟩, fun k => ⟨?removed, get?_perform_remove _ k⟩,
    fun k f => ⟨rfl, fun l => get?_modify _ k l f⟩⟩
  case entries => rw [mem_entries, h.cells]
  case removed => rw [perform_remove]

example : (answerAll perform (∅ : Arena .state Nat)
    [.add 1, .add 2, .add 3, .remove ⟨1⟩, .remove ⟨1⟩, .add 4]).1 =
    [.added ⟨0⟩, .added ⟨1⟩, .added ⟨2⟩, .held (some 2), .held none, .added ⟨1⟩] := rfl

end Arena

end ScreenGraph
