/-!
Sets that remember the order in which their elements came. A new element goes to the end, one that
is already there keeps its place, and taking one out leaves the order of the rest.
-/

namespace ScreenGraph

structure OrderedSet (α : Type) where
  toList : List α
  nodup : toList.Nodup

namespace OrderedSet

variable {α : Type}

@[ext] theorem ext {s t : OrderedSet α} (h : s.toList = t.toList) : s = t := by
  cases s; cases t; simpa using h

instance : EmptyCollection (OrderedSet α) := ⟨⟨[], List.nodup_nil⟩⟩

instance : Inhabited (OrderedSet α) := ⟨∅⟩

instance : Membership α (OrderedSet α) := ⟨fun s a => a ∈ s.toList⟩

theorem mem_def {a : α} {s : OrderedSet α} : a ∈ s ↔ a ∈ s.toList := Iff.rfl

def size (s : OrderedSet α) : Nat := s.toList.length

def isEmpty (s : OrderedSet α) : Bool := s.toList.isEmpty

def first? (s : OrderedSet α) : Option α := s.toList.head?

def filter (p : α → Bool) (s : OrderedSet α) : OrderedSet α :=
  ⟨s.toList.filter p, s.nodup.sublist List.filter_sublist⟩

@[simp] theorem not_mem_empty (a : α) : a ∉ (∅ : OrderedSet α) := List.not_mem_nil

theorem isEmpty_iff {s : OrderedSet α} : s.isEmpty = true ↔ ∀ a, a ∉ s := by
  simp [isEmpty, mem_def, List.eq_nil_iff_forall_not_mem]

theorem exists_mem {s : OrderedSet α} (filled : ¬ s.isEmpty = true) : ∃ a, a ∈ s := by
  simpa [isEmpty_iff] using filled

@[simp] theorem mem_filter {s : OrderedSet α} {p : α → Bool} {b : α} :
    b ∈ s.filter p ↔ b ∈ s ∧ p b = true := by
  simp [filter, mem_def]

variable [DecidableEq α]

instance : DecidableEq (OrderedSet α) := fun s t =>
  decidable_of_iff (s.toList = t.toList) ⟨ext, congrArg toList⟩

instance (a : α) (s : OrderedSet α) : Decidable (a ∈ s) :=
  inferInstanceAs (Decidable (a ∈ s.toList))

def insert (s : OrderedSet α) (a : α) : OrderedSet α :=
  if h : a ∈ s.toList then s
  else ⟨s.toList ++ [a], List.nodup_append.2
    ⟨s.nodup, by simp, fun b hb c hc => by simp at hc; subst hc; exact fun e => h (e ▸ hb)⟩⟩

def insertMany (s : OrderedSet α) (xs : List α) : OrderedSet α := xs.foldl insert s

def ofList (xs : List α) : OrderedSet α := insertMany ∅ xs

def erase (s : OrderedSet α) (a : α) : OrderedSet α :=
  ⟨s.toList.erase a, s.nodup.sublist List.erase_sublist⟩

def eraseMany (s : OrderedSet α) (xs : List α) : OrderedSet α := xs.foldl erase s

theorem toList_insert (s : OrderedSet α) (a : α) :
    (s.insert a).toList = if a ∈ s then s.toList else s.toList ++ [a] := by
  by_cases h : a ∈ s.toList <;> simp [insert, mem_def, h]

@[simp] theorem mem_insert {s : OrderedSet α} {a b : α} : b ∈ s.insert a ↔ b ∈ s ∨ b = a := by
  by_cases h : a ∈ s.toList
  · simp only [insert, h, dite_true, mem_def]
    exact ⟨Or.inl, fun hb => hb.elim id fun e => e ▸ h⟩
  · simp [insert, h, mem_def]

@[simp] theorem mem_insertMany {s : OrderedSet α} {xs : List α} {b : α} :
    b ∈ s.insertMany xs ↔ b ∈ s ∨ b ∈ xs := by
  induction xs generalizing s with
  | nil => simp [insertMany]
  | cons a r ih =>
    have := ih (s := s.insert a)
    simp only [insertMany, List.foldl_cons] at this ⊢
    rw [this, mem_insert, List.mem_cons, or_assoc]

@[simp] theorem mem_ofList {xs : List α} {b : α} : b ∈ ofList xs ↔ b ∈ xs := by
  simp [ofList]

@[simp] theorem mem_erase {s : OrderedSet α} {a b : α} : b ∈ s.erase a ↔ b ∈ s ∧ b ≠ a := by
  simp [erase, mem_def, s.nodup.mem_erase_iff, and_comm]

@[simp] theorem mem_eraseMany {s : OrderedSet α} {xs : List α} {b : α} :
    b ∈ s.eraseMany xs ↔ b ∈ s ∧ b ∉ xs := by
  induction xs generalizing s with
  | nil => simp [eraseMany]
  | cons a r ih =>
    have := ih (s := s.erase a)
    simp only [eraseMany, List.foldl_cons] at this ⊢
    rw [this, mem_erase, List.mem_cons, not_or, and_assoc]

end OrderedSet

end ScreenGraph
