import ScreenGraph.Store.Fault

/-!
Storage cells addressed by handles. A removed value leaves a vacant cell behind, and a new value
goes into the first vacant cell. The search for it starts from a remembered cell before which none
is vacant, so it never walks over the occupied cells at the front.
-/

namespace ScreenGraph

structure Arena (e : Entity) (α : Type) where
  cells : List (Option α) := []
  searchFrom : Nat := 0
  size : Nat := 0

namespace Arena

variable {e : Entity} {α : Type}

instance : EmptyCollection (Arena e α) := ⟨{}⟩

instance : Inhabited (Arena e α) := ⟨∅⟩

def isEmpty (a : Arena e α) : Bool := a.size == 0

def get? (a : Arena e α) (h : Handle e) : Option α := a.cells[h.slot]?.join

def contains (a : Arena e α) (h : Handle e) : Bool := (a.get? h).isSome

def get (a : Arena e α) (h : Handle e) : Checked α :=
  match a.get? h with
  | some v => .ok v
  | none => .error (.vacant h)

def modify (a : Arena e α) (h : Handle e) (f : α → α) : Arena e α :=
  { a with cells := a.cells.modify h.slot (Option.map f) }

def update (a : Arena e α) (h : Handle e) (f : α → α) : Checked (Arena e α) := do
  let _ ← a.get h
  return a.modify h f

def isVacant (a : Arena e α) (slot : Nat) : Bool :=
  match a.cells[slot]? with
  | some none => true
  | _ => false

def searched (a : Arena e α) : List Nat :=
  List.range' a.searchFrom (a.cells.length - a.searchFrom)

/-- The cell that takes the next value: the first vacant one, else a new one at the end. -/
def next (a : Arena e α) : Handle e := ⟨(a.searched.find? a.isVacant).getD a.cells.length⟩

def add (a : Arena e α) (v : α) : Handle e × Arena e α :=
  let slot := a.next.slot
  let cells := if slot < a.cells.length then a.cells.set slot (some v) else a.cells ++ [some v]
  (a.next, { cells, searchFrom := slot + 1, size := a.size + 1 })

def vacate (a : Arena e α) (h : Handle e) : Arena e α where
  cells := a.cells.set h.slot none
  searchFrom := min a.searchFrom h.slot
  size := a.size - 1

def remove? (a : Arena e α) (h : Handle e) : Option (α × Arena e α) :=
  (a.get? h).map fun v => (v, a.vacate h)

def entries (a : Arena e α) : List (Handle e × α) :=
  a.cells.zipIdx.filterMap fun (v, i) => v.map fun v => (⟨i⟩, v)

def handles (a : Arena e α) : List (Handle e) := a.entries.map Prod.fst

theorem get_eq_ok_iff {a : Arena e α} {h : Handle e} {v : α} :
    a.get h = .ok v ↔ a.get? h = some v := by
  unfold get; cases a.get? h <;> simp

theorem contains_iff {a : Arena e α} {h : Handle e} :
    a.contains h = true ↔ ∃ v, a.get? h = some v := by
  simp [contains, Option.isSome_iff_exists]

theorem contains_of_get? {a : Arena e α} {h : Handle e} {v : α} (live : a.get? h = some v) :
    a.contains h = true := contains_iff.2 ⟨v, live⟩

theorem update_eq_ok {a b : Arena e α} {h : Handle e} {f : α → α} :
    a.update h f = .ok b ↔ a.contains h = true ∧ b = a.modify h f := by
  cases live : a.get? h <;>
    simp [update, get, contains, live, bind, Except.bind, pure, Except.pure, eq_comm]

theorem get?_modify (a : Arena e α) (h k : Handle e) (f : α → α) :
    (a.modify h f).get? k = if h = k then (a.get? k).map f else a.get? k := by
  obtain ⟨i⟩ := h
  obtain ⟨j⟩ := k
  simp only [get?, modify, Handle.mk.injEq, List.getElem?_modify]
  by_cases hij : i = j
  · subst hij; cases a.cells[i]? with
    | none => simp
    | some v => cases v <;> simp
  · simp [hij]

theorem next_slot_le (a : Arena e α) : a.next.slot ≤ a.cells.length := by
  unfold next
  cases h : a.searched.find? a.isVacant with
  | none => simp
  | some i =>
    have := List.mem_of_find?_eq_some h
    simp only [searched, List.mem_range'_1] at this
    simp only [Option.getD_some]
    omega

theorem cell_next {a : Arena e α} (h : a.next.slot < a.cells.length) :
    a.cells[a.next.slot]? = some none := by
  unfold next at h ⊢
  cases hf : a.searched.find? a.isVacant with
  | none => simp [hf] at h
  | some i =>
    have := List.find?_some hf
    simp only [Option.getD_some]
    revert this
    unfold isVacant
    split <;> simp_all

@[simp] theorem get?_next (a : Arena e α) : a.get? a.next = none := by
  rcases Nat.lt_or_ge a.next.slot a.cells.length with h | h
  · simp [get?, cell_next h]
  · simp [get?, List.getElem?_eq_none h]

@[simp] theorem add_fst (a : Arena e α) (v : α) : (a.add v).1 = a.next := rfl

theorem get?_add (a : Arena e α) (v : α) (h : Handle e) :
    (a.add v).2.get? h = if h = a.next then some v else a.get? h := by
  have hle := a.next_slot_le
  by_cases hlt : a.next.slot < a.cells.length
  · by_cases hn : h = a.next
    · simp [add, get?, hn, hlt]
    · have hs : a.next.slot ≠ h.slot := fun e => hn (Handle.ext e.symm)
      simp [add, get?, hn, hlt, hs]
  · have hlen : a.next.slot = a.cells.length := by omega
    by_cases hn : h = a.next
    · simp [add, get?, hn, hlen]
    · have hs : h.slot ≠ a.cells.length := fun e => hn (Handle.ext (e.trans hlen.symm))
      simp only [add, get?, hn, hlt, if_false, List.getElem?_append]
      by_cases hb : h.slot < a.cells.length
      · simp [hb]
      · simp [hb, show h.slot - a.cells.length ≠ 0 by omega]

theorem get?_vacate (a : Arena e α) (h k : Handle e) :
    (a.vacate h).get? k = if h = k then none else a.get? k := by
  obtain ⟨i⟩ := h
  obtain ⟨j⟩ := k
  by_cases hij : i = j
  · subst hij
    by_cases hi : i < a.cells.length <;> simp [get?, vacate, hi]
  · simp [get?, vacate, hij]

theorem mem_entries {a : Arena e α} {h : Handle e} {v : α} :
    (h, v) ∈ a.entries ↔ a.get? h = some v := by
  obtain ⟨i⟩ := h
  simp only [entries, List.mem_filterMap, get?, Prod.exists, List.mem_zipIdx_iff_getElem?]
  constructor
  · rintro ⟨c, j, hc, hv⟩
    obtain ⟨w, rfl, hw⟩ := Option.map_eq_some_iff.1 hv
    simp only [Prod.mk.injEq, Handle.mk.injEq] at hw
    obtain ⟨rfl, rfl⟩ := hw
    simp [hc]
  · intro hg
    exact ⟨some v, i, Option.join_eq_some_iff.1 hg, by simp⟩

end Arena

end ScreenGraph
