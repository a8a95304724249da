import Mathlib.Data.List.Basic
import Mathlib.Data.List.Count
import ScreenGraph.Output.Report
import ScreenGraph.Proofs.Labelling

namespace ScreenGraph

namespace Text

variable {c d : Char} {s p : List Char}

theorem mem_of_mem_splitOn (piece : p ∈ s.splitOn c) (mem : d ∈ p) : d ∈ s ∧ d ≠ c := by
  induction s generalizing p with
  | nil =>
    rw [List.splitOn_nil, List.mem_singleton] at piece
    subst piece
    cases mem
  | cons x r ih =>
    rw [List.splitOn_cons_eq_if_modifyHead] at piece
    split at piece
    · rcases List.mem_cons.1 piece with rfl | piece
      · cases mem
      · exact ⟨.tail _ (ih piece mem).1, (ih piece mem).2⟩
    · -- the first piece of the rest is longer by this character, the others stay
      next other =>
      obtain ⟨q, qs, cut⟩ := List.exists_cons_of_ne_nil (List.splitOn_ne_nil c r)
      rw [cut, List.modifyHead_cons, List.mem_cons] at piece
      rcases piece with rfl | piece
      · rcases List.mem_cons.1 mem with rfl | mem
        · exact ⟨.head _, by simpa using other⟩
        · have first := ih (cut ▸ .head _) mem
          exact ⟨.tail _ first.1, first.2⟩
      · have rest := ih (cut ▸ .tail _ piece) mem
        exact ⟨.tail _ rest.1, rest.2⟩

theorem length_splitOn (c : Char) (s : List Char) : (s.splitOn c).length = s.count c + 1 := by
  induction s with
  | nil => rfl
  | cons x r ih =>
    rw [List.splitOn_cons_eq_if_modifyHead, List.count_cons]
    split <;> simp [ih]

def lines (s : List Char) : List (List Char) :=
  let pieces := s.splitOn '\n'
  if pieces.getLast? = some [] then pieces.dropLast else pieces

def table (text : String) : List (List String) :=
  (lines text.toList).map fun line => (line.splitOn ';').map String.ofList

def written (rows : List (List String)) : String := String.join (rows.map Report.row)

def IsClean (field : String) : Prop := ∀ c, IsSeparator c → c ∉ field.toList

theorem isClean_iff {field : String} :
    IsClean field ↔ ';' ∉ field.toList ∧ '\n' ∉ field.toList := by
  simp [IsClean, IsSeparator]

variable {row : List String} {rows : List (List String)}

theorem lines_written (rows : List (List String)) : lines (written rows).toList =
    rows.flatMap fun row => (String.intercalate ";" row).toList.splitOn '\n' := by
  -- after the last line feed there is one more piece, which is empty
  have cut : (written rows).toList.splitOn '\n' =
      (rows.flatMap fun row => (String.intercalate ";" row).toList.splitOn '\n') ++ [[]] := by
    induction rows with
    | nil => rfl
    | cons row rows ih =>
      have first : (written (row :: rows)).toList =
          (String.intercalate ";" row).toList ++ '\n' :: (written rows).toList := by
        simp [written, Report.row]
      rw [first, List.splitOn_append_cons_self, ih, List.flatMap_cons, List.append_assoc]
  simp [lines, cut]

theorem mem_intercalate (other : c ≠ ';') :
    c ∈ (String.intercalate ";" row).toList ↔ ∃ f ∈ row, c ∈ f.toList := by
  rw [String.toList_intercalate]
  induction row with
  | nil => simp
  | cons f r ih =>
    cases r with
    | nil => simp
    | cons g r =>
      rw [List.exists_mem_cons_iff, ← ih, List.map_cons, List.map_cons,
        List.intercalate_cons_cons]
      simp [other]

theorem table_cons (some : row ≠ []) (clean : ∀ f ∈ row, IsClean f) :
    table (written (row :: rows)) = row :: table (written rows) := by
  have oneLine : '\n' ∉ (String.intercalate ";" row).toList := by
    intro mem
    obtain ⟨f, field, mem⟩ := (mem_intercalate (by decide)).1 mem
    exact clean f field _ (.inr rfl) mem
  have fields : (String.intercalate ";" row).toList.splitOn ';' = row.map String.toList := by
    rw [String.toList_intercalate]
    refine List.splitOn_intercalate ';' ?_ (by simpa using some)
    intro l mem
    obtain ⟨f, field, rfl⟩ := List.mem_map.1 mem
    exact clean f field _ (.inl rfl)
  rw [table, table, lines_written, lines_written, List.flatMap_cons,
    List.splitOn_eq_singleton oneLine, List.singleton_append, List.map_cons, fields]
  simp [Function.comp_def]

theorem clean_of_mem_table {text f : String} (mem : row ∈ table text) (field : f ∈ row) :
    IsClean f := by
  obtain ⟨line, cut, rfl⟩ := List.mem_map.1 mem
  obtain ⟨p, piece, rfl⟩ := List.mem_map.1 field
  have cut : line ∈ text.toList.splitOn '\n' := by
    unfold lines at cut
    dsimp only at cut
    split at cut
    · exact List.dropLast_subset _ cut
    · exact cut
  intro c sep held
  rw [String.toList_ofList] at held
  obtain ⟨mem, other⟩ := mem_of_mem_splitOn piece held
  rcases sep with rfl | rfl
  · exact other rfl
  · exact (mem_of_mem_splitOn cut mem).2 rfl

theorem table_written_iff (some : ∀ row ∈ rows, row ≠ []) :
    table (written rows) = rows ↔ ∀ row ∈ rows, ∀ f ∈ row, IsClean f := by
  constructor
  · intro same row mem f field
    exact clean_of_mem_table (same ▸ mem) field
  · intro clean
    induction rows with
    | nil => rfl
    | cons row rows ih =>
      obtain ⟨first, rest⟩ := List.forall_mem_cons.1 clean
      obtain ⟨filled, some⟩ := List.forall_mem_cons.1 some
      rw [table_cons filled first, ih some rest]

theorem length_table_iff : (table (written rows)).length = rows.length ↔
    ∀ row ∈ rows, ∀ f ∈ row, '\n' ∉ f.toList := by
  have length : (table (written rows)).length = rows.length +
      (rows.map fun row => (String.intercalate ";" row).toList.count '\n').sum := by
    rw [table, List.length_map, lines_written]
    induction rows with
    | nil => rfl
    | cons row rows ih =>
      rw [List.flatMap_cons, List.length_append, ih, length_splitOn, List.length_cons,
        List.map_cons, List.sum_cons]
      omega
  rw [length, Nat.add_eq_left, List.sum_eq_zero_iff_forall_eq_nat, List.forall_mem_map]
  refine forall₂_congr fun row _ => ?_
  rw [List.count_eq_zero, mem_intercalate (by decide)]
  simp only [not_exists, not_and]

end Text

end ScreenGraph
