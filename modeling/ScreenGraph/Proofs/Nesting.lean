import Mathlib.Data.List.Forall2
import ScreenGraph.Proofs.Transposing

namespace ScreenGraph

namespace Text

variable {s p path path' name : List Char} {ps : List (List Char)}

theorem pieces_eq_splitOn (c : Char) (s : List Char) : pieces c s = s.splitOn c := by
  induction s with
  | nil => rfl
  | cons d r ih =>
    rw [pieces, List.splitOn_cons_eq_if_modifyHead, ih]
    obtain ⟨q, qs, cut⟩ := List.exists_cons_of_ne_nil (List.splitOn_ne_nil c r)
    by_cases same : d = c <;> simp [same, cut]

def positioned (name position : List Char) : List Char := name ++ '[' :: position ++ [']']

inductive Plain : List Char → List Char → Prop
  | cut {name position : List Char} (first : '[' ∉ name) : Plain (positioned name position) name
  | whole {s : List Char} (bare : ∀ name position, s ≠ positioned name position) : Plain s s

theorem positioned_ends (name position : List Char) :
    (positioned name position).getLast? = some ']' ∧ '[' ∈ positioned name position :=
  ⟨List.getLast?_concat, by simp [positioned]⟩

theorem plainSegment_positioned (first : '[' ∉ name) (position : List Char) :
    plainSegment (positioned name position) = name := by
  have before : ∀ c ∈ name, decide (c ≠ '[') = true := fun c mem =>
    decide_eq_true fun same => first (same ▸ mem)
  rw [plainSegment, if_pos (positioned_ends ..), positioned, List.append_assoc,
    List.takeWhile_append_of_pos before, List.cons_append, List.takeWhile_cons_of_neg (by simp),
    List.append_nil]

theorem exists_positioned (last : s.getLast? = some ']') (mem : '[' ∈ s) :
    ∃ name position, '[' ∉ name ∧ s = positioned name position := by
  obtain ⟨name, rest, rfl, first⟩ := List.eq_append_cons_of_mem mem
  rw [List.getLast?_append_cons] at last
  cases rest with
  | nil => simp at last
  | cons c rest =>
    rw [List.getLast?_cons_cons] at last
    obtain ⟨position, inside⟩ := List.getLast?_eq_some_iff.1 last
    exact ⟨name, position, first, by simp [positioned, inside]⟩

theorem plain_iff : Plain s p ↔ plainSegment s = p := by
  constructor
  · intro plain
    cases plain with
    | cut first => exact plainSegment_positioned first _
    | whole bare =>
      refine if_neg ?_
      rintro ⟨last, mem⟩
      obtain ⟨name, position, -, same⟩ := exists_positioned last mem
      exact bare name position same
  · rintro rfl
    by_cases ends : s.getLast? = some ']' ∧ '[' ∈ s
    · obtain ⟨name, position, first, rfl⟩ := exists_positioned ends.1 ends.2
      rw [plainSegment_positioned first]
      exact .cut first
    · rw [plainSegment, if_neg ends]
      exact .whole fun name position same => ends (same ▸ positioned_ends name position)

def Normalises (path : List Char) (ps : List (List Char)) : Prop :=
  List.Forall₂ Plain ((path.splitOn '/').filter (· ≠ [])) ps

theorem segments_eq (path : List Char) : segments path = (path.splitOn '/').filter (· ≠ []) := by
  rw [segments, pieces_eq_splitOn]
  exact List.filter_congr fun s _ => by cases s <;> rfl

theorem normalises_iff : Normalises path ps ↔ plainSegments path = ps := by
  have plain : Plain = fun s p => plainSegment s = p := by
    funext s p
    exact propext plain_iff
  rw [Normalises, plain, ← List.forall₂_map_left_iff (R := Eq), List.forall₂_eq_eq_eq,
    plainSegments, segments_eq]

theorem plainSegments_eq_nil : plainSegments path = [] ↔ ∀ s ∈ path.splitOn '/', s = [] := by
  rw [plainSegments, segments_eq, List.map_eq_nil_iff, List.filter_eq_nil_iff]
  simp

theorem plainSegments_append (x y : List Char) :
    plainSegments (x ++ '/' :: y) = plainSegments x ++ plainSegments y := by
  simp only [plainSegments, segments_eq, List.splitOn_append_cons_self, List.filter_append,
    List.map_append]

theorem plainSegments_intercalate (ps : List (List Char)) :
    plainSegments (['/'].intercalate ps) = ps.flatMap plainSegments := by
  induction ps with
  | nil => rfl
  | cons p rest ih =>
    cases rest with
    | nil => simp
    | cons q rest =>
      rw [List.intercalate_cons_cons, List.append_assoc, List.singleton_append,
        plainSegments_append, ih, ← List.flatMap_cons]

theorem plainSegments_positioned (first : '[' ∉ name) {position : List Char}
    (whole : '/' ∉ positioned name position) :
    plainSegments (positioned name position) = [name] := by
  rw [plainSegments, segments_eq, List.splitOn_eq_singleton whole]
  have filled : positioned name position ≠ [] := by simp [positioned]
  simp [filled, plainSegment_positioned first]

inductive Repositioned : List Char → List Char → Prop
  | intro (before after : List (List Char)) {name position position' : List Char}
      (first : '[' ∉ name) (old : '/' ∉ positioned name position) (new : '/' ∉ position') :
      Repositioned (['/'].intercalate (before ++ positioned name position :: after))
        (['/'].intercalate (before ++ positioned name position' :: after))

theorem Repositioned.plainSegments (h : Repositioned path path') :
    plainSegments path' = plainSegments path := by
  obtain @⟨before, after, name, position, position', first, old, new⟩ := h
  have new' : '/' ∉ positioned name position' := by
    simp only [positioned, List.mem_append, List.mem_cons, not_or] at old ⊢
    exact ⟨⟨old.1.1, old.1.2.1, new⟩, old.2⟩
  simp only [plainSegments_intercalate, List.flatMap_append, List.flatMap_cons,
    plainSegments_positioned first old, plainSegments_positioned first new']

end Text

namespace Attributes

variable {a a' b : Attributes}

theorem isPrefixOf_shorter {x y : List (List Char)} :
    (if x.length ≤ y.length then x.isPrefixOf y else y.isPrefixOf x) = true ↔
      x <+: y ∨ y <+: x := by
  split
  · next short =>
    rw [List.isPrefixOf_iff_prefix]
    refine (or_iff_left_of_imp fun h => ?_).symm
    exact h.eq_of_length_le short ▸ List.prefix_rfl
  · next long =>
    rw [List.isPrefixOf_iff_prefix]
    refine (or_iff_right_of_imp fun h => ?_).symm
    exact h.eq_of_length_le (Nat.le_of_not_le long) ▸ List.prefix_rfl

theorem derivedFrom_iff : a.derivedFrom b = true ↔
    a.resourceId = b.resourceId ∧ a.className = b.className ∧ a.plainPath ≠ [] ∧
      b.plainPath ≠ [] ∧ (a.plainPath <+: b.plainPath ∨ b.plainPath <+: a.plainPath) := by
  simp only [derivedFrom, Bool.and_eq_true, beq_iff_eq, isPrefixOf_shorter, Bool.not_eq_true',
    List.isEmpty_eq_false_iff, and_assoc]

theorem derivedFrom_congr (resourceId : a'.resourceId = a.resourceId)
    (className : a'.className = a.className) (path : a'.plainPath = a.plainPath) :
    a'.derivedFrom b = a.derivedFrom b := by
  rw [Bool.eq_iff_iff]
  simp only [derivedFrom_iff, resourceId, className, path]

/-- To be derived from one another is to agree on identifier and class and to have paths with plain
segments of which the ones begin the others. -/
theorem derivedFrom_nests (a b : Attributes) :
    a.derivedFrom b = b.derivedFrom a ∧
    (a.derivedFrom b = true ↔ a.resourceId = b.resourceId ∧ a.className = b.className ∧
      (∃ s ∈ a.path.toList.splitOn '/', s ≠ []) ∧ (∃ s ∈ b.path.toList.splitOn '/', s ≠ []) ∧
      ∃ p q, Text.Normalises a.path.toList p ∧ Text.Normalises b.path.toList q ∧
        (p <+: q ∨ q <+: p)) ∧
    (∀ path, Text.Repositioned a.path.toList path.toList →
      derivedFrom { a with path } b = a.derivedFrom b) ∧
    ∀ path, Text.Repositioned b.path.toList path.toList →
      a.derivedFrom { b with path } = a.derivedFrom b := by
  have moved {a b : Attributes} (path : String)
      (h : Text.Repositioned a.path.toList path.toList) :
      derivedFrom { a with path } b = a.derivedFrom b := derivedFrom_congr rfl rfl h.plainSegments
  refine ⟨derivedFrom_comm a b, ?_, moved, fun path h => ?_⟩
  · have filled {a : Attributes} : a.plainPath ≠ [] ↔ ∃ s ∈ a.path.toList.splitOn '/', s ≠ [] := by
      simp only [plainPath, ne_eq, Text.plainSegments_eq_nil, not_forall, exists_prop]
    simp only [derivedFrom_iff, filled, Text.normalises_iff, exists_and_left, exists_eq_left']
    rfl
  · rw [derivedFrom_comm, moved path h, derivedFrom_comm]

example : derivedFrom { resourceId := "title", path := "/L/List/Row[3]/Text" }
    { resourceId := "title", path := "L//List[1]/Row[x][2]" } = true := by decide +kernel

end Attributes

end ScreenGraph
