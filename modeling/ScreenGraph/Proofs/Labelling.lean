import Mathlib.Tactic.SplitIfs
import ScreenGraph.Action.Basic

namespace ScreenGraph

namespace Text

/-- The characters that a report is cut at: lines end at a line feed, and fields at a semicolon. -/
def IsSeparator (c : Char) : Prop := c = ';' ∨ c = '\n'

variable {c d : Char}

theorem IsSeparator.not_mem_toDigits (sep : IsSeparator c) {b n : Nat} (large : 1 < b) :
    c ∉ Nat.toDigits b n := by
  have other (n : Nat) : c ≠ Nat.digitChar n := by
    rcases sep with rfl | rfl <;> exact (Nat.digitChar_ne _ rfl).symm
  induction n using Nat.strongRecOn with
  | ind n ih =>
    rw [Nat.toDigits_eq_if large]
    split
    · simp [other n]
    · have less : n / b < n := Nat.div_lt_self (by omega) large
      simp [ih _ less, other (n % b)]

theorem IsSeparator.not_mem_toString (sep : IsSeparator c) (n : Nat) : c ∉ (toString n).toList := by
  rw [Nat.toString_eq_repr, Nat.toList_repr]
  exact sep.not_mem_toDigits (by decide)

theorem IsSeparator.not_mem_codePoint (sep : IsSeparator c) : c ∉ codePoint d := by
  have digits : c ∉ Nat.toDigits 16 d.toNat := sep.not_mem_toDigits (by decide)
  rcases sep with rfl | rfl <;> simp [codePoint, digits]

theorem isShownAlone_semicolon : isShownAlone ';' = true := by decide +kernel

theorem IsSeparator.mem_quotedChar (sep : IsSeparator c) : c ∈ quotedChar d ↔ d = c ∧ c ≠ '\n' := by
  by_cases same : d = c
  · subst same
    rcases sep with rfl | rfl
    · simp [quotedChar, isShownAlone_semicolon]
    · simp [quotedChar]
  · have code := sep.not_mem_codePoint (d := d)
    have others : c ∉ ['\\', d] ∧ c ∉ ['\\', 't'] ∧ c ∉ ['\\', 'n'] ∧ c ∉ ['\\', 'r'] ∧
        c ∉ ['\\', '0'] ∧ c ∉ [d] := by
      rcases sep with rfl | rfl <;> simp [Ne.symm same]
    simp only [same, false_and, iff_false]
    unfold quotedChar
    split_ifs <;> simp only [others, code, not_false_eq_true]

theorem IsSeparator.mem_quoted (sep : IsSeparator c) {s : String} :
    c ∈ (quoted s).toList ↔ c ∈ s.toList ∧ c ≠ '\n' := by
  have quote : c ≠ '"' := by rcases sep with rfl | rfl <;> decide
  simp only [quoted, String.toList_ofList, List.mem_append, List.mem_flatMap, sep.mem_quotedChar,
    List.mem_singleton, quote, or_false, false_or]
  constructor
  · rintro ⟨_, mem, rfl, other⟩
    exact ⟨mem, other⟩
  · exact fun ⟨mem, other⟩ => ⟨c, mem, rfl, other⟩

end Text

variable {c : Char}

theorem Handle.not_mem_label (a : AvmId) (sep : Text.IsSeparator c) : c ∉ a.label.toList := by
  have digits := sep.not_mem_toString a.index
  have letter : c ∉ (Entity.letter .avm).toList := by rcases sep with rfl | rfl <;> decide
  rw [label, String.toList_append, List.mem_append, not_or]
  exact ⟨letter, digits⟩

theorem ActionKind.mem_label {k : ActionKind} (sep : Text.IsSeparator c) :
    c ∈ k.label.toList ↔ c ∈ k.data.toList ∧ (c = '\n' → k.type = .sendIntent) := by
  cases k with
  | swipe d => rcases sep with rfl | rfl <;> cases d <;> decide
  | textInsert text =>
    have quoted := sep.mem_quoted (s := text)
    rcases sep with rfl | rfl <;> simp [label, data, type, quoted]
  | sendIntent intent => rcases sep with rfl | rfl <;> simp [label, data, type]
  | _ => rcases sep with rfl | rfl <;> decide

theorem Action.mem_label {a : Action} (sep : Text.IsSeparator c) :
    c ∈ a.label.toList ↔ c ∈ a.kind.data.toList ∧ (c = '\n' → a.type = .sendIntent) := by
  rw [type, ← ActionKind.mem_label sep]
  unfold label
  cases a.target with
  | none => rfl
  | some v =>
    have sign : c ∉ "@".toList := by rcases sep with rfl | rfl <;> decide
    simp only [String.toList_append, List.mem_append, sign, v.not_mem_label sep, or_false]

end ScreenGraph
