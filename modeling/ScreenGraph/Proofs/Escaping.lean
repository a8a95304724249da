import Mathlib.Algebra.Ring.Parity
import Mathlib.Data.List.DropRight
import ScreenGraph.Output.Dot

namespace ScreenGraph.Dot

variable {s t : List Char} {c : Char}

def replace (c : Char) (new s : List Char) : List Char :=
  s.flatMap fun d => if d = c then new else [d]

inductive Break
  | bareQuote | loneBackslash
  deriving DecidableEq

/-- What an escaped text says, read from left to right. -/
def unescape : List Char → Except Break (List Char)
  | [] => .ok []
  | ['\\'] => .error .loneBackslash
  | '\\' :: c :: t => (unescape t).map (c :: ·)
  | '"' :: _ => .error .bareQuote
  | c :: t => (unescape t).map (c :: ·)

def backslashes (t : List Char) : Nat := (t.rtakeWhile (· = '\\')).length

/-- A text that can stand between quotes: every quote in it comes after an odd number of
backslashes, and an even number of them comes before the closing quote. -/
structure Enclosable (t : List Char) : Prop where
  quotes : ∀ before after, t = before ++ '"' :: after → Odd (backslashes before)
  ends : Even (backslashes t)

theorem replace_cons (c : Char) (new : List Char) (d : Char) (s : List Char) :
    replace c new (d :: s) = (if d = c then new else [d]) ++ replace c new s :=
  List.flatMap_cons

theorem replace_append (c : Char) (new s t : List Char) :
    replace c new (s ++ t) = replace c new s ++ replace c new t :=
  List.flatMap_append

theorem escape_eq_replace (s : List Char) :
    escape s = replace '"' ['\\', '"'] (replace '\\' ['\\', '\\'] s) := by
  have each (c : Char) : escapeChar c =
      (if c = '\\' then ['\\', '\\'] else [c]).flatMap fun d =>
        if d = '"' then ['\\', '"'] else [d] := by
    unfold escapeChar
    by_cases slash : c = '\\'
    · simp [slash]
    · by_cases quote : c = '"' <;> simp [slash, quote]
  rw [escape, replace, replace, List.flatMap_assoc]
  exact congrArg s.flatMap (funext each)

example : escape ['\\', '"'] = ['\\', '\\', '\\', '"'] := rfl

theorem escape_append (s t : List Char) : escape (s ++ t) = escape s ++ escape t :=
  List.flatMap_append

theorem escape_eq_self (quote : '"' ∉ s) (slash : '\\' ∉ s) : escape s = s := by
  have each : ∀ c ∈ s, escapeChar c = [c] := by
    intro c mem
    refine if_neg ?_
    rintro (rfl | rfl)
    · exact quote mem
    · exact slash mem
  rw [escape, List.flatMap_congr each, List.flatMap_singleton']

theorem map_cons_eq_ok {x : Except Break (List Char)} :
    x.map (c :: ·) = .ok s ↔ ∃ r, x = .ok r ∧ c :: r = s := by
  cases x <;> simp [Except.map]

theorem ne_backslash (lone : c = '\\' → t = [] → False)
    (taken : ∀ d r, c = '\\' → t = d :: r → False) : c ≠ '\\' := by
  intro same
  cases t with
  | nil => exact lone same rfl
  | cons d r => exact taken d r same rfl

theorem unescape_cons (slash : c ≠ '\\') (quote : c ≠ '"') (t : List Char) :
    unescape (c :: t) = (unescape t).map (c :: ·) := by
  rw [unescape]
  · exact fun same _ => slash same
  · exact fun _ _ same _ => slash same
  · exact quote

theorem unescape_taken (c : Char) (t : List Char) :
    unescape ('\\' :: c :: t) = (unescape t).map (c :: ·) := by
  rw [unescape]

theorem unescape_escapeChar (c : Char) (t : List Char) :
    unescape (escapeChar c ++ t) = (unescape t).map (c :: ·) := by
  unfold escapeChar
  split
  · exact unescape_taken c t
  · next plain =>
    rw [not_or] at plain
    exact unescape_cons plain.2 plain.1 t

theorem unescape_escape (s : List Char) : unescape (escape s) = .ok s := by
  induction s with
  | nil => rfl
  | cons c s ih =>
    rw [escape, List.flatMap_cons, ← escape, unescape_escapeChar, ih]
    rfl

theorem unescape_quotes_first (mem : '"' ∈ s) :
    unescape (replace '\\' ['\\', '\\'] (replace '"' ['\\', '"'] s)) = .error .bareQuote := by
  induction s with
  | nil => cases mem
  | cons c s ih =>
    rw [replace_cons, replace_append]
    by_cases quote : c = '"'
    · rw [if_pos quote]
      rfl
    · have rest := ih (by simpa [Ne.symm quote] using mem)
      rw [if_neg quote]
      by_cases slash : c = '\\'
      · subst slash
        exact (unescape_taken '\\' _).trans (congrArg (Except.map _) rest)
      · have same : replace '\\' ['\\', '\\'] [c] = [c] := by simp [replace, slash]
        rw [same, List.singleton_append, unescape_cons slash quote, rest]
        rfl

theorem backslashes_le (t : List Char) : backslashes t ≤ t.length :=
  (List.rtakeWhile_suffix _ t).length_le

theorem backslashes_cons (c : Char) (t : List Char) : backslashes (c :: t) =
    if backslashes t = t.length ∧ c = '\\' then t.length + 1 else backslashes t := by
  simp only [backslashes, List.rtakeWhile, List.length_reverse, List.reverse_cons,
    List.takeWhile_append]
  by_cases all : (t.reverse.takeWhile (· = '\\')).length = t.length
  · by_cases slash : c = '\\' <;> simp [all, slash]
  · simp [all]

theorem backslashes_plain (slash : c ≠ '\\') (t : List Char) :
    backslashes (c :: t) = backslashes t := by
  rw [backslashes_cons, if_neg fun both => slash both.2]

theorem odd_backslashes_taken (c : Char) (t : List Char) :
    Odd (backslashes ('\\' :: c :: t)) ↔ Odd (backslashes t) := by
  have bound := backslashes_le t
  simp only [backslashes_cons, List.length_cons, and_true, Nat.odd_iff]
  split <;> split <;> omega

theorem enclosable_nil : Enclosable [] where
  quotes before after cut := by simp at cut
  ends := by simp [backslashes]

theorem not_enclosable_loneBackslash : ¬ Enclosable ['\\'] := by
  intro h
  have ends := h.ends
  revert ends
  decide

theorem not_enclosable_bareQuote (t : List Char) : ¬ Enclosable ('"' :: t) := by
  intro h
  have first := h.quotes [] t rfl
  revert first
  decide

theorem enclosable_append (step : List Char)
    (parity : ∀ t, Odd (backslashes (step ++ t)) ↔ Odd (backslashes t))
    (inside : ∀ before after, step = before ++ '"' :: after → Odd (backslashes before)) :
    Enclosable (step ++ t) ↔ Enclosable t := by
  have ends : Even (backslashes (step ++ t)) ↔ Even (backslashes t) := by
    rw [← Nat.not_odd_iff_even, parity, Nat.not_odd_iff_even]
  constructor
  · refine fun h => ⟨fun before after cut => ?_, ends.1 h.ends⟩
    rw [← parity]
    exact h.quotes (step ++ before) after (by rw [cut, List.append_assoc])
  · refine fun h => ⟨fun before after cut => ?_, ends.2 h.ends⟩
    -- the quote stands behind the step, or the step itself is cut at it
    rcases List.append_eq_append_iff.1 cut with ⟨rest, rfl, cut'⟩ | ⟨rest, split, cut'⟩
    · exact (parity rest).2 (h.quotes rest after cut')
    · cases rest with
      | nil =>
        have first := (parity []).2 (h.quotes [] after cut'.symm)
        rwa [split, List.append_nil, List.append_nil] at first
      | cons d rest =>
        cases (List.cons.inj cut').1
        exact inside before rest split

theorem enclosable_cons (slash : c ≠ '\\') (quote : c ≠ '"') :
    Enclosable (c :: t) ↔ Enclosable t := by
  refine enclosable_append [c] (fun t => ?_) fun before after cut => ?_
  · rw [List.singleton_append, backslashes_plain slash]
  · cases before with
    | nil => exact absurd (List.cons.inj cut).1 quote
    | cons d before => simp at cut

theorem enclosable_taken : Enclosable ('\\' :: c :: t) ↔ Enclosable t := by
  refine enclosable_append ['\\', c] (odd_backslashes_taken c) fun before after cut => ?_
  match before with
  | [] => cases (List.cons.inj cut).1
  | [d] =>
    -- the quote is what the backslash takes
    cases (List.cons.inj cut).1
    decide
  | d :: d' :: before => simp at cut

theorem enclosable_iff : Enclosable t ↔ ∃ s, unescape t = .ok s := by
  have goes (c : Char) (t : List Char) :
      (∃ s, (unescape t).map (c :: ·) = .ok s) ↔ ∃ s, unescape t = .ok s := by
    simp only [map_cons_eq_ok]
    exact ⟨fun ⟨_, r, ok, _⟩ => ⟨r, ok⟩, fun ⟨r, ok⟩ => ⟨c :: r, r, ok, rfl⟩⟩
  fun_induction unescape t with
  | case1 => exact iff_of_true enclosable_nil ⟨[], rfl⟩
  | case2 => exact iff_of_false not_enclosable_loneBackslash nofun
  | case3 c t ih => exact enclosable_taken.trans (ih.trans (goes c t).symm)
  | case4 t => exact iff_of_false (not_enclosable_bareQuote t) nofun
  | case5 c t lone taken quote ih =>
    exact (enclosable_cons (ne_backslash lone taken) quote).trans (ih.trans (goes c t).symm)

theorem enclosable_escape (s : List Char) : Enclosable (escape s) :=
  enclosable_iff.2 ⟨s, unescape_escape s⟩

end ScreenGraph.Dot
