/-!
What is read off a text. Blank characters are those with the Unicode property White_Space, so that
control characters which merely separate records, such as U+001C, are not blank. A structural path
such as `/FrameLayout/ListView/TextView[2]` is the list of its segments, the non-empty pieces
between slashes, and the plain form of a segment drops a position suffix, so that the items of one
list have one plain path.
-/

namespace ScreenGraph.Text

def blankChars : List Char :=
  ['\t', '\n', '\x0b', '\x0c', '\r', ' ', '\u0085', '\u00a0', '\u1680',
   '\u2000', '\u2001', '\u2002', '\u2003', '\u2004', '\u2005', '\u2006', '\u2007', '\u2008',
   '\u2009', '\u200a', '\u2028', '\u2029', '\u202f', '\u205f', '\u3000']

def isBlank (c : Char) : Bool := blankChars.contains c

def trim (s : List Char) : List Char :=
  ((s.dropWhile isBlank).reverse.dropWhile isBlank).reverse

def isBlankText (s : String) : Bool := s.toList.all isBlank

theorem dropWhile_isBlank_eq_nil {s : List Char} :
    s.dropWhile isBlank = [] ↔ s.all isBlank = true := by
  induction s with
  | nil => simp
  | cons c r ih => cases hc : isBlank c <;> simp [hc, ih]

theorem trim_eq_nil_iff {s : List Char} : trim s = [] ↔ s.all isBlank = true := by
  rw [trim, List.reverse_eq_nil_iff, dropWhile_isBlank_eq_nil, List.all_reverse]
  induction s with
  | nil => rfl
  | cons c r ih => cases hc : isBlank c <;> simp_all

def pieces (separator : Char) : List Char → List (List Char)
  | [] => [[]]
  | c :: r =>
    if c = separator then [] :: pieces separator r
    else match pieces separator r with
      | [] => [[c]]
      | p :: ps => (c :: p) :: ps

def segments (path : List Char) : List (List Char) :=
  (pieces '/' path).filter fun p => !p.isEmpty

/-- Cuts a segment that ends in a bracket at the first bracket that it opens. -/
def plainSegment (s : List Char) : List Char :=
  if s.getLast? = some ']' ∧ '[' ∈ s then s.takeWhile (· ≠ '[') else s

def plainSegments (path : List Char) : List (List Char) := (segments path).map plainSegment

def pathSegments (path : String) : List String := (segments path.toList).map String.ofList

def occursIn (part : List Char) : List Char → Bool
  | [] => part.isEmpty
  | c :: r => part.isPrefixOf (c :: r) || occursIn part r

end ScreenGraph.Text
