import ScreenGraph.Action.Basic
import ScreenGraph.Text.Basic

/-!
Scores of a pair of attribute valuations. A score is a similarity between zero and one, where one
means equal. An attribute that both sides lack says nothing, and a resource identifier that only one
side has vetoes the pair.
-/

namespace ScreenGraph.EditDistance

variable {α : Type} [DecidableEq α]

/-- The rest of the next row, from the entry to the left and the entry diagonally above. -/
def sweep (x : α) : (left diagonal : Nat) → List α → List Nat → List Nat
  | left, diagonal, y :: ys, above :: row =>
    let here := min (min (above + 1) (left + 1)) (diagonal + if x = y then 0 else 1)
    here :: sweep x here above ys row
  | _, _, _, _ => []

def nextRow (b : List α) (row : List Nat) (x : α) : List Nat :=
  match row with
  | [] => []
  | first :: rest => (first + 1) :: sweep x (first + 1) first b rest

def lastRow (a b : List α) : List Nat := a.foldl (nextRow b) (List.range (b.length + 1))

end ScreenGraph.EditDistance

namespace ScreenGraph

open EditDistance in
def editDistance {α : Type} [DecidableEq α] (a b : List α) : Nat := (lastRow a b).getLast?.getD 0

structure Policy where
  /-- Every score of an accepted pair exceeds this. -/
  lower : Float := 0.4
  /-- Some score of an accepted pair exceeds this, or reaches `perfect`. -/
  strong : Float := 0.95
  perfect : Float := 1.0
  disjointWidgets : Bool := true
  strictScan : Bool := true
  excluded : List ActionType := [.pressHome]

namespace Policy

def exclude (p : Policy) (t : ActionType) : Policy :=
  if t ∈ p.excluded then p else { p with excluded := p.excluded ++ [t] }

def isExcluded (p : Policy) (t : ActionType) : Bool := decide (t ∈ p.excluded)

end Policy

def similarity {α : Type} [DecidableEq α] (a b : List α) : Float :=
  let longest := max a.length b.length
  if longest = 0 then 1.0 else 1.0 - (editDistance a b).toFloat / longest.toFloat

inductive Score
  | notApplicable
  | veto
  | value (v : Float)

namespace Score

def value? : Score → Option Float
  | .value v => some v
  | _ => none

def ofResourceIds (a b : String) : Score :=
  match Text.trim a.toList, Text.trim b.toList with
  | [], [] => .notApplicable
  | [], _ :: _ | _ :: _, [] => .veto
  | a, b => .value (similarity a b)

def ofPaths (a b : String) : Score :=
  match Text.segments a.toList, Text.segments b.toList with
  | [], _ | _, [] => .notApplicable
  | a, b => .value (similarity a b)

def isVeto : Score → Bool
  | .veto => true
  | _ => false

/-- A pair is accepted if nothing vetoes it, some score applies, all that apply exceed the lower
threshold, and one of them is strong or perfect. -/
def accept (scores : List Score) (p : Policy) : Bool :=
  let values := scores.filterMap value?
  !scores.any isVeto && !values.isEmpty && values.all (fun v => v > p.lower) &&
    values.any fun v => v ≥ p.perfect || v > p.strong

def mean (scores : List Score) : Float :=
  match scores.filterMap value? with
  | [] => 0.0
  | values => values.foldl (· + ·) (-0.0) / values.length.toFloat

end Score

def signBit : Nat := 0x8000000000000000

/-- The place of a number in the total order of its bits, in which a negative zero comes before a
positive one. -/
def orderRank (x : Float) : Int :=
  let bits := x.toBits.toNat
  if bits < signBit then .ofNat bits else .negSucc (bits - signBit)

end ScreenGraph
