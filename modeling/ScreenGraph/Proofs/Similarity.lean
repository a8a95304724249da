import ScreenGraph.Similarity.Score

namespace ScreenGraph

namespace EditDistance

variable {α : Type} [DecidableEq α]

def distance : List α → List α → Nat
  | [], v => v.length
  | _ :: u, [] => u.length + 1
  | x :: u, y :: v =>
    min (min (distance u (y :: v) + 1) (distance (x :: u) v + 1))
      (distance u v + if x = y then 0 else 1)

theorem distance_nil (u : List α) : distance u [] = u.length := by
  cases u <;> simp [distance]

theorem distance_comm (u v : List α) : distance u v = distance v u := by
  induction u, v using distance.induct with
  | case1 v => rw [distance_nil, distance]
  | case2 x u => simp [distance]
  | case3 x u y v down left diagonal =>
    simp only [distance, down, left, diagonal, eq_comm (a := x)]
    rw [Nat.min_comm (distance (y :: v) u + 1)]

def distances (u v : List α) : List α → List Nat
  | [] => []
  | y :: b => distance u (y :: v) :: distances u (y :: v) b

theorem distances_nil (v b : List α) : distances [] v b = List.range' (v.length + 1) b.length := by
  induction b generalizing v with
  | nil => rfl
  | cons y b ih => simp [distances, distance, ih, List.range'_succ]

theorem sweep_distances (x : α) (u v b : List α) :
    sweep x (distance (x :: u) v) (distance u v) b (distances u v b) =
      distances (x :: u) v b := by
  induction b generalizing v with
  | nil => rfl
  | cons y b ih =>
    simp only [distances, sweep]
    rw [← ih (y :: v), distance]

theorem nextRow_distances (x : α) (u b : List α) :
    nextRow b (distance u [] :: distances u [] b) x =
      distance (x :: u) [] :: distances (x :: u) [] b := by
  have first : distance u [] + 1 = distance (x :: u) [] := by rw [distance_nil, distance_nil]; rfl
  rw [nextRow, first, sweep_distances]

theorem foldl_nextRow (a u b : List α) :
    a.foldl (nextRow b) (distance u [] :: distances u [] b) =
      distance (a.reverse ++ u) [] :: distances (a.reverse ++ u) [] b := by
  induction a generalizing u with
  | nil => rfl
  | cons x a ih =>
    rw [List.foldl_cons, nextRow_distances, ih]
    simp

theorem lastRow_eq (a b : List α) :
    lastRow a b = distance a.reverse [] :: distances a.reverse [] b := by
  have first : List.range (b.length + 1) = distance (α := α) [] [] :: distances [] [] b := by
    rw [distances_nil, List.range_eq_range', List.range'_succ]
    simp [distance]
  rw [lastRow, first, foldl_nextRow, List.append_nil]

theorem getLast?_distances (u v b : List α) :
    (distance u v :: distances u v b).getLast? = some (distance u (b.reverse ++ v)) := by
  induction b generalizing v with
  | nil => rfl
  | cons y b ih => simpa [distances] using ih (y :: v)

end EditDistance

variable {α : Type} [DecidableEq α]

open EditDistance in
theorem editDistance_eq (a b : List α) : editDistance a b = distance a.reverse b.reverse := by
  rw [editDistance, lastRow_eq, getLast?_distances, List.append_nil]
  rfl

theorem editDistance_comm (a b : List α) : editDistance a b = editDistance b a := by
  rw [editDistance_eq, editDistance_eq, EditDistance.distance_comm]

theorem similarity_comm (a b : List α) : similarity a b = similarity b a := by
  rw [similarity, similarity, editDistance_comm, Nat.max_comm]

namespace Score

theorem ofResourceIds_comm (a b : String) : ofResourceIds a b = ofResourceIds b a := by
  unfold ofResourceIds
  cases Text.trim a.toList <;> cases Text.trim b.toList <;> simp [similarity_comm]

theorem ofPaths_comm (a b : String) : ofPaths a b = ofPaths b a := by
  unfold ofPaths
  cases Text.segments a.toList <;> cases Text.segments b.toList <;> simp [similarity_comm]

end Score

end ScreenGraph
