import ScreenGraph.Store.Fault
import ScreenGraph.Store.OrderedSet

namespace ScreenGraph

variable {α β : Type}

def require (holds : Bool) (fault : Fault) : Checked Unit :=
  if holds then .ok () else .error fault

theorem Checked.bind_eq_ok {x : Checked α} {f : α → Checked β} {b : β} :
    x >>= f = .ok b ↔ ∃ a, x = .ok a ∧ f a = .ok b := by
  cases x <;> simp [bind, Except.bind]

@[simp] theorem require_eq_ok {holds : Bool} {fault : Fault} {u : Unit} :
    require holds fault = .ok u ↔ holds = true := by
  cases holds <;> simp [require]

def flatMapChecked (f : α → Checked (List β)) : List α → Checked (List β)
  | [] => .ok []
  | a :: r => do
    let bs ← f a
    let rest ← flatMapChecked f r
    return bs ++ rest

def filterMapChecked (f : α → Checked (Option β)) (xs : List α) : Checked (List β) :=
  flatMapChecked (fun a => return (← f a).toList) xs

def filterChecked (test : α → Checked Bool) (xs : List α) : Checked (List α) :=
  filterMapChecked (fun a => return if ← test a then some a else none) xs

def findChecked (test : α → Checked Bool) : List α → Checked (Option α)
  | [] => .ok none
  | a :: r => do if ← test a then return some a else findChecked test r

def findMapChecked (f : α → Checked (Option β)) : List α → Checked (Option β)
  | [] => .ok none
  | a :: r => do
    match ← f a with
    | some b => return some b
    | none => findMapChecked f r

def anyChecked (test : α → Checked Bool) : List α → Checked Bool
  | [] => .ok false
  | a :: r => do if ← test a then return true else anyChecked test r

def foldChecked (f : β → α → Checked β) : β → List α → Checked β
  | b, [] => .ok b
  | b, a :: r => do foldChecked f (← f b a) r

def OrderedSet.filterChecked [DecidableEq α] (test : α → Checked Bool) (s : OrderedSet α) :
    Checked (OrderedSet α) :=
  return .ofList (← ScreenGraph.filterChecked test s.toList)

theorem flatMapChecked_ok {f : α → Checked (List β)} {g : α → List β} {xs : List α}
    (h : ∀ a ∈ xs, f a = .ok (g a)) : flatMapChecked f xs = .ok (xs.flatMap g) := by
  induction xs with
  | nil => rfl
  | cons a r ih =>
    have hr := ih fun b hb => h b (by simp [hb])
    simp [flatMapChecked, h a, hr, bind, Except.bind, pure, Except.pure]

theorem filterMapChecked_ok {f : α → Checked (Option β)} {g : α → Option β} {xs : List α}
    (h : ∀ a ∈ xs, f a = .ok (g a)) : filterMapChecked f xs = .ok (xs.filterMap g) := by
  have toFlat : xs.filterMap g = xs.flatMap fun a => (g a).toList := by
    clear h
    induction xs with
    | nil => rfl
    | cons a r ih => cases hg : g a <;> simp [hg, ih]
  rw [filterMapChecked, toFlat]
  exact flatMapChecked_ok fun a ha => by simp [h a ha, bind, Except.bind, pure, Except.pure]

theorem filterChecked_ok {test : α → Checked Bool} {p : α → Bool} {xs : List α}
    (h : ∀ a ∈ xs, test a = .ok (p a)) : filterChecked test xs = .ok (xs.filter p) := by
  rw [← List.filterMap_eq_filter]
  exact filterMapChecked_ok fun a ha => by
    cases hp : p a <;> simp [h a ha, hp, Option.guard, bind, Except.bind, pure, Except.pure]

end ScreenGraph
