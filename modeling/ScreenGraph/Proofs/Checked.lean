import ScreenGraph.Store.Arena
import ScreenGraph.Store.Checked

namespace ScreenGraph

variable {α β : Type}

def Succeeds (x : Checked α) : Prop := ∃ a, x = .ok a

@[simp] theorem succeeds_ok (a : α) : Succeeds (.ok a) := ⟨a, rfl⟩

@[simp] theorem succeeds_pure (a : α) : Succeeds (pure a) := ⟨a, rfl⟩

theorem Succeeds.bind {x : Checked α} {f : α → Checked β} (hx : Succeeds x)
    (hf : ∀ a, x = .ok a → Succeeds (f a)) : Succeeds (x >>= f) := by
  obtain ⟨a, ha⟩ := hx
  rw [ha]
  exact hf a ha

theorem Succeeds.after {x : Checked α} {f : α → Checked β} {a : α} (first : x = .ok a)
    (goes : Succeeds (f a)) : Succeeds (x >>= f) := by
  rw [first]
  exact goes

@[simp] theorem pure_eq_ok {a b : α} : (pure a : Checked α) = .ok b ↔ a = b := by
  simp [pure, Except.pure]

theorem toOption_eq_some {x : Checked α} {a : α} : x.toOption = some a ↔ x = .ok a := by
  cases x <;> simp [Except.toOption]

theorem succeeds_require {holds : Bool} {fault : Fault} (h : holds = true) :
    Succeeds (require holds fault) := by
  rw [h]
  exact ⟨(), rfl⟩

section Cells

variable {e : Entity} {a : Arena e α} {h : Handle e}

theorem Arena.get_succeeds (live : a.contains h = true) : Succeeds (a.get h) := by
  obtain ⟨v, hv⟩ := contains_iff.1 live
  exact ⟨v, get_eq_ok_iff.2 hv⟩

theorem Succeeds.get {v : α} {f : α → Checked β} (live : a.get? h = some v)
    (goes : Succeeds (f v)) : Succeeds (a.get h >>= f) :=
  .after (Arena.get_eq_ok_iff.2 live) goes

theorem Arena.succeeds_get_bind_iff {f : α → Checked β} :
    Succeeds (a.get h >>= f) ↔ ∃ v, a.get? h = some v ∧ Succeeds (f v) := by
  unfold Arena.get
  cases a.get? h <;> simp [Succeeds, bind, Except.bind]

theorem Arena.get_bind_eq_ok {f : α → Checked β} {b : β} :
    a.get h >>= f = .ok b ↔ ∃ v, a.get? h = some v ∧ f v = .ok b := by
  simp only [Checked.bind_eq_ok, get_eq_ok_iff]

theorem Arena.update_bind_eq_ok {f : α → α} {put : Arena e α → β} {b : β} :
    (a.update h f >>= fun a => pure (put a)) = .ok b ↔
      a.contains h = true ∧ b = put (a.modify h f) := by
  simp only [Checked.bind_eq_ok, update_eq_ok, pure_eq_ok]
  constructor
  · rintro ⟨-, ⟨live, rfl⟩, rfl⟩
    exact ⟨live, rfl⟩
  · rintro ⟨live, rfl⟩
    exact ⟨_, ⟨live, rfl⟩, rfl⟩

theorem Arena.map_get?_modify {f : α → α} {k : α → β} (same : ∀ v, k (f v) = k v) (h' : Handle e) :
    ((a.modify h f).get? h').map k = (a.get? h').map k := by
  rw [get?_modify]
  split
  · rw [Option.map_map]
    exact congrFun (congrArg Option.map (funext same)) _
  · rfl

theorem Arena.get?_of_map {b : Arena e α} {k : α → β}
    (same : (b.get? h).map k = (a.get? h).map k) {w : α} (live : b.get? h = some w) :
    ∃ v, a.get? h = some v ∧ k v = k w := by
  rw [live] at same
  exact Option.map_eq_some_iff.1 same.symm

theorem Arena.contains_of_map {b : Arena e α} {k : α → β}
    (same : (b.get? h).map k = (a.get? h).map k) : b.contains h = a.contains h := by
  simpa [contains] using congrArg Option.isSome same

end Cells

section Walks

variable {xs : List α}

theorem flatMapChecked_succeeds {f : α → Checked (List β)} (h : ∀ a ∈ xs, Succeeds (f a)) :
    Succeeds (flatMapChecked f xs) := by
  induction xs with
  | nil => exact succeeds_ok _
  | cons a r ih =>
    refine (h a (by simp)).bind fun bs _ => ?_
    refine (ih fun b hb => h b (by simp [hb])).bind fun rest _ => ?_
    exact succeeds_pure _

theorem filterChecked_succeeds {test : α → Checked Bool} (h : ∀ a ∈ xs, Succeeds (test a)) :
    Succeeds (filterChecked test xs) := by
  refine flatMapChecked_succeeds fun a ha => ?_
  refine Succeeds.bind ?_ fun _ _ => succeeds_pure _
  exact (h a ha).bind fun _ _ => succeeds_pure _

theorem filterMapChecked_succeeds {f : α → Checked (Option β)} (h : ∀ a ∈ xs, Succeeds (f a)) :
    Succeeds (filterMapChecked f xs) :=
  flatMapChecked_succeeds fun a ha => (h a ha).bind fun _ _ => succeeds_pure _

theorem findChecked_succeeds {test : α → Checked Bool} (h : ∀ a ∈ xs, Succeeds (test a)) :
    Succeeds (findChecked test xs) := by
  induction xs with
  | nil => exact succeeds_ok _
  | cons a r ih =>
    refine (h a (by simp)).bind fun found _ => ?_
    split
    · exact succeeds_pure _
    · exact ih fun b hb => h b (by simp [hb])

theorem findMapChecked_succeeds {f : α → Checked (Option β)} (h : ∀ a ∈ xs, Succeeds (f a)) :
    Succeeds (findMapChecked f xs) := by
  induction xs with
  | nil => exact succeeds_ok _
  | cons a r ih =>
    refine (h a (by simp)).bind fun found _ => ?_
    split
    · exact succeeds_pure _
    · exact ih fun b hb => h b (by simp [hb])

theorem anyChecked_succeeds {test : α → Checked Bool} (h : ∀ a ∈ xs, Succeeds (test a)) :
    Succeeds (anyChecked test xs) := by
  induction xs with
  | nil => exact succeeds_ok _
  | cons a r ih =>
    refine (h a (by simp)).bind fun found _ => ?_
    split
    · exact succeeds_pure _
    · exact ih fun b hb => h b (by simp [hb])

theorem foldChecked_succeeds {f : β → α → Checked β} {b : β} (I : β → Prop) (start : I b)
    (goes : ∀ b, ∀ a ∈ xs, I b → Succeeds (f b a))
    (keeps : ∀ b, ∀ a ∈ xs, ∀ b', I b → f b a = .ok b' → I b') :
    Succeeds (foldChecked f b xs) := by
  induction xs generalizing b with
  | nil => exact succeeds_ok _
  | cons a r ih =>
    refine (goes b a (by simp) start).bind fun b' hb' => ?_
    apply ih (keeps b a (by simp) b' start hb')
    · exact fun c x hx => goes c x (by simp [hx])
    · exact fun c x hx => keeps c x (by simp [hx])

theorem foldChecked_induct {f : β → α → Checked β} {b b' : β} (I : β → Prop)
    (ok : foldChecked f b xs = .ok b') (start : I b)
    (keeps : ∀ b, ∀ a ∈ xs, ∀ b', I b → f b a = .ok b' → I b') : I b' := by
  induction xs generalizing b with
  | nil =>
    cases ok
    exact start
  | cons a r ih =>
    obtain ⟨c, hc, ok⟩ := Checked.bind_eq_ok.1 ok
    apply ih ok (keeps b a (by simp) c start hc)
    exact fun c x hx => keeps c x (by simp [hx])

theorem mem_flatMapChecked {f : α → Checked (List β)} {ys : List β}
    (ok : flatMapChecked f xs = .ok ys) {b : β} :
    b ∈ ys ↔ ∃ a ∈ xs, ∃ bs, f a = .ok bs ∧ b ∈ bs := by
  induction xs generalizing ys with
  | nil =>
    cases ok
    simp
  | cons a r ih =>
    obtain ⟨bs, hbs, ok⟩ := Checked.bind_eq_ok.1 ok
    obtain ⟨rest, hrest, ok⟩ := Checked.bind_eq_ok.1 ok
    cases ok
    simp [ih hrest, hbs]

theorem flatMapChecked_each {f : α → Checked (List β)} {ys : List β}
    (ok : flatMapChecked f xs = .ok ys) {a : α} (mem : a ∈ xs) : Succeeds (f a) := by
  induction xs generalizing ys with
  | nil => cases mem
  | cons x r ih =>
    obtain ⟨bs, hbs, ok⟩ := Checked.bind_eq_ok.1 ok
    obtain ⟨rest, hrest, -⟩ := Checked.bind_eq_ok.1 ok
    cases mem with
    | head => exact ⟨bs, hbs⟩
    | tail _ mem => exact ih hrest mem

theorem mem_filterMapChecked {f : α → Checked (Option β)} {ys : List β}
    (ok : filterMapChecked f xs = .ok ys) {b : β} : b ∈ ys ↔ ∃ a ∈ xs, f a = .ok (some b) := by
  rw [mem_flatMapChecked ok]
  constructor
  · rintro ⟨a, ha, bs, hbs, hb⟩
    obtain ⟨o, ho, hbs⟩ := Checked.bind_eq_ok.1 hbs
    cases hbs
    rw [Option.mem_toList] at hb
    exact ⟨a, ha, by rw [ho, hb]⟩
  · rintro ⟨a, ha, h⟩
    exact ⟨a, ha, [b], by rw [h]; rfl, by simp⟩

theorem mem_filterChecked {test : α → Checked Bool} {ys : List α}
    (ok : filterChecked test xs = .ok ys) {a : α} : a ∈ ys ↔ a ∈ xs ∧ test a = .ok true := by
  rw [mem_filterMapChecked ok]
  constructor
  · rintro ⟨b, hb, h⟩
    obtain ⟨c, hc, h⟩ := Checked.bind_eq_ok.1 h
    cases c
    · cases h
    · cases h
      exact ⟨hb, hc⟩
  · rintro ⟨ha, h⟩
    exact ⟨a, ha, by rw [h]; rfl⟩

theorem filterMapChecked_each {f : α → Checked (Option β)} {ys : List β}
    (ok : filterMapChecked f xs = .ok ys) {a : α} (mem : a ∈ xs) : Succeeds (f a) := by
  obtain ⟨bs, made⟩ := flatMapChecked_each ok mem
  obtain ⟨o, made, -⟩ := Checked.bind_eq_ok.1 made
  exact ⟨o, made⟩

theorem filterChecked_each {test : α → Checked Bool} {ys : List α}
    (ok : filterChecked test xs = .ok ys) {a : α} (mem : a ∈ xs) : Succeeds (test a) := by
  obtain ⟨bs, kept⟩ := flatMapChecked_each ok mem
  obtain ⟨o, kept, -⟩ := Checked.bind_eq_ok.1 kept
  obtain ⟨c, tested, -⟩ := Checked.bind_eq_ok.1 kept
  exact ⟨c, tested⟩

theorem filterChecked_cons_eq_ok {test : α → Checked Bool} {a : α} {ys : List α} :
    filterChecked test (a :: xs) = .ok ys ↔ ∃ c rest, test a = .ok c ∧
      filterChecked test xs = .ok rest ∧ ys = if c then a :: rest else rest := by
  simp only [filterChecked, filterMapChecked, flatMapChecked, Checked.bind_eq_ok, pure_eq_ok]
  constructor
  · rintro ⟨-, ⟨-, ⟨c, test, rfl⟩, rfl⟩, rest, filtered, rfl⟩
    refine ⟨c, rest, test, filtered, ?_⟩
    cases c <;> rfl
  · rintro ⟨c, rest, test, filtered, rfl⟩
    refine ⟨_, ⟨_, ⟨c, test, rfl⟩, rfl⟩, rest, filtered, ?_⟩
    cases c <;> rfl

theorem head?_filterChecked {test : α → Checked Bool} {ys : List α}
    (ok : filterChecked test xs = .ok ys) {a : α} : ys.head? = some a ↔
      ∃ before after, xs = before ++ a :: after ∧ (∀ x ∈ before, test x = .ok false) ∧
        test a = .ok true := by
  induction xs generalizing ys with
  | nil =>
    cases ok
    simp
  | cons x r ih =>
    obtain ⟨c, rest, tested, filtered, rfl⟩ := filterChecked_cons_eq_ok.1 ok
    cases c with
    | true =>
      constructor
      · rintro ⟨⟩
        exact ⟨[], r, rfl, by simp, tested⟩
      · rintro ⟨_ | ⟨y, before⟩, after, split, failed, -⟩
        · cases split
          rfl
        · cases split
          cases tested.symm.trans (failed x (by simp))
    | false =>
      refine (ih filtered).trans ⟨?_, ?_⟩
      · rintro ⟨before, after, rfl, failed, passes⟩
        exact ⟨x :: before, after, rfl, by simpa [tested] using failed, passes⟩
      · rintro ⟨_ | ⟨y, before⟩, after, split, failed, passes⟩
        · cases split
          cases tested.symm.trans passes
        · cases split
          exact ⟨before, after, rfl, fun z mem => failed z (by simp [mem]), passes⟩

theorem foldChecked_append {f : β → α → Checked β} {b : β} {ys : List α} :
    foldChecked f b (xs ++ ys) = foldChecked f b xs >>= fun b => foldChecked f b ys := by
  induction xs generalizing b with
  | nil => rfl
  | cons a r ih =>
    simp only [List.cons_append, foldChecked]
    cases f b a with
    | error _ => rfl
    | ok b' => exact ih

theorem findChecked_eq_some {test : α → Checked Bool} {a : α}
    (ok : findChecked test xs = .ok (some a)) : a ∈ xs ∧ test a = .ok true := by
  induction xs with
  | nil => cases ok
  | cons x r ih =>
    obtain ⟨c, hc, ok⟩ := Checked.bind_eq_ok.1 ok
    cases c
    · exact ⟨by simp [(ih ok).1], (ih ok).2⟩
    · cases ok
      exact ⟨by simp, hc⟩

theorem findChecked_eq_none {test : α → Checked Bool} (ok : findChecked test xs = .ok none) {a : α}
    (mem : a ∈ xs) : test a = .ok false := by
  induction xs with
  | nil => cases mem
  | cons x r ih =>
    obtain ⟨c, hc, ok⟩ := Checked.bind_eq_ok.1 ok
    cases c
    · cases mem with
      | head => exact hc
      | tail _ mem => exact ih ok mem
    · cases ok

theorem findMapChecked_eq_some {f : α → Checked (Option β)} {b : β}
    (ok : findMapChecked f xs = .ok (some b)) : ∃ a ∈ xs, f a = .ok (some b) := by
  induction xs with
  | nil => cases ok
  | cons x r ih =>
    obtain ⟨c, hc, ok⟩ := Checked.bind_eq_ok.1 ok
    cases c with
    | none =>
      obtain ⟨a, ha, h⟩ := ih ok
      exact ⟨a, by simp [ha], h⟩
    | some c =>
      cases ok
      exact ⟨x, by simp, hc⟩

theorem anyChecked_eq_false {test : α → Checked Bool} :
    anyChecked test xs = .ok false ↔ ∀ a ∈ xs, test a = .ok false := by
  induction xs with
  | nil => simp [anyChecked]
  | cons x r ih =>
    rw [List.forall_mem_cons, ← ih, anyChecked, Checked.bind_eq_ok]
    constructor
    · rintro ⟨_ | _, tested, rest⟩
      · exact ⟨tested, rest⟩
      · cases rest
    · rintro ⟨tested, rest⟩
      exact ⟨false, tested, rest⟩

end Walks

end ScreenGraph
