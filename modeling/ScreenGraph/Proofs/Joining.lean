import ScreenGraph.Proofs.Absorbing

namespace ScreenGraph

namespace Flags

variable {l m n : Flags} {ms ns : List Flags}

def Alike (m n : Flags) : Prop := ∀ k, m.get? k = n.get? k

theorem Alike.of_iff (methods : ∀ k, m.contains k = true ↔ n.contains k = true)
    (covered : ∀ k, m.get? k = some true ↔ n.get? k = some true) : m.Alike n := by
  intro k
  have methods := methods k
  have covered := covered k
  simp only [OrderedMap.contains] at methods
  cases there : m.get? k with
  | none =>
    have absent : n.get? k = none := by simpa [there] using methods
    rw [absent]
  | some v => cases here : n.get? k <;> cases v <;> simp_all

theorem Joins.alike (h : m.Joins ms) (h' : n.Joins ns) (same : ∀ l, l ∈ ms ↔ l ∈ ns) :
    m.Alike n := by
  apply Alike.of_iff <;> intro k
  · rw [h.methods, h'.methods]
    simp only [same]
  · rw [h.covered, h'.covered]
    simp only [same]

theorem Joins.both (h : m.Joins ms) (h' : n.Joins ns) : (m.merge n).Joins (ms ++ ns) := by
  have joins := (joins_singleton m).merge n
  constructor <;> intro k
  · rw [joins.methods]
    simp [h.methods, h'.methods, or_and_right, exists_or]
  · rw [joins.covered]
    simp [h.covered, h'.covered, or_and_right, exists_or]

theorem Joins.within_iff (h : m.Joins ms) : m.Within l ↔ ∀ n ∈ ms, n.Within l := by
  constructor
  · intro within n mem
    exact (h.within mem).trans within
  · intro within k v held
    obtain ⟨n, mem, there⟩ := (h.methods k).1 (OrderedMap.contains_of_get? held)
    obtain ⟨u, found⟩ := OrderedMap.contains_iff.1 there
    obtain ⟨w, above, -⟩ := within n mem k u found
    refine ⟨w, above, ?_⟩
    rintro rfl
    -- the one that covers the method need not be the one that was found to have it
    obtain ⟨n', mem', covered⟩ := (h.covered k).1 held
    obtain ⟨w', above', raised⟩ := within n' mem' k true covered
    cases above.symm.trans above'
    exact raised rfl

theorem keys_raise (m : Flags) (method : String) (covered : Bool) :
    m.keys <+: (m.raise method covered).keys := by
  have keys := OrderedMap.keys_write method (fun old => old.getD false || covered) m.entries
  change _ <+: (OrderedMap.write ..).map Prod.fst
  rw [keys]
  split
  · exact List.prefix_rfl
  · exact List.prefix_append ..

theorem keys_merge (m n : Flags) : m.keys <+: (m.merge n).keys := by
  rw [merge]
  induction n.entries generalizing m with
  | nil => exact List.prefix_rfl
  | cons e rest ih => exact (keys_raise m e.1 e.2).trans (ih _)

end Flags

namespace Coverage

variable {c d : Coverage} {cs ds : List Coverage}

structure Alike (c d : Coverage) : Prop where
  handlers : c.handlers.Alike d.handlers
  modifiedMethods : c.modifiedMethods.Alike d.modifiedMethods

structure Heads (c d : Coverage) : Prop where
  handlers : c.handlers.keys <+: d.handlers.keys
  modifiedMethods : c.modifiedMethods.keys <+: d.modifiedMethods.keys

theorem Heads.refl (c : Coverage) : c.Heads c := ⟨List.prefix_rfl, List.prefix_rfl⟩

theorem Heads.merge (h : c.Heads d) (a : Coverage) : c.Heads (d.merge a) where
  handlers := h.handlers.trans (Flags.keys_merge ..)
  modifiedMethods := h.modifiedMethods.trans (Flags.keys_merge ..)

theorem Joins.alike (h : c.Joins cs) (h' : d.Joins ds) (same : ∀ x, x ∈ cs ↔ x ∈ ds) :
    c.Alike d where
  handlers := h.handlers.alike h'.handlers fun l => by simp only [List.mem_map, same]
  modifiedMethods := h.modifiedMethods.alike h'.modifiedMethods fun l => by
    simp only [List.mem_map, same]

theorem Joins.both (h : c.Joins cs) (h' : d.Joins ds) : (c.merge d).Joins (cs ++ ds) := by
  constructor <;> rw [List.map_append]
  · exact h.handlers.both h'.handlers
  · exact h.modifiedMethods.both h'.modifiedMethods

theorem within_iff : c.Within d ↔
    c.handlers.Within d.handlers ∧ c.modifiedMethods.Within d.modifiedMethods :=
  ⟨fun h => ⟨h.handlers, h.modifiedMethods⟩, fun h => ⟨h.1, h.2⟩⟩

theorem Joins.within_iff (h : c.Joins cs) : c.Within d ↔ ∀ x ∈ cs, x.Within d := by
  simp only [Coverage.within_iff, h.handlers.within_iff, h.modifiedMethods.within_iff,
    List.forall_mem_map, imp_and, forall_and]

theorem joins_pair (a b : Coverage) : (a.merge b).Joins [a, b] := a.joins_singleton.merge b

theorem merge_comm (a b : Coverage) : (a.merge b).Alike (b.merge a) := by
  apply (a.joins_pair b).alike (b.joins_pair a)
  simp [or_comm]

theorem merge_assoc (a b c : Coverage) : ((a.merge b).merge c).Alike (a.merge (b.merge c)) := by
  apply ((a.joins_pair b).merge c).alike (a.joins_singleton.both (b.joins_pair c))
  exact fun _ => Iff.rfl

theorem merge_idem (a : Coverage) : (a.merge a).Alike a := by
  apply (a.joins_pair a).alike a.joins_singleton
  simp

end Coverage

namespace Graph

variable {g g' : Graph} {id : TransitionId} {ms ns : List (TransitionId × Coverage)}

def mergeAll (g : Graph) (ms : List (TransitionId × Coverage)) : Checked Graph :=
  foldChecked (fun g m => g.mergeCoverage m.1 m.2) g ms

def into (id : TransitionId) (ms : List (TransitionId × Coverage)) : List Coverage :=
  (ms.filter fun m => m.1 = id).map Prod.snd

theorem mem_into {c : Coverage} : c ∈ into id ms ↔ (id, c) ∈ ms := by
  simp [into]

/-- Every edge has its own annotation joined with those that went into it. -/
structure Merges (g : Graph) (ms : List (TransitionId × Coverage)) (g' : Graph) : Prop where
  rest : g' = { g with coverages := g'.coverages }
  vacant : ∀ id, g.coverage? id = none → g'.coverage? id = none
  covered : ∀ id c, g.coverage? id = some c →
    ∃ d, g'.coverage? id = some d ∧ d.Joins (c :: into id ms) ∧ c.Heads d

theorem Merges.nil (g : Graph) : g.Merges [] g where
  rest := rfl
  vacant := fun _ => id
  covered := fun _ c found => ⟨c, found, c.joins_singleton, .refl c⟩

theorem Merges.snoc {g₁ : Graph} {c : Coverage} (h : g.Merges ms g₁)
    (ok : g₁.mergeCoverage id c = .ok g') : g.Merges (ms ++ [(id, c)]) g' := by
  obtain ⟨old, found, rfl⟩ := mergeCoverage_eq_ok.1 ok
  constructor
  · rw [h.rest]
  · intro k absent
    have before := h.vacant k absent
    have other : id ≠ k := by
      rintro rfl
      cases found.symm.trans before
    exact (OrderedMap.get?_insert ..).trans ((if_neg other).trans before)
  · intro k c₀ present
    obtain ⟨d, before, joins, heads⟩ := h.covered k c₀ present
    by_cases here : id = k
    · subst here
      cases found.symm.trans before
      refine ⟨old.merge c, (OrderedMap.get?_insert ..).trans (if_pos rfl), ?_, heads.merge c⟩
      simpa [into] using joins.merge c
    · refine ⟨d, (OrderedMap.get?_insert ..).trans ((if_neg here).trans before), ?_, heads⟩
      simpa [into, here] using joins

theorem Merges.mergeAll {g₁ : Graph} {done : List (TransitionId × Coverage)}
    (h : g.Merges done g₁) (ok : g₁.mergeAll ms = .ok g') : g.Merges (done ++ ms) g' := by
  induction ms generalizing g₁ done with
  | nil =>
    cases ok
    rwa [List.append_nil]
  | cons m rest ih =>
    obtain ⟨g₂, step, ok⟩ := Checked.bind_eq_ok.1 ok
    have merges := ih (h.snoc step) ok
    rwa [List.append_assoc] at merges

theorem mergeAll_merges (ok : g.mergeAll ms = .ok g') : g.Merges ms g' := (Merges.nil g).mergeAll ok

theorem mergeCoverage_contains {c : Coverage} (ok : g.mergeCoverage id c = .ok g')
    (k : TransitionId) : g'.coverages.contains k = g.coverages.contains k := by
  obtain ⟨old, found, rfl⟩ := mergeCoverage_eq_ok.1 ok
  simp only [OrderedMap.contains, OrderedMap.get?_insert]
  split
  · next same => simp [← same, found]
  · rfl

theorem mergeAll_succeeds_iff :
    Succeeds (g.mergeAll ms) ↔ ∀ m ∈ ms, g.coverages.contains m.1 = true := by
  induction ms generalizing g with
  | nil => exact ⟨fun _ => nofun, fun _ => succeeds_ok g⟩
  | cons m rest ih =>
    rw [List.forall_mem_cons]
    constructor
    · rintro ⟨g', ok⟩
      obtain ⟨g₁, step, ok⟩ := Checked.bind_eq_ok.1 ok
      obtain ⟨old, found, -⟩ := mergeCoverage_eq_ok.1 step
      refine ⟨OrderedMap.contains_of_get? found, fun x mem => ?_⟩
      rw [← mergeCoverage_contains step]
      exact ih.1 ⟨g', ok⟩ x mem
    · rintro ⟨first, others⟩
      refine (mergeCoverage_succeeds first m.2).bind fun g₁ step => ih.2 fun x mem => ?_
      rw [mergeCoverage_contains step]
      exact others x mem

theorem Merges.alike {g₁ g₂ : Graph} (h₁ : g.Merges ms g₁) (h₂ : g.Merges ns g₂)
    (same : ∀ c, (id, c) ∈ ms ↔ (id, c) ∈ ns) :
    Option.Rel Coverage.Alike (g₁.coverage? id) (g₂.coverage? id) := by
  cases before : g.coverage? id with
  | none =>
    rw [h₁.vacant id before, h₂.vacant id before]
    exact .none
  | some c =>
    obtain ⟨d₁, found₁, joins₁, -⟩ := h₁.covered id c before
    obtain ⟨d₂, found₂, joins₂, -⟩ := h₂.covered id c before
    rw [found₁, found₂]
    apply Option.Rel.some
    apply joins₁.alike joins₂
    simp only [List.mem_cons, mem_into, same, implies_true]

end Graph

/-- The merge of two annotations is their join, and so is what many merges leave at an edge. -/
theorem Coverage.merge_is_join (a b c : Coverage) :
    (a.merge b).Joins [a, b] ∧ (∀ d, (a.merge b).Within d ↔ a.Within d ∧ b.Within d) ∧
    (a.merge b).Alike (b.merge a) ∧
    ((a.merge b).merge c).Alike (a.merge (b.merge c)) ∧
    (a.merge a).Alike a ∧
    ∀ (g : Graph) (ms : List (TransitionId × Coverage)),
      (Succeeds (g.mergeAll ms) ↔ ∀ m ∈ ms, g.coverages.contains m.1 = true) ∧
      ∀ g', g.mergeAll ms = .ok g' → g.Merges ms g' ∧
        ∀ ns g'', g.mergeAll ns = .ok g'' → ∀ id, (∀ d, (id, d) ∈ ms ↔ (id, d) ∈ ns) →
          Option.Rel Alike (g'.coverage? id) (g''.coverage? id) := by
  refine ⟨a.joins_pair b, fun d => ?_, a.merge_comm b, a.merge_assoc b c, a.merge_idem,
    fun g ms => ⟨Graph.mergeAll_succeeds_iff, fun g' ok => ?_⟩⟩
  · simp [(a.joins_pair b).within_iff]
  · have merges := Graph.mergeAll_merges ok
    exact ⟨merges, fun ns g'' ok' id => merges.alike (Graph.mergeAll_merges ok')⟩

example :
    let seen : Coverage := { handlers := .ofList [("onClick", false)] }
    let other : Coverage :=
      { handlers := .ofList [("onClick", true)], modifiedMethods := .ofList [("save", false)] }
    (seen.merge other).handlers.entries = [("onClick", true)] ∧
      (seen.merge other).modifiedMethods.entries = [("save", false)] := by decide

end ScreenGraph
