import ScreenGraph.Proofs.Duplicating

namespace ScreenGraph

namespace Guard

variable {g h k : Guard} {gs hs : List Guard} {ps : List StateId}

def OpenTo (g : Guard) (ps : List StateId) : Prop := (∃ s, s ∈ g) → ∃ s ∈ ps, s ∈ g

theorem accepts_iff : g.accepts ps = true ↔ g.OpenTo ps := by
  simp only [accepts, Bool.or_eq_true, OrderedSet.isEmpty_iff, List.any_eq_true, decide_eq_true_eq]
  constructor
  · rintro (free | through) ⟨s, mem⟩
    · exact absurd mem (free s)
    · exact through
  · intro opens
    by_cases restricts : ∃ s, s ∈ g
    · exact .inr (opens restricts)
    · exact .inl fun s mem => restricts ⟨s, mem⟩

theorem openTo_nil : g.OpenTo [] ↔ ∀ s, s ∉ g := by
  simp [OpenTo]

theorem openTo_ext (same : ∀ ps, g.OpenTo ps ↔ h.OpenTo ps) (s : StateId) : s ∈ g ↔ s ∈ h := by
  have free : (∀ s, s ∉ g) ↔ ∀ s, s ∉ h := by
    rw [← openTo_nil, ← openTo_nil]
    exact same []
  have single (k : Guard) : s ∈ k ↔ ¬ (∀ s, s ∉ k) ∧ k.OpenTo [s] := by
    constructor
    · intro mem
      exact ⟨fun free => free s mem, fun _ => ⟨s, List.mem_singleton_self s, mem⟩⟩
    · rintro ⟨restricts, opens⟩
      obtain ⟨p, through, mem⟩ := opens (by simpa using restricts)
      exact List.mem_singleton.1 through ▸ mem
  rw [single g, single h, free, same]

theorem foldl_merge_iff (P : Guard → Prop) (union : ∀ g h, P (g.merge h) ↔ P g ∨ P h)
    (g : Guard) (gs : List Guard) : P (gs.foldl .merge g) ↔ ∃ x ∈ g :: gs, P x := by
  induction gs generalizing g with
  | nil => simp
  | cons x rest ih =>
    rw [List.foldl_cons, ih]
    simp only [List.exists_mem_cons_iff, union, or_assoc]

theorem accepts_foldl_merge (g : Guard) (gs : List Guard) :
    (gs.foldl .merge g).accepts ps = true ↔ ∃ x ∈ g :: gs, x.accepts ps = true :=
  foldl_merge_iff (fun x => x.accepts ps = true) (fun _ _ => accepts_merge_iff) g gs

theorem isCompatible_foldl_merge (g : Guard) (gs : List Guard) :
    (gs.foldl .merge g).isCompatible k = true ↔ ∃ x ∈ g :: gs, x.isCompatible k = true := by
  apply foldl_merge_iff fun x => x.isCompatible k = true
  intro g h
  rw [isCompatible_merge, Bool.or_eq_true]

theorem mem_foldl_merge (same : ∀ x, x ∈ gs ↔ x ∈ hs) (s : StateId) :
    s ∈ gs.foldl Guard.merge g ↔ s ∈ hs.foldl Guard.merge g := by
  apply openTo_ext
  intro ps
  rw [← accepts_iff, ← accepts_iff, accepts_foldl_merge, accepts_foldl_merge]
  simp only [List.mem_cons, same]

end Guard

/-- All that is asked of guards agrees with what they mean: what a widened guard accepts, and
whether two guards are compatible, also after one of them was widened many times. -/
theorem Transition.guards_agree (t : Transition) (g : Guard) :
    (∀ (h : Guard) ps, h.accepts ps = true ↔ h.OpenTo ps) ∧
    (∀ ps, { t with guards := t.guards.merge g }.guards.accepts ps = true ↔
      t.guards.accepts ps = true ∨ g.accepts ps = true) ∧
    (t.guards.isCompatible g = true ↔
      ∃ s, t.guards.accepts [s] = true ∧ g.accepts [s] = true) ∧
    t.guards.isCompatible g = g.isCompatible t.guards ∧
    (∀ h, (t.guards.merge g).isCompatible h = true ↔
      t.guards.isCompatible h = true ∨ g.isCompatible h = true) ∧
    ∀ gs : List Guard,
      (∀ ps, (gs.foldl .merge t.guards).accepts ps = true ↔
        ∃ h ∈ t.guards :: gs, h.accepts ps = true) ∧
      (∀ h, (gs.foldl .merge t.guards).isCompatible h = true ↔
        ∃ k ∈ t.guards :: gs, k.isCompatible h = true) ∧
      ∀ hs : List Guard, (∀ h, h ∈ gs ↔ h ∈ hs) →
        ∀ s, s ∈ gs.foldl Guard.merge t.guards ↔ s ∈ hs.foldl Guard.merge t.guards := by
  refine ⟨fun h ps => Guard.accepts_iff, fun ps => Guard.accepts_merge_iff, Guard.isCompatible_iff,
    Guard.isCompatible_comm, fun h => ?_, fun gs => ⟨fun ps => ?_, fun h => ?_, fun hs same => ?_⟩⟩
  · rw [Guard.isCompatible_merge, Bool.or_eq_true]
  · exact Guard.accepts_foldl_merge t.guards gs
  · exact Guard.isCompatible_foldl_merge t.guards gs
  · exact Guard.mem_foldl_merge same

example : (Guard.merge ∅ (.ofList [⟨0⟩])).accepts [⟨1⟩] = true := rfl

end ScreenGraph
