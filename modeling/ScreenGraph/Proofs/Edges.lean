import ScreenGraph.Proofs.Frame

namespace ScreenGraph

namespace Flags

def Within (m n : Flags) : Prop :=
  ∀ k v, m.get? k = some v → ∃ w, n.get? k = some w ∧ (v = true → w = true)

theorem Within.refl (m : Flags) : m.Within m := fun _ _ h => ⟨_, h, id⟩

theorem Within.trans {l m n : Flags} (h : l.Within m) (h' : m.Within n) : l.Within n := by
  intro k u hu
  obtain ⟨v, hv, uv⟩ := h k u hu
  obtain ⟨w, hw, vw⟩ := h' k v hv
  exact ⟨w, hw, vw ∘ uv⟩

theorem within_raise (m : Flags) (method : String) (covered : Bool) :
    m.Within (m.raise method covered) := by
  intro k v hv
  rw [get?_raise]
  split
  · next same =>
    refine ⟨_, rfl, ?_⟩
    rintro rfl
    simp [same, hv]
  · exact ⟨v, hv, id⟩

theorem within_foldl (es : List (String × Bool)) (m : Flags) :
    m.Within (es.foldl (fun m e => m.raise e.1 e.2) m) := by
  induction es generalizing m with
  | nil => exact Within.refl m
  | cons e r ih => exact (within_raise m e.1 e.2).trans (ih _)

theorem within_merge_left (m n : Flags) : m.Within (m.merge n) := within_foldl n.entries m

theorem within_merge_right (m n : Flags) : n.Within (m.merge n) := by
  suffices h : ∀ (es : List (String × Bool)) (m : Flags) k v, OrderedMap.find k es = some v →
      ∃ w, (es.foldl (fun m e => m.raise e.1 e.2) m).get? k = some w ∧ (v = true → w = true) from
    h n.entries m
  intro es
  induction es with
  | nil =>
    intro m k v hv
    cases hv
  | cons e r ih =>
    obtain ⟨k₁, v₁⟩ := e
    intro m k v hv
    rw [OrderedMap.find] at hv
    split at hv
    · next same =>
      -- the entry is written first, and what comes after it never lowers it
      have written : (m.raise k₁ v₁).get? k = some ((m.get? k₁).getD false || v₁) := by
        rw [get?_raise, if_pos same]
      obtain ⟨w, hw, raised⟩ := within_foldl r (m.raise k₁ v₁) _ _ written
      cases hv
      exact ⟨w, hw, fun covered => raised (by simp [covered])⟩
    · exact ih _ k v hv

end Flags

namespace Coverage

structure Within (c d : Coverage) : Prop where
  handlers : c.handlers.Within d.handlers
  modifiedMethods : c.modifiedMethods.Within d.modifiedMethods

theorem Within.refl (c : Coverage) : c.Within c := ⟨Flags.Within.refl _, Flags.Within.refl _⟩

theorem Within.trans {c d e : Coverage} (h : c.Within d) (h' : d.Within e) : c.Within e :=
  ⟨h.handlers.trans h'.handlers, h.modifiedMethods.trans h'.modifiedMethods⟩

theorem within_merge_left (c d : Coverage) : c.Within (c.merge d) :=
  ⟨Flags.within_merge_left _ _, Flags.within_merge_left _ _⟩

theorem within_merge_right (c d : Coverage) : d.Within (c.merge d) :=
  ⟨Flags.within_merge_right _ _, Flags.within_merge_right _ _⟩

end Coverage

theorem Guard.accepts_merge_iff {g h : Guard} {ps : List StateId} :
    (g.merge h).accepts ps = true ↔ g.accepts ps = true ∨ h.accepts ps = true := by
  unfold merge
  split
  · next free => exact iff_of_true rfl (.inr (by simp [accepts, free]))
  split
  · next free => simp [accepts, free]
  next filled filled' =>
  obtain ⟨p, mem⟩ := OrderedSet.exists_mem filled
  have filled'' : (g.insertMany h.toList).isEmpty = false :=
    OrderedSet.isEmpty_eq_false_of_mem (OrderedSet.mem_insertMany.2 (.inr mem))
  simp only [accepts, filled, filled', filled'', Bool.false_or, List.any_eq_true, decide_eq_true_eq,
    OrderedSet.mem_insertMany, ← OrderedSet.mem_def, and_or_left, exists_or]

theorem Guard.accepts_merge {g : Guard} {ps : List StateId} (accepted : g.accepts ps = true)
    (h : Guard) : (g.merge h).accepts ps = true := accepts_merge_iff.2 (.inl accepted)

namespace Transition

variable {p q r : Prop} {e e' e'' : Transition}

/-- What an edge is while it stays. It may be deactivated if it is silenced. -/
structure Endures (silenced : Prop) (e e' : Transition) : Prop where
  rest : e' = { e with isActive := e'.isActive, guards := e'.guards }
  active : e'.isActive = e.isActive ∨ (silenced ∧ e.isActive = true ∧ e'.isActive = false)
  guards : e'.guards = e.guards ∨
    (e.isImplicit = true ∧ ∀ ps, e.guards.accepts ps = true → e'.guards.accepts ps = true)

namespace Endures

theorem refl (p : Prop) (e : Transition) : e.Endures p e := ⟨rfl, .inl rfl, .inl rfl⟩

theorem source (h : e.Endures p e') : e'.source = e.source := (congrArg Transition.source h.rest :)

theorem action (h : e.Endures p e') : e'.action = e.action := (congrArg Transition.action h.rest :)

theorem dest (h : e.Endures p e') : e'.dest = e.dest := (congrArg Transition.dest h.rest :)

theorem version (h : e.Endures p e') : e'.version = e.version :=
  (congrArg Transition.version h.rest :)

theorem isImplicit (h : e.Endures p e') : e'.isImplicit = e.isImplicit :=
  (congrArg Transition.isImplicit h.rest :)

theorem interactions (h : e.Endures p e') : e'.interactions = e.interactions :=
  (congrArg Transition.interactions h.rest :)

theorem isExercisedIn (h : e.Endures p e') (v : Version) :
    e'.isExercisedIn v = e.isExercisedIn v := by
  rw [Transition.isExercisedIn, h.interactions, Transition.isExercisedIn]

theorem eq_of_explicit (h : e.Endures False e') (explicit : e.isImplicit = false) : e' = e := by
  have active : e'.isActive = e.isActive := h.active.resolve_right fun silenced => silenced.1
  have guards : e'.guards = e.guards := h.guards.resolve_right fun widened => by
    rw [explicit] at widened
    exact absurd widened.1 nofun
  rw [h.rest, active, guards]

theorem mono (h : e.Endures p e') (weaker : p → q) : e.Endures q e' :=
  ⟨h.rest, h.active.imp_right fun ⟨silenced, change⟩ => ⟨weaker silenced, change⟩, h.guards⟩

theorem trans (h : e.Endures p e') (h' : e'.Endures q e'') (first : p → r) (second : q → r) :
    e.Endures r e'' where
  rest := by
    rw [h'.rest, h.rest]
  active := by
    rcases h.active with same | ⟨silenced, before, after⟩
    · rw [← same]
      exact (h'.mono second).active
    · refine .inr ⟨first silenced, before, ?_⟩
      rcases h'.active with same | ⟨-, again, -⟩
      · exact same.trans after
      · exact absurd (after.symm.trans again) nofun
  guards := by
    have implicit := h.isImplicit
    rcases h.guards with same | ⟨inferred, more⟩
    · rw [← same, ← implicit]
      exact h'.guards
    · refine .inr ⟨inferred, fun ps accepted => ?_⟩
      rcases h'.guards with same | ⟨-, more'⟩
      · rw [same]
        exact more ps accepted
      · exact more' ps (more ps accepted)

end Endures

structure Inferred (e : Transition) : Prop where
  version : e.version = .base
  implicit : e.isImplicit = true
  inactive : e.isActive = false
  inherited : ∀ i ∈ e.interactions, i.inherited = true

theorem Inferred.unexercised (h : e.Inferred) (v : Version) : e.isExercisedIn v = false := by
  refine List.any_eq_false.2 fun i mem => ?_
  simp [h.inherited i mem]

theorem Inferred.endures (h : e.Inferred) (k : e.Endures p e') : e'.Inferred where
  version := k.version.trans h.version
  implicit := k.isImplicit.trans h.implicit
  inactive := by
    rcases k.active with same | ⟨-, -, after⟩
    · exact same.trans h.inactive
    · exact after
  inherited := by
    rw [k.interactions]
    exact h.inherited

end Transition

theorem Model.widen_endures (t : Transfer) (e : Transition) (p : Prop) :
    e.Endures p (Model.widen t e) := by
  unfold Model.widen
  split
  · next inferred =>
    exact ⟨rfl, .inl rfl, .inr ⟨inferred, fun _ accepted => Guard.accepts_merge accepted _⟩⟩
  · exact .refl p e

theorem Model.transferred_inferred (t : Transfer) (a : ActionId) (old : Transition) :
    (Model.transferred t a old).Inferred where
  version := rfl
  implicit := rfl
  inactive := rfl
  inherited i mem := by
    obtain ⟨j, -, rfl⟩ := List.mem_map.1 mem
    rfl

namespace Graph

variable {g g' g'' : Graph} {silenced : StateId → ActionId → Prop}

/-- What an edge and its entries are while the edge stays. -/
structure Endures (g g' : Graph) (silenced : StateId → ActionId → Prop) (id : TransitionId)
    (e : Transition) : Prop where
  edge : ∃ e', g'.transitions.get? id = some e' ∧ e.Endures (silenced e.source e.action) e'
  coverage : ∀ c, g.coverages.get? id = some c → ∃ c', g'.coverages.get? id = some c' ∧ c.Within c'
  activation : g'.activation.get? id = g.activation.get? id

structure Infers (g : Graph) (id : TransitionId) (e : Transition) : Prop where
  inferred : e.Inferred
  unexercised : ∀ v, e.isExercisedIn v = false
  activation : g.activation.get? id = some 0

/-- The edges of a graph after some are gone, others may have been silenced and new ones came. -/
structure Frames (g g' : Graph) (gone : TransitionId → Prop)
    (silenced : StateId → ActionId → Prop) : Prop where
  stays : ∀ {id e}, g.transitions.get? id = some e → ¬ gone id → g.Endures g' silenced id e
  origin : ∀ {id e'}, g'.transitions.get? id = some e' →
    (∃ e, g.transitions.get? id = some e ∧ ¬ gone id) ∨ g'.Infers id e'

theorem Endures.trans {id : TransitionId} {e : Transition} (h : g.Endures g' silenced id e)
    (h' : ∀ e', g'.transitions.get? id = some e' → g'.Endures g'' silenced id e') :
    g.Endures g'' silenced id e := by
  obtain ⟨e', live, endures⟩ := h.edge
  obtain ⟨⟨e'', live', endures'⟩, coverage, activation⟩ := h' e' live
  rw [endures.source, endures.action] at endures'
  refine ⟨⟨e'', live', endures.trans endures' (fun h => h) fun h => h⟩, ?_,
    activation.trans h.activation⟩
  intro c hc
  obtain ⟨c', hc', within⟩ := h.coverage c hc
  obtain ⟨c'', hc'', within'⟩ := coverage c' hc'
  exact ⟨c'', hc'', within.trans within'⟩

namespace Frames

variable {gone gone' : TransitionId → Prop}

theorem of_eq (edges : g'.transitions = g.transitions) (coverages : g'.coverages = g.coverages)
    (activation : g'.activation = g.activation) : g.Frames g' (fun _ => False) silenced where
  stays {id e} live _ := by
    refine ⟨⟨e, edges ▸ live, .refl _ e⟩, fun c hc => ⟨c, coverages ▸ hc, .refl c⟩, ?_⟩
    rw [activation]
  origin live := .inl ⟨_, edges ▸ live, not_false⟩

theorem refl (g : Graph) : g.Frames g (fun _ => False) silenced := .of_eq rfl rfl rfl

theorem trans (h : g.Frames g' gone silenced) (h' : g'.Frames g'' gone' silenced) :
    g.Frames g'' (fun id => gone id ∨ gone' id) silenced where
  stays live stays := by
    obtain ⟨first, second⟩ := not_or.1 stays
    exact (h.stays live first).trans fun _ live' => h'.stays live' second
  origin {id e''} live := by
    rcases h'.origin live with ⟨e', live', second⟩ | new
    · rcases h.origin live' with ⟨e, old, first⟩ | new
      · exact .inl ⟨e, old, not_or.2 ⟨first, second⟩⟩
      · obtain ⟨⟨e₂, live₂, endures⟩, -, activation⟩ := h'.stays live' second
        cases live.symm.trans live₂
        have inferred := new.inferred.endures endures
        exact .inr ⟨inferred, inferred.unexercised, activation.trans new.activation⟩
    · exact .inr new

theorem congr (h : g.Frames g' gone silenced)
    (same : ∀ {id e}, g.transitions.get? id = some e → (gone id ↔ gone' id)) :
    g.Frames g' gone' silenced where
  stays live stays := h.stays live fun gone => stays ((same live).1 gone)
  origin live := by
    rcases h.origin live with ⟨e, old, stays⟩ | new
    · exact .inl ⟨e, old, fun gone => stays ((same old).2 gone)⟩
    · exact .inr new

theorem none (h : g.Frames g' (fun _ => False) silenced)
    (stays : ∀ {id e}, g.transitions.get? id = some e → ¬ gone id) : g.Frames g' gone silenced :=
  h.congr fun live => iff_of_false not_false (stays live)

end Frames

theorem withEdge_frames {t : Transition} (inferred : t.Inferred) (c : Coverage) :
    g.Frames (g.withEdge t c) (fun _ => False) silenced where
  stays {id e} live _ := by
    have old : id ≠ g.transitions.next := by
      rintro rfl
      rw [Arena.get?_next] at live
      cases live
    refine ⟨⟨e, ?_, .refl _ e⟩, fun d hd => ⟨d, ?_, .refl d⟩, ?_⟩
    · rw [get?_withEdge, if_neg old]
      exact live
    · exact (OrderedMap.get?_insert ..).trans ((if_neg old.symm).trans hd)
    · exact (OrderedMap.get?_insert ..).trans (if_neg old.symm)
  origin {id e'} live := by
    rcases of_get?_withEdge live with old | ⟨rfl, rfl⟩
    · exact .inl ⟨e', old, not_false⟩
    · refine .inr ⟨inferred, inferred.unexercised, (OrderedMap.get?_insert ..).trans ?_⟩
      rw [if_pos rfl, inferred.inactive]
      rfl

theorem withoutEdge_frames (id : TransitionId) (s : StateId) :
    g.Frames (g.withoutEdge id s) (fun k => id = k) silenced where
  stays {k e} live other := by
    refine ⟨⟨e, ?_, .refl _ e⟩, fun d hd => ⟨d, ?_, .refl d⟩, ?_⟩
    · rw [get?_withoutEdge, if_neg other]
      exact live
    · exact (OrderedMap.get?_erase ..).trans ((if_neg other).trans hd)
    · exact (OrderedMap.get?_erase ..).trans (if_neg other)
  origin live := by
    obtain ⟨old, other⟩ := of_get?_withoutEdge live
    exact .inl ⟨_, old, other⟩

theorem removeTransition_frames {id : TransitionId} {old : Option Transition}
    (ok : g.removeTransition id = .ok (old, g')) : g.Frames g' (fun k => id = k) silenced := by
  obtain ⟨-, ⟨vacant, rfl⟩ | ⟨t, -, rfl⟩⟩ := removeTransition_eq_ok ok
  · refine (Frames.refl g').none fun {k e} live => ?_
    rintro rfl
    rw [vacant] at live
    cases live
  · exact withoutEdge_frames id t.source

end Graph

end ScreenGraph
