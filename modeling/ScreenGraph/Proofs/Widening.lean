import ScreenGraph.Proofs.Duplicating

namespace ScreenGraph

namespace Session

variable {s s' : Session} {g gs : Guard} {p x : StateId}

/-- The states that a guard state is widened to: itself if it is live, else its live images. -/
def GivesWay (s : Session) (p x : StateId) : Prop :=
  s.IsLive p ∧ x = p ∨ ¬ s.IsLive p ∧ x ∈ s.ledger.imagesOf p ∧ s.IsLive x

structure Widens (s : Session) (g gs : Guard) : Prop where
  free : gs.isEmpty = true ↔ g.isEmpty = true
  mem : ∀ x, x ∈ gs ↔ ∃ p, p ∈ g ∧ s.GivesWay p x

theorem mem_resolveGuard {xs : List StateId} (ok : s.resolveGuard p = .ok xs) :
    x ∈ xs ↔ s.GivesWay p x := by
  obtain ⟨st, hst, ok⟩ := Arena.get_bind_eq_ok.1 ok
  have alive : s.IsLive p ↔ st.isLive = true := by
    simp [IsLive, hst]
  split at ok
  · next live =>
    cases ok
    simp [GivesWay, alive.2 live]
  · next dead =>
    simp [GivesWay, mt alive.1 dead, mem_liveImages ok]

theorem resolveGuards_widens (ok : s.resolveGuards g = .ok (some gs)) : s.Widens g gs := by
  unfold resolveGuards at ok
  split at ok
  · next free =>
    cases ok
    refine ⟨iff_of_true rfl free, fun x => iff_of_false (OrderedSet.not_mem_empty x) ?_⟩
    rintro ⟨p, mem, -⟩
    exact OrderedSet.isEmpty_iff.1 free p mem
  · next filled =>
    obtain ⟨xs, resolved, done⟩ := Checked.bind_eq_ok.1 ok
    dsimp only at done
    split at done
    · cases done
    · next filled' =>
      cases done
      refine ⟨iff_of_false filled' filled, fun x => ?_⟩
      rw [OrderedSet.mem_ofList, mem_flatMapChecked resolved]
      constructor
      · rintro ⟨p, mem, ys, found, mem'⟩
        exact ⟨p, mem, (mem_resolveGuard found).1 mem'⟩
      · rintro ⟨p, mem, gives⟩
        obtain ⟨ys, found⟩ := flatMapChecked_each resolved mem
        exact ⟨p, mem, ys, found, (mem_resolveGuard found).2 gives⟩

theorem GivesWay.stands (h : s.GivesWay p x) : s.StandsFor x p := by
  rcases h with ⟨live, rfl⟩ | ⟨-, image, live⟩
  · exact ⟨live, .inl rfl⟩
  · exact ⟨live, .inr image⟩

theorem resolveGuards_fails (ok : s.resolveGuards g = .ok none) :
    g.isEmpty = false ∧ ∀ p x, p ∈ g → ¬ s.GivesWay p x := by
  have fails := resolveGuards_eq_none ok
  constructor
  · exact Bool.eq_false_iff.2 fun free => fails (.inl free)
  · exact fun p x mem gives => fails (.inr ⟨p, mem, x, gives.stands⟩)

inductive Receives (s : Session) (t : Transfer) (id : TransitionId) : Prop
  | intro {old a mid target} (edge : s.model.graph.transitions.get? t.baseEdge = some old)
      (prepared : s.transferAction t old = .ok (a, mid))
      (found : s.model.mergeTarget t a = .ok target)
      (into : target.getD s.model.graph.transitions.next = id) : Receives s t id

def Folds (s : Session) (plan : List Transfer) (t : Transfer) (id : TransitionId) : Prop :=
  s.AtTurn plan fun now u => u = t ∧ now.Receives u id

variable {t u : Transfer} {plan : List Transfer} {id : TransitionId} {e' : Transition}

theorem folds_cons (ok : s.applyTransfer t = .ok s') :
    s.Folds (t :: plan) u id ↔ t = u ∧ s.Receives t id ∨ s'.Folds plan u id :=
  atTurn_cons ok

theorem not_folds_nil : ¬ s.Folds [] u id := not_atTurn_nil

inductive Guarded (s : Session) (plan : List Transfer) (id : TransitionId) (e' : Transition) : Prop
  | created
      (fresh : ∀ e, s.model.graph.transitions.get? id = some e → ∃ t ∈ plan, t.Takes id)
      (inferred : e'.isImplicit = true)
      (accepts : ∀ ps, e'.guards.accepts ps = true ↔
        ∃ t, s.Folds plan t id ∧ t.guards.accepts ps = true)
  | inferred {e} (older : s.model.graph.transitions.get? id = some e)
      (stays : ¬ ∃ t ∈ plan, t.Takes id) (same : e'.unguarded = e.unguarded)
      (inferred : e.isImplicit = true)
      (accepts : ∀ ps, e'.guards.accepts ps = true ↔ e.guards.accepts ps = true ∨
        ∃ t, s.Folds plan t id ∧ t.guards.accepts ps = true)
  | observed {e} (older : s.model.graph.transitions.get? id = some e)
      (stays : ¬ ∃ t ∈ plan, t.Takes id) (same : e' = e) (observed : e.isImplicit = false)

theorem applyTransfer_receives (ok : s.applyTransfer t = .ok s')
    (apart : t.isIncoming = true → ∀ old, s.model.graph.transitions.get? t.baseEdge = some old →
      old.dest ≠ t.dest) :
    ∃ id e₁, (∀ k, s.Receives t k ↔ k = id) ∧ s'.model.graph.transitions.get? id = some e₁ ∧
      (t.isIncoming = true → e₁.dest = t.dest) := by
  obtain ⟨old, a, mid, target, edge, prepared, found, edges⟩ := applyTransfer_received ok
  have one : ∀ k, s.Receives t k ↔ k = target.getD s.model.graph.transitions.next := by
    refine fun k => ⟨?_, fun same => .intro edge prepared found same.symm⟩
    rintro ⟨edge', prepared', found', into⟩
    cases edge.symm.trans edge'
    cases prepared.symm.trans prepared'
    cases found.symm.trans found'
    exact into.symm
  cases target with
  | none =>
    refine ⟨s.model.graph.transitions.next, Model.transferred t a old, one, (edges ..).2 ⟨?_, ?_⟩,
      fun _ => rfl⟩
    · rintro ⟨-, same⟩
      rw [same, Arena.get?_next] at edge
      cases edge
    · rw [received, Arena.get?_add, if_pos rfl]
  | some id =>
    obtain ⟨e, live, absorbs⟩ := mergeTarget_some found
    have dest : t.isIncoming = true → e.dest = t.dest := by
      intro incoming
      rw [Model.canAbsorb, Bool.and_eq_true] at absorbs
      simpa [incoming] using absorbs.2
    refine ⟨id, Model.widen t e, one, (edges ..).2 ⟨?_, ?_⟩, fun incoming => ?_⟩
    · rintro ⟨incoming, rfl⟩
      cases edge.symm.trans live
      exact apart incoming _ edge (dest incoming)
    · rw [received, Arena.get?_modify, if_pos rfl, live]
      rfl
    · exact (Transition.dest_eq (Model.unguarded_widen t e)).trans (dest incoming)

theorem applyTransfer_made (ok : s.applyTransfer t = .ok s') {e₁ : Transition}
    (live : s'.model.graph.transitions.get? id = some e₁) : ¬ t.Takes id ∧
      ((s.model.graph.transitions.get? id = none ∧ s.Receives t id ∧ e₁.isImplicit = true ∧
          e₁.guards = t.guards) ∨
        ∃ e, s.model.graph.transitions.get? id = some e ∧
          (s.Receives t id ∧ e₁ = Model.widen t e ∨ ¬ s.Receives t id ∧ e₁ = e)) := by
  obtain ⟨old, a, mid, target, edge, prepared, found, edges⟩ := applyTransfer_received ok
  obtain ⟨stays, after⟩ := (edges id e₁).1 live
  refine ⟨stays, ?_⟩
  have other : target.getD s.model.graph.transitions.next ≠ id → ¬ s.Receives t id := by
    rintro other ⟨edge', prepared', found', into⟩
    cases edge.symm.trans edge'
    cases prepared.symm.trans prepared'
    cases found.symm.trans found'
    exact other into
  cases target with
  | none =>
    rw [received, Arena.get?_add] at after
    split at after
    · next new =>
      cases after
      refine .inl ⟨?_, .intro edge prepared found new.symm, rfl, rfl⟩
      rw [new, Arena.get?_next]
    · next old => exact .inr ⟨e₁, after, .inr ⟨other (Ne.symm old), rfl⟩⟩
  | some k =>
    rw [received, Arena.get?_modify] at after
    split at after
    · next here =>
      obtain ⟨e, before, rfl⟩ := Option.map_eq_some_iff.1 after
      exact .inr ⟨e, before, .inl ⟨.intro edge prepared found here, rfl⟩⟩
    · next elsewhere => exact .inr ⟨e₁, after, .inr ⟨other elsewhere, rfl⟩⟩

section

variable {b : StateId} {rest : List Transfer}

structure LeadsAway (s : Session) (b : StateId) (plan : List Transfer) : Prop where
  awaits : s.model.graph.Awaits b plan
  elsewhere : ∀ t ∈ plan, t.isIncoming = true → t.dest ≠ b
  sorted : plan.Pairwise fun t u => u.isIncoming = true → t.isIncoming = true

theorem LeadsAway.tail (h : s.LeadsAway b (t :: rest)) (ok : s.applyTransfer t = .ok s') :
    s'.LeadsAway b rest where
  awaits := applyTransfer_awaits h.awaits ok
  elsewhere u mem := h.elsewhere u (by simp [mem])
  sorted := (List.pairwise_cons.1 h.sorted).2

theorem receives_stays (h : s.LeadsAway b (t :: rest)) (ok : s.applyTransfer t = .ok s') :
    ∃ id e₁, (∀ k, s.Receives t k ↔ k = id) ∧ s'.model.graph.transitions.get? id = some e₁ ∧
      ¬ ∃ u ∈ rest, u.Takes id := by
  have elsewhere := h.elsewhere t (by simp)
  obtain ⟨id, e₁, one, live, dest⟩ := applyTransfer_receives ok fun incoming old edge => by
    obtain ⟨e, live, leads⟩ := h.awaits.live t (by simp)
    cases edge.symm.trans live
    rw [(leads incoming).2.2]
    exact (elsewhere incoming).symm
  refine ⟨id, e₁, one, live, ?_⟩
  rintro ⟨u, mem, incoming, rfl⟩
  obtain ⟨e₂, live₂, leads⟩ := (h.tail ok).awaits.live u mem
  cases live.symm.trans live₂
  have incoming' := (List.pairwise_cons.1 h.sorted).1 u mem incoming
  exact elsewhere incoming' ((dest incoming').symm.trans (leads incoming).2.2)

theorem folds_accepts (ok : s.applyTransfer t = .ok s') {ps : List StateId} :
    (∃ u, s.Folds (t :: rest) u id ∧ u.guards.accepts ps = true) ↔
      s.Receives t id ∧ t.guards.accepts ps = true ∨
        ∃ u, s'.Folds rest u id ∧ u.guards.accepts ps = true := by
  simp only [folds_cons ok, or_and_right, exists_or, and_assoc, exists_eq_left']

theorem Guarded.nil (live : s.model.graph.transitions.get? id = some e') : s.Guarded [] id e' := by
  have free : ∀ {ps}, ¬ ∃ t, s.Folds [] t id ∧ t.guards.accepts ps = true :=
    fun ⟨_, folds, _⟩ => not_folds_nil folds
  cases implicit : e'.isImplicit with
  | true => exact .inferred live (by simp) rfl implicit fun ps => (or_iff_left free).symm
  | false => exact .observed live (by simp) rfl implicit

theorem Guarded.cons (h : s.LeadsAway b (t :: rest)) (ok : s.applyTransfer t = .ok s')
    (guarded : s'.Guarded rest id e') : s.Guarded (t :: rest) id e' := by
  have stays' : ∀ {e₁}, s'.model.graph.transitions.get? id = some e₁ →
      ¬ (∃ u ∈ rest, u.Takes id) → ¬ ∃ u ∈ t :: rest, u.Takes id := by
    intro e₁ live₁ stays
    simpa [stays] using (applyTransfer_made ok live₁).1
  cases guarded with
  | created fresh inferred accepts =>
    have apart : ¬ s.Receives t id := by
      intro receives
      obtain ⟨k, e₁, one, live₁, stays⟩ := receives_stays h ok
      cases (one id).1 receives
      exact stays (fresh e₁ live₁)
    refine .created (fun e older => ?_) inferred fun ps => ?_
    · by_cases takes : t.Takes id
      · exact ⟨t, by simp, takes⟩
      · obtain ⟨e₁, live₁, -⟩ :=
          (applyTransfer_retains ok older fun incoming same => takes ⟨incoming, same⟩).edge
        obtain ⟨u, mem, takes⟩ := fresh e₁ live₁
        exact ⟨u, by simp [mem], takes⟩
    · rw [folds_accepts ok, accepts]
      simp [apart]
  | inferred older stays same implicit accepts =>
    obtain ⟨-, ⟨none, receives, -, guards⟩ | ⟨e, before, ⟨receives, rfl⟩ | ⟨apart, rfl⟩⟩⟩ :=
      applyTransfer_made ok older
    · refine .created ?_ ((congrArg Transition.isImplicit same :).trans implicit) fun ps => ?_
      · rw [none]
        exact nofun
      · rw [accepts, folds_accepts ok, guards]
        simp [receives]
    · rw [Model.isImplicit_widen] at implicit
      refine .inferred before (stays' older stays) (same.trans (Model.unguarded_widen t e))
        implicit fun ps => ?_
      rw [accepts, folds_accepts ok, Model.accepts_widen implicit, or_assoc]
      simp [receives]
    · refine .inferred before (stays' older stays) same implicit fun ps => ?_
      rw [accepts, folds_accepts ok]
      simp [apart]
  | observed older stays same explicit =>
    obtain ⟨-, ⟨-, -, inferred, -⟩ | ⟨e, before, ⟨receives, rfl⟩ | ⟨-, rfl⟩⟩⟩ :=
      applyTransfer_made ok older
    · cases explicit.symm.trans inferred
    · rw [Model.isImplicit_widen] at explicit
      refine .observed before (stays' older stays) ?_ explicit
      rw [same, Model.widen, if_neg (by simp [explicit])]
    · exact .observed before (stays' older stays) same explicit

theorem applyAll_guarded (h : s.LeadsAway b plan) (ok : s.applyAll plan = .ok s')
    (live : s'.model.graph.transitions.get? id = some e') : s.Guarded plan id e' := by
  induction plan generalizing s with
  | nil =>
    cases ok
    exact .nil live
  | cons t rest ih =>
    obtain ⟨s₁, first, ok⟩ := Checked.bind_eq_ok.1 ok
    exact .cons h first (ih (h.tail first) ok)

theorem applyAll_folds (h : s.LeadsAway b plan) (ok : s.applyAll plan = .ok s') (mem : t ∈ plan) :
    ∃ id, s.Folds plan t id ∧ s'.model.graph.transitions.contains id = true := by
  induction plan generalizing s with
  | nil => cases mem
  | cons u rest ih =>
    obtain ⟨s₁, first, followed⟩ := Checked.bind_eq_ok.1 ok
    cases mem with
    | head =>
      obtain ⟨id, e₁, one, live, stays⟩ := receives_stays h first
      have frames : s₁.model.graph.Frames s'.model.graph _ (fun _ _ => False) :=
        applyAll_frames followed
      obtain ⟨e', live', -⟩ := (frames.stays live stays).edge
      exact ⟨id, (folds_cons first).2 (.inl ⟨rfl, (one id).2 rfl⟩), Arena.contains_of_get? live'⟩
    | tail _ mem =>
      obtain ⟨id, folds, live⟩ := ih (h.tail first) followed mem
      exact ⟨id, (folds_cons first).2 (.inr folds), live⟩

end

section

variable {mid planned : Session} {o b : StateId} {matching : Matching} {e : Transition}

theorem mem_plan_guards (ok : s.plan o b matching = .ok (plan, s')) (mem : t ∈ plan) :
    ∃ e, s.model.graph.transitions.get? t.baseEdge = some e ∧
      s.resolveGuards e.guards = .ok (some t.guards) := by
  obtain ⟨so, ids, ins, outs, -, -, hins, houts, rfl, -⟩ := plan_eq_ok ok
  rcases List.mem_append.1 mem with mem | mem
  · obtain ⟨id, -, found⟩ := (mem_planned hins).1 mem
    obtain ⟨e, live, found⟩ := Arena.get_bind_eq_ok.1 found
    split at found
    · cases found
    split at found
    · cases found
    obtain ⟨gs, resolved, found⟩ := Checked.bind_eq_ok.1 found
    cases gs with
    | none => cases found
    | some gs =>
      cases found
      exact ⟨e, live, resolved⟩
  · obtain ⟨id, -, found⟩ := (mem_planned houts).1 mem
    obtain ⟨e, entry, v, avm, i, live, -, -, -, -, -, -, -, -, retargeted⟩ :=
      outgoingFinding_eq_ok.1 found
    obtain ⟨gs, d, resolved, -, -, rfl⟩ := retarget_eq_ok.1 retargeted
    exact ⟨e, live, resolved⟩

/-- What a plan makes of the guard of an edge. It is widened to live states, which are its own or
images in the running version, or the edge is left out. -/
inductive Treats (s : Session) (plan : List Transfer) (id : TransitionId) (g : Guard) : Prop
  | widened {gs : Guard} (widens : s.Widens g gs)
      (live : ∀ x, x ∈ gs → s.IsLive x ∧ (x ∈ g ∨ ∃ p st, p ∈ g ∧ x ∈ s.ledger.imagesOf p ∧
        s.model.graph.states.get? x = some st ∧ st.version = .running))
      (guards : ∀ t ∈ plan, t.baseEdge = id → t.guards = gs)
  | leftOut (restricts : g.isEmpty = false) (gone : ∀ p x, p ∈ g → ¬ s.GivesWay p x)
      (unplanned : ∀ t ∈ plan, t.baseEdge ≠ id)

theorem plan_treats (h : s.Sound) (traces : s.ledger.Traces s.model)
    (ok : s.plan o b matching = .ok (plan, s'))
    (live : s.model.graph.transitions.get? id = some e) : s.Treats plan id e.guards := by
  obtain ⟨found, resolved⟩ := resolveGuards_succeeds h (h.model.edge live).guards
  have planned : ∀ t ∈ plan, t.baseEdge = id → found = some t.guards := by
    rintro t mem rfl
    obtain ⟨e', live', resolved'⟩ := mem_plan_guards ok mem
    cases live.symm.trans live'
    exact Except.ok.inj (resolved.symm.trans resolved')
  cases found with
  | none =>
    obtain ⟨restricts, gone⟩ := resolveGuards_fails resolved
    exact .leftOut restricts gone fun t mem same => nomatch planned t mem same
  | some gs =>
    have widens := resolveGuards_widens resolved
    refine .widened widens (fun x mem => ?_) fun t mem same =>
      (Option.some.inj (planned t mem same)).symm
    obtain ⟨p, mem, ⟨alive, rfl⟩ | ⟨-, image, alive⟩⟩ := (widens.mem x).1 mem
    · exact ⟨alive, .inl mem⟩
    · obtain ⟨st, hst, live⟩ := alive
      exact ⟨⟨st, hst, live⟩, .inr ⟨p, st, mem, image, hst, traces.running image hst⟩⟩

/-- After the first registration of a pair, guards are the unions of what was folded into their
edges, of guards that were widened to live states. -/
theorem Used.register_widens (used : s.Used) (wf : s.model.WellFormed) {so sb : State}
    (observed : s.model.graph.states.get? o = some so) (running : so.version = .running)
    (base : s.model.graph.states.get? b = some sb) (old : sb.version = .base)
    (fresh : b ∉ s.ledger.equivalentsOf o) (n : SnapshotId) (matching : Matching) :
    (s.Places o matching → Succeeds (s.register o b n matching)) ∧
      ∀ s', s.register o b n matching = .ok s' → ∃ mid planned plan,
        s.Begins o b matching mid planned plan ∧ planned.applyAll plan = .ok s' ∧
        planned.model.graph = s.model.graph ∧
        (∀ id e, s.model.graph.transitions.get? id = some e → mid.Treats plan id e.guards) ∧
        (∀ t ∈ plan, ∃ id, planned.Folds plan t id ∧
          s'.model.graph.transitions.contains id = true) ∧
        ∀ id e', s'.model.graph.transitions.get? id = some e' → planned.Guarded plan id e' := by
  have sound := used.sound wf
  refine ⟨fun placed => ?_, fun s' registered => ?_⟩
  · exact sound.register_succeeds (Arena.contains_of_get? observed) (Arena.contains_of_get? base)
      placed n
  obtain ⟨mid, planned, plan, begins, applied⟩ :=
    sound.register_begun used.traces observed running base fresh registered
  have distinct : o ≠ b := by
    rintro rfl
    cases observed.symm.trans base
    cases running.symm.trans old
  have consistent := begins.sound.model.graph
  obtain ⟨sorted, dest⟩ := plan_sorted consistent begins.made
  have elsewhere : ∀ t ∈ plan, t.isIncoming = true → t.dest ≠ b :=
    fun t mem incoming => dest t mem incoming ▸ distinct
  have away : planned.LeadsAway b plan := ⟨plan_awaits consistent begins.made, elsewhere, sorted⟩
  refine ⟨mid, planned, plan, begins, applied, ?_, fun id e live => ?_, fun t mem => ?_,
    fun id e' live => ?_⟩
  · rw [(plan_aside begins.made).model.graph, begins.graph]
  · exact plan_treats begins.sound begins.traces begins.made (begins.graph ▸ live)
  · exact applyAll_folds away applied mem
  · exact applyAll_guarded away applied live

end

theorem register_widens_forked : ∃ s' e' plan, ∃ planned : Session,
    Session.register { model := .forked } ⟨2⟩ ⟨0⟩ ⟨0⟩ {} = .ok s' ∧
      s'.model.graph.transitions.get? ⟨0⟩ = some e' ∧ planned.Guarded plan ⟨0⟩ e' ∧
      e'.guards.accepts [⟨3⟩] = true := by
  obtain ⟨goes, widens⟩ := (Used.start .forked).register_widens built_forked.sound.model
    (o := ⟨2⟩) (b := ⟨0⟩) rfl rfl rfl rfl nofun ⟨0⟩ {}
  obtain ⟨s', registered⟩ := goes (places_unmatched _ _)
  obtain ⟨-, planned, plan, -, -, -, -, -, guarded⟩ := widens s' registered
  have open₃ : (Session.register { model := .forked } ⟨2⟩ ⟨0⟩ ⟨0⟩ {}).toOption.bind (fun s =>
      (s.model.graph.transitions.get? ⟨0⟩).map fun e => e.guards.accepts [⟨3⟩]) = some true := by
    decide +kernel
  rw [registered] at open₃
  simp only [Except.toOption, Option.bind_some, Option.map_eq_some_iff] at open₃
  obtain ⟨e', live, accepts⟩ := open₃
  exact ⟨s', e', plan, planned, registered, live, guarded ⟨0⟩ e' live, accepts⟩

end Session

end ScreenGraph
