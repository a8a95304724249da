import ScreenGraph.Proofs.Indexing
import ScreenGraph.Proofs.WellFormed

namespace ScreenGraph

namespace Session

variable {s s' : Session}

def IsLive (s : Session) (p : StateId) : Prop :=
  ∃ st, s.model.graph.states.get? p = some st ∧ st.isLive = true

/-- A live state stands for itself, and for the states that it is an image of. -/
def StandsFor (s : Session) (x p : StateId) : Prop :=
  s.IsLive x ∧ (x = p ∨ x ∈ s.ledger.imagesOf p)

def Resolves (s : Session) (g : Guard) : Prop :=
  g.isEmpty = true ∨ ∃ p, p ∈ g ∧ ∃ x, s.StandsFor x p

theorem liveImages_succeeds (h : s.Sound) (p : StateId) : Succeeds (s.liveImages p) := by
  refine filterChecked_succeeds fun i mem => ?_
  obtain ⟨st, hst⟩ := Arena.contains_iff.1 (h.ledger.image mem)
  exact .get hst (succeeds_pure _)

theorem mem_liveImages {p : StateId} {xs : List StateId} (ok : s.liveImages p = .ok xs)
    {x : StateId} : x ∈ xs ↔ x ∈ s.ledger.imagesOf p ∧ s.IsLive x := by
  rw [mem_filterChecked ok]
  refine and_congr_right fun _ => ?_
  simp only [Checked.bind_eq_ok, pure_eq_ok, IsLive, Graph.state, Arena.get_eq_ok_iff]

theorem resolveGuard_succeeds (h : s.Sound) {p : StateId}
    (live : s.model.graph.states.contains p = true) : Succeeds (s.resolveGuard p) := by
  obtain ⟨st, hst⟩ := Arena.contains_iff.1 live
  refine .get hst ?_
  split
  · exact succeeds_pure _
  · exact liveImages_succeeds h p

theorem resolveGuard_eq_ok {p : StateId} {xs : List StateId} (ok : s.resolveGuard p = .ok xs) :
    (∀ x ∈ xs, s.StandsFor x p) ∧ (∀ x, s.StandsFor x p → xs ≠ []) := by
  obtain ⟨st, hst, ok⟩ := Arena.get_bind_eq_ok.1 ok
  split at ok
  · next live =>
    cases ok
    refine ⟨?_, fun _ _ => List.cons_ne_nil _ _⟩
    intro x mem
    cases List.mem_singleton.1 mem
    exact ⟨⟨st, hst, live⟩, .inl rfl⟩
  · next dead =>
    refine ⟨?_, ?_⟩
    · intro x mem
      obtain ⟨image, live⟩ := (mem_liveImages ok).1 mem
      exact ⟨live, .inr image⟩
    · rintro x ⟨live, rfl | image⟩ rfl
      · obtain ⟨st', hst', live⟩ := live
        cases hst.symm.trans hst'
        exact dead live
      · exact List.not_mem_nil ((mem_liveImages ok).2 ⟨image, live⟩)

theorem resolveGuards_succeeds (h : s.Sound) {g : Guard}
    (live : ∀ p, p ∈ g → s.model.graph.states.contains p = true) :
    Succeeds (s.resolveGuards g) := by
  unfold resolveGuards
  split
  · exact succeeds_pure _
  · refine Succeeds.bind ?_ fun _ _ => succeeds_pure _
    exact flatMapChecked_succeeds fun p mem => resolveGuard_succeeds h (live p mem)

theorem resolveGuards_eq_some {g gs : Guard} (ok : s.resolveGuards g = .ok (some gs)) :
    s.Resolves g ∧ ∀ x, x ∈ gs → ∃ p, p ∈ g ∧ s.StandsFor x p := by
  unfold resolveGuards at ok
  split at ok
  · next empty =>
    cases ok
    exact ⟨.inl empty, fun x hx => absurd hx (OrderedSet.not_mem_empty x)⟩
  obtain ⟨xs, resolved, done⟩ := Checked.bind_eq_ok.1 ok
  have member : ∀ x, x ∈ OrderedSet.ofList xs → ∃ p, p ∈ g ∧ s.StandsFor x p := by
    intro x hx
    obtain ⟨p, hp, ys, hys, mem⟩ := (mem_flatMapChecked resolved).1 (OrderedSet.mem_ofList.1 hx)
    exact ⟨p, hp, (resolveGuard_eq_ok hys).1 x mem⟩
  dsimp only at done
  split at done
  · cases done
  · next filled =>
    cases done
    refine ⟨.inr ?_, member⟩
    obtain ⟨x, hx⟩ := OrderedSet.exists_mem filled
    obtain ⟨p, hp, stands⟩ := member x hx
    exact ⟨p, hp, x, stands⟩

theorem resolveGuards_eq_none {g : Guard} (ok : s.resolveGuards g = .ok none) :
    ¬ s.Resolves g := by
  unfold resolveGuards at ok
  split at ok
  · cases ok
  next filled =>
  obtain ⟨xs, resolved, done⟩ := Checked.bind_eq_ok.1 ok
  dsimp only at done
  split at done
  · next none =>
    rintro (empty | ⟨p, hp, x, stands⟩)
    · exact filled empty
    · obtain ⟨ys, hys⟩ := flatMapChecked_each resolved hp
      obtain ⟨y, hy⟩ := List.exists_mem_of_ne_nil ys ((resolveGuard_eq_ok hys).2 x stands)
      have mem := (mem_flatMapChecked resolved).2 ⟨p, hp, ys, hys, hy⟩
      exact OrderedSet.isEmpty_iff.1 none y (OrderedSet.mem_ofList.2 mem)
  · cases done

def Migrates (s : Session) (base : StateId) (e : Transition) : Prop :=
  e.version = .base ∧ e.source ≠ base ∧ e.source ∉ s.ledger.observedBase

variable {o b : StateId} {id : TransitionId} {f : Finding}

structure PlannedIncoming (s : Session) (o b : StateId) (t : Transfer) (e : Transition) : Prop where
  edge : s.model.graph.transitions.get? t.baseEdge = some e
  migrates : s.Migrates b e
  resolves : s.Resolves e.guards
  incoming : t.isIncoming = true
  source : t.source = e.source
  action : t.action = .kept e.action
  dest : t.dest = o
  guards : ∀ x, x ∈ t.guards → ∃ p, p ∈ e.guards ∧ s.StandsFor x p

structure PlannedOutgoing (s : Session) (o : StateId) (w : WindowId) (matching : Matching)
    (t : Transfer) (e : Transition) : Prop where
  edge : s.model.graph.transitions.get? t.baseEdge = some e
  moves : e.source ≠ e.dest
  outgoing : t.isIncoming = false
  source : t.source = o
  action : ∃ (a : Action) (v i : AvmId), matching.image? v = some i ∧
    t.action = .retargeted w { a with target := some i }
  dest : t.dest = e.dest ∨ s.StandsFor t.dest e.dest
  guards : ∀ x, x ∈ t.guards → ∃ p, p ∈ e.guards ∧ s.StandsFor x p

theorem incomingFinding_succeeds (h : s.Sound)
    (live : s.model.graph.transitions.contains id = true) :
    Succeeds (s.incomingFinding o b id) := by
  obtain ⟨e, he⟩ := Arena.contains_iff.1 live
  refine .get he ?_
  split
  · exact succeeds_pure _
  split
  · exact succeeds_pure _
  refine (resolveGuards_succeeds h (h.model.edge he).guards).bind ?_
  intro gs _
  cases gs <;> exact succeeds_pure _

theorem unplanned {made : Prop} {holds : Transfer → Prop} (none : f.transfer? = none)
    (not : ¬ made) : ((∃ t, f = .planned t) ↔ made) ∧ ∀ t, f = .planned t → holds t := by
  have other : ∀ t, f ≠ .planned t := by
    rintro t rfl
    cases none
  constructor
  · simp [other, not]
  · exact fun t planned => absurd planned (other t)

theorem incomingFinding_eq_ok (ok : s.incomingFinding o b id = .ok f) :
    ∃ e, s.model.graph.transitions.get? id = some e ∧
      ((∃ t, f = .planned t) ↔ s.Migrates b e ∧ s.Resolves e.guards) ∧
      ∀ t, f = .planned t → t.baseEdge = id ∧ s.PlannedIncoming o b t e := by
  obtain ⟨e, he, ok⟩ := Arena.get_bind_eq_ok.1 ok
  refine ⟨e, he, ?_⟩
  split at ok
  · next stays =>
    cases ok
    refine unplanned rfl ?_
    rintro ⟨⟨version, source, -⟩, -⟩
    simp [version, source] at stays
  next moves =>
  split at ok
  · next observed =>
    cases ok
    refine unplanned rfl ?_
    rintro ⟨⟨-, -, unobserved⟩, -⟩
    exact absurd observed unobserved
  next unobserved =>
  have migrates : s.Migrates b e := by
    simp only [Bool.or_eq_true, decide_eq_true_eq, not_or, ne_eq, Decidable.not_not] at moves
    exact ⟨moves.1, moves.2, unobserved⟩
  obtain ⟨gs, resolved, ok⟩ := Checked.bind_eq_ok.1 ok
  cases gs with
  | none =>
    cases ok
    refine unplanned rfl ?_
    rintro ⟨-, resolves⟩
    exact absurd resolves (resolveGuards_eq_none resolved)
  | some gs =>
    cases ok
    obtain ⟨resolves, stand⟩ := resolveGuards_eq_some resolved
    refine ⟨⟨fun _ => ⟨migrates, resolves⟩, fun _ => ⟨_, rfl⟩⟩, ?_⟩
    intro t ht
    cases ht
    exact ⟨rfl, he, migrates, resolves, rfl, rfl, rfl, rfl, stand⟩

theorem resolveDest_succeeds (h : s.Sound) {e : Transition}
    (live : s.model.graph.states.contains e.dest = true) : Succeeds (s.resolveDest e) := by
  unfold resolveDest
  split
  · exact succeeds_pure _
  · refine Succeeds.bind ?_ fun _ _ => succeeds_pure _
    refine resolveGuards_succeeds h fun p mem => ?_
    rw [OrderedSet.mem_ofList, List.mem_singleton] at mem
    exact mem ▸ live

theorem resolveDest_eq_some {e : Transition} {d : StateId}
    (ok : s.resolveDest e = .ok (some d)) : d = e.dest ∨ s.StandsFor d e.dest := by
  unfold resolveDest at ok
  split at ok
  · cases ok
    exact .inl rfl
  obtain ⟨gs, resolved, done⟩ := Checked.bind_eq_ok.1 ok
  obtain ⟨g, rfl, first⟩ := Option.bind_eq_some_iff.1 (pure_eq_ok.1 done)
  obtain ⟨p, mem, stands⟩ := (resolveGuards_eq_some resolved).2 d (List.mem_of_head? first)
  rw [OrderedSet.mem_ofList, List.mem_singleton] at mem
  exact .inr (mem ▸ stands)

theorem StandsFor.contains {x p : StateId} (h : s.StandsFor x p) :
    s.model.graph.states.contains x = true := by
  obtain ⟨⟨st, hst, -⟩, -⟩ := h
  exact Arena.contains_of_get? hst

theorem isSuppressed_succeeds (h : s.Sound) (w : WindowId) (a : Action) {d : StateId}
    (live : s.model.graph.states.contains d = true) : Succeeds (s.isSuppressed w a d) := by
  obtain ⟨st, hst⟩ := Arena.contains_iff.1 live
  refine .get hst ?_
  split
  · exact succeeds_pure _
  next x found =>
  dsimp only
  split
  · exact succeeds_pure _
  obtain ⟨entry, hentry⟩ := Arena.contains_iff.1 (h.model.actions.interned found)
  exact .get hentry (succeeds_pure _)

theorem retarget_succeeds (h : s.Sound) {e : Transition}
    (live : s.model.graph.transitions.get? id = some e) (w : WindowId) (a : Action) :
    Succeeds (s.retarget o w id e a) := by
  refine (resolveGuards_succeeds h (h.model.edge live).guards).bind fun gs _ => ?_
  cases gs with
  | none => exact succeeds_pure _
  | some gs =>
    have dest := h.model.graph.dest live
    refine (resolveDest_succeeds h dest).bind fun d resolved => ?_
    cases d with
    | none => exact succeeds_pure _
    | some d =>
      have live : s.model.graph.states.contains d = true := by
        rcases resolveDest_eq_some resolved with rfl | stands
        · exact dest
        · exact stands.contains
      dsimp only
      split
      · refine (isSuppressed_succeeds h w a live).bind fun _ _ => ?_
        split <;> exact succeeds_pure _
      · exact succeeds_pure _

theorem retarget_eq_ok {e : Transition} {w : WindowId} {a : Action} {t : Transfer} :
    s.retarget o w id e a = .ok (.planned t) ↔ ∃ gs d,
      s.resolveGuards e.guards = .ok (some gs) ∧ s.resolveDest e = .ok (some d) ∧
      (e.isNavigateBack = true → s.isSuppressed w a d = .ok false) ∧
      t = {
        baseEdge := id, source := o, action := .retargeted w a, dest := d, guards := gs
        isIncoming := false, isNavigateBack := e.isNavigateBack } := by
  constructor
  · intro ok
    obtain ⟨gs, resolved, ok⟩ := Checked.bind_eq_ok.1 ok
    cases gs with
    | none => cases ok
    | some gs =>
      obtain ⟨d, dest, ok⟩ := Checked.bind_eq_ok.1 ok
      cases d with
      | none => cases ok
      | some d =>
        refine ⟨gs, d, resolved, dest, ?_⟩
        dsimp only at ok
        split at ok
        · obtain ⟨c, suppressed, ok⟩ := Checked.bind_eq_ok.1 ok
          cases c with
          | true => cases ok
          | false =>
            cases ok
            exact ⟨fun _ => suppressed, rfl⟩
        · next onward =>
          cases ok
          exact ⟨fun back => absurd back onward, rfl⟩
  · rintro ⟨gs, d, resolved, dest, free, rfl⟩
    refine Checked.bind_eq_ok.2 ⟨some gs, resolved, Checked.bind_eq_ok.2 ⟨some d, dest, ?_⟩⟩
    dsimp only
    split
    · next back => exact Checked.bind_eq_ok.2 ⟨false, free back, rfl⟩
    · rfl

theorem retarget_planned {e : Transition} {w : WindowId} {a : Action} {t : Transfer}
    (ok : s.retarget o w id e a = .ok (.planned t)) :
    t.baseEdge = id ∧ t.source = o ∧ t.action = .retargeted w a ∧ t.isIncoming = false ∧
      (t.dest = e.dest ∨ s.StandsFor t.dest e.dest) ∧
      ∀ x, x ∈ t.guards → ∃ p, p ∈ e.guards ∧ s.StandsFor x p := by
  obtain ⟨gs, d, resolved, dest, -, rfl⟩ := retarget_eq_ok.1 ok
  exact ⟨rfl, rfl, rfl, rfl, resolveDest_eq_some dest, (resolveGuards_eq_some resolved).2⟩

variable {w : WindowId} {matching : Matching}

theorem actsOnWebView_eq_ok {m : Model} {x : ActionId} {entry : ActionEntry} {v : AvmId}
    (hentry : m.actions.entries.get? x = some entry) (target : entry.action.target = some v)
    {c : Bool} : m.actsOnWebView x = .ok c ↔
      ∃ avm, m.avms.avms.get? v = some avm ∧ avm.isWebView = c := by
  have action := ActionTable.action_eq_ok.2 ⟨entry, hentry, rfl⟩
  simp only [Model.actsOnWebView, action, target, Checked.bind_eq_ok, Except.ok.injEq,
    exists_eq_left', AvmStore.get, Arena.get_eq_ok_iff, pure_eq_ok]

theorem outgoingFinding_succeeds (h : s.Sound)
    (live : s.model.graph.transitions.contains id = true) :
    Succeeds (s.outgoingFinding o w matching id) := by
  obtain ⟨e, he⟩ := Arena.contains_iff.1 live
  refine .get he ?_
  have live := he
  split
  · exact succeeds_pure _
  obtain ⟨entry, hentry⟩ := Arena.contains_iff.1 (h.model.edge live).action
  have action := ActionTable.action_eq_ok.2 ⟨entry, hentry, rfl⟩
  refine .after action ?_
  split
  · exact succeeds_pure _
  next target some =>
  obtain ⟨avm, havm⟩ := Arena.contains_iff.1 (h.model.actions.target hentry target some)
  refine .after ((actsOnWebView_eq_ok hentry some).2 ⟨avm, havm, rfl⟩) ?_
  split
  · exact succeeds_pure _
  split
  · exact succeeds_pure _
  · exact retarget_succeeds h live w _

theorem outgoingFinding_eq_ok {t : Transfer} :
    s.outgoingFinding o w matching id = .ok (.planned t) ↔ ∃ e entry v avm i,
      s.model.graph.transitions.get? id = some e ∧ e.isImplicit = false ∧ e.source ≠ e.dest ∧
      e.version = .base ∧ s.model.actions.entries.get? e.action = some entry ∧
      entry.action.target = some v ∧ s.model.avms.avms.get? v = some avm ∧
      avm.isWebView = false ∧ matching.image? v = some i ∧
      s.retarget o w id e { entry.action with target := some i } = .ok (.planned t) := by
  constructor
  · intro ok
    obtain ⟨e, live, ok⟩ := Arena.get_bind_eq_ok.1 ok
    split at ok
    · cases ok
    next passes =>
    obtain ⟨x, action, ok⟩ := Checked.bind_eq_ok.1 ok
    obtain ⟨entry, hentry, rfl⟩ := ActionTable.action_eq_ok.1 action
    split at ok
    · cases ok
    next v target =>
    obtain ⟨shown, web, ok⟩ := Checked.bind_eq_ok.1 ok
    obtain ⟨avm, havm, rfl⟩ := (actsOnWebView_eq_ok hentry target).1 web
    split at ok
    · cases ok
    next visible =>
    split at ok
    · cases ok
    next i image =>
    simp only [Transition.isSelfLoop, ne_eq, Bool.or_eq_true, decide_eq_true_eq, not_or,
      Bool.not_eq_true, Decidable.not_not] at passes
    exact ⟨e, entry, v, avm, i, live, passes.1.1, passes.1.2, passes.2, hentry, target, havm,
      by simpa using visible, image, ok⟩
  · rintro ⟨e, entry, v, avm, i, live, explicit, moves, version, hentry, target, havm, shown, image,
      retargeted⟩
    refine Arena.get_bind_eq_ok.2 ⟨e, live, ?_⟩
    rw [if_neg (by simp [Transition.isSelfLoop, explicit, moves, version])]
    refine Checked.bind_eq_ok.2 ⟨_, ActionTable.action_eq_ok.2 ⟨entry, hentry, rfl⟩, ?_⟩
    simp only [target]
    refine Checked.bind_eq_ok.2 ⟨_, (actsOnWebView_eq_ok hentry target).2 ⟨avm, havm, shown⟩, ?_⟩
    simpa [image] using retargeted

theorem outgoingFinding_planned {t : Transfer}
    (ok : s.outgoingFinding o w matching id = .ok (.planned t)) :
    t.baseEdge = id ∧ ∃ e, s.PlannedOutgoing o w matching t e := by
  obtain ⟨e, entry, v, avm, i, live, -, moves, -, -, -, -, -, image, retargeted⟩ :=
    outgoingFinding_eq_ok.1 ok
  obtain ⟨rfl, source, action, outgoing, dest, guards⟩ := retarget_planned retargeted
  exact ⟨rfl, e, live, moves, outgoing, source, ⟨entry.action, v, i, image, action⟩, dest, guards⟩

theorem planned_sublist {find : TransitionId → Checked Finding} {ids : List TransitionId}
    {fs : List Finding} (ok : flatMapChecked (fun id => return [← find id]) ids = .ok fs)
    (named : ∀ id t, find id = .ok (.planned t) → t.baseEdge = id) :
    ((fs.filterMap Finding.transfer?).map Transfer.baseEdge).Sublist ids := by
  induction ids generalizing fs with
  | nil =>
    cases ok
    exact .slnil
  | cons id r ih =>
    obtain ⟨bs, hbs, ok⟩ := Checked.bind_eq_ok.1 ok
    obtain ⟨rest, hrest, done⟩ := Checked.bind_eq_ok.1 ok
    cases done
    obtain ⟨f, hf, done⟩ := Checked.bind_eq_ok.1 hbs
    cases done
    cases f with
    | planned t =>
      cases named id t hf
      exact (ih hrest).cons_cons _
    | _ => exact (ih hrest).cons _

theorem mem_planned {find : TransitionId → Checked Finding} {ids : List TransitionId}
    {fs : List Finding} (ok : flatMapChecked (fun id => return [← find id]) ids = .ok fs)
    {t : Transfer} :
    t ∈ fs.filterMap Finding.transfer? ↔ ∃ id ∈ ids, find id = .ok (.planned t) := by
  have transfer : ∀ {f : Finding}, f.transfer? = some t ↔ f = .planned t := by
    intro f
    cases f <;> simp [Finding.transfer?]
  simp only [List.mem_filterMap, transfer, exists_eq_right, mem_flatMapChecked ok]
  refine exists_congr fun id => and_congr_right fun _ => ?_
  constructor
  · rintro ⟨bs, hbs, mem⟩
    obtain ⟨f, hf, done⟩ := Checked.bind_eq_ok.1 hbs
    cases done
    rw [hf, List.mem_singleton.1 mem]
  · intro hf
    exact ⟨[.planned t], by rw [hf]; rfl, by simp⟩

theorem plan_eq_ok {plan : List Transfer} (ok : s.plan o b matching = .ok (plan, s')) :
    ∃ so ids ins outs, s.model.graph.states.get? o = some so ∧
      s.model.graph.outgoing b = .ok ids ∧
      flatMapChecked (fun id => return [← s.incomingFinding o b id])
        (s.model.graph.incoming b) = .ok ins ∧
      flatMapChecked (fun id => return [← s.outgoingFinding o so.window matching id]) ids =
        .ok outs ∧
      plan = ins.filterMap Finding.transfer? ++ outs.filterMap Finding.transfer? ∧
      ∃ n, s' = { s with ledger := s.ledger.addUnresolved n } := by
  obtain ⟨fs, found, done⟩ := Checked.bind_eq_ok.1 ok
  cases done
  obtain ⟨ins, hins, found⟩ := Checked.bind_eq_ok.1 found
  obtain ⟨so, hso, found⟩ := Arena.get_bind_eq_ok.1 found
  obtain ⟨ids, hids, found⟩ := Checked.bind_eq_ok.1 found
  obtain ⟨outs, houts, done⟩ := Checked.bind_eq_ok.1 found
  cases done
  exact ⟨so, ids, ins, outs, hso, hids, hins, houts,
    List.filterMap_append, _, rfl⟩

end Session

structure Model.KnowsTransfer (m : Model) (t : Transfer) : Prop where
  source : m.graph.states.contains t.source = true
  dest : m.graph.states.contains t.dest = true
  guards : ∀ x, x ∈ t.guards → m.graph.states.contains x = true
  kept : ∀ {a}, t.action = .kept a → m.actions.entries.contains a = true
  retargeted : ∀ {w a v}, t.action = .retargeted w a → a.target = some v →
    m.windowOfAvm v = .ok w

theorem Model.KnowsTransfer.keeps {m m' : Model} {t : Transfer} (h : m.KnowsTransfer t)
    (k : m.Keeps m') : m'.KnowsTransfer t where
  source := by
    rw [k.contains_state]
    exact h.source
  dest := by
    rw [k.contains_state]
    exact h.dest
  guards x hx := by
    rw [k.contains_state]
    exact h.guards x hx
  kept action := k.contains_action (h.kept action)
  retargeted action target := by
    rw [k.windowOfAvm]
    exact h.retargeted action target

namespace Session

variable {s s' : Session} {o b : StateId} {matching : Matching} {plan : List Transfer}

theorem plan_succeeds (h : s.Sound) (ho : s.model.graph.states.contains o = true)
    (hb : s.model.graph.states.contains b = true) : Succeeds (s.plan o b matching) := by
  obtain ⟨so, hso⟩ := Arena.contains_iff.1 ho
  obtain ⟨sb, hsb⟩ := Arena.contains_iff.1 hb
  refine Succeeds.bind ?_ fun _ _ => succeeds_pure _
  refine Succeeds.bind ?_ fun ins _ => ?_
  · refine flatMapChecked_succeeds fun id mem => ?_
    obtain ⟨e, he, -⟩ := Graph.mem_incoming.1 mem
    exact (incomingFinding_succeeds h (Arena.contains_of_get? he)).bind fun _ _ => succeeds_pure _
  refine .get hso ?_
  refine Succeeds.bind ?_ fun ids hids => ?_
  · exact .get hsb (succeeds_pure _)
  refine Succeeds.bind ?_ fun _ _ => succeeds_pure _
  refine flatMapChecked_succeeds fun id mem => ?_
  obtain ⟨st, hst, rfl⟩ := Graph.outgoing_eq_ok hids
  obtain ⟨e, he, -⟩ := (h.model.graph.listed hst id).1 mem
  exact (outgoingFinding_succeeds h (Arena.contains_of_get? he)).bind fun _ _ => succeeds_pure _

theorem mem_plannedIncoming {ins : List Finding}
    (walked : flatMapChecked (fun id => return [← s.incomingFinding o b id])
      (s.model.graph.incoming b) = .ok ins) {t : Transfer}
    (mem : t ∈ ins.filterMap Finding.transfer?) : ∃ e, e.dest = b ∧ s.PlannedIncoming o b t e := by
  obtain ⟨id, listed, found⟩ := (mem_planned walked).1 mem
  obtain ⟨e, -, -, made⟩ := incomingFinding_eq_ok found
  obtain ⟨rfl, planned⟩ := made t rfl
  obtain ⟨e', live, into⟩ := Graph.mem_incoming.1 listed
  cases planned.edge.symm.trans live
  exact ⟨e, into, planned⟩

theorem mem_plannedOutgoing (consistent : s.model.graph.Consistent) {ids : List TransitionId}
    (listed : s.model.graph.outgoing b = .ok ids) {w : WindowId} {outs : List Finding}
    (walked : flatMapChecked (fun id => return [← s.outgoingFinding o w matching id]) ids =
      .ok outs) {t : Transfer} (mem : t ∈ outs.filterMap Finding.transfer?) :
    ∃ e, e.source = b ∧ s.PlannedOutgoing o w matching t e := by
  obtain ⟨id, entry, found⟩ := (mem_planned walked).1 mem
  obtain ⟨rfl, e, planned⟩ := outgoingFinding_planned found
  obtain ⟨st, hst, rfl⟩ := Graph.outgoing_eq_ok listed
  obtain ⟨e', live, leaves⟩ := (consistent.listed hst _).1 entry
  cases planned.edge.symm.trans live
  exact ⟨e, leaves, planned⟩

theorem mem_plan (consistent : s.model.graph.Consistent)
    (ok : s.plan o b matching = .ok (plan, s')) {t : Transfer} (mem : t ∈ plan) :
    ∃ e, (e.dest = b ∧ s.PlannedIncoming o b t e) ∨
      (e.source = b ∧ ∃ so, s.model.graph.states.get? o = some so ∧
        s.PlannedOutgoing o so.window matching t e) := by
  obtain ⟨so, ids, ins, outs, hso, hids, hins, houts, rfl, -⟩ := plan_eq_ok ok
  rcases List.mem_append.1 mem with mem | mem
  · obtain ⟨e, into, planned⟩ := mem_plannedIncoming hins mem
    exact ⟨e, .inl ⟨into, planned⟩⟩
  · obtain ⟨e, leaves, planned⟩ := mem_plannedOutgoing consistent hids houts mem
    exact ⟨e, .inr ⟨leaves, so, hso, planned⟩⟩

theorem plan_complete (ok : s.plan o b matching = .ok (plan, s')) {id : TransitionId}
    {e : Transition} (live : s.model.graph.transitions.get? id = some e) (into : e.dest = b)
    (migrates : s.Migrates b e) (resolves : s.Resolves e.guards) :
    ∃ t ∈ plan, t.baseEdge = id ∧ t.isIncoming = true ∧ t.dest = o := by
  obtain ⟨so, ids, ins, outs, -, -, hins, -, rfl, -⟩ := plan_eq_ok ok
  have mem := Graph.mem_incoming.2 ⟨e, live, into⟩
  obtain ⟨fs, found⟩ := flatMapChecked_each hins mem
  obtain ⟨f, found, -⟩ := Checked.bind_eq_ok.1 found
  obtain ⟨e', live', finds, made⟩ := incomingFinding_eq_ok found
  cases live.symm.trans live'
  obtain ⟨t, rfl⟩ := finds.2 ⟨migrates, resolves⟩
  obtain ⟨base, planned⟩ := made t rfl
  have entry := (mem_planned hins).2 ⟨id, mem, found⟩
  exact ⟨t, List.mem_append_left _ entry, base, planned.incoming, planned.dest⟩

theorem plan_nodup (consistent : s.model.graph.Consistent)
    (ok : s.plan o b matching = .ok (plan, s')) : (plan.map Transfer.baseEdge).Nodup := by
  obtain ⟨so, ids, ins, outs, -, hids, hins, houts, rfl, -⟩ := plan_eq_ok ok
  have first := planned_sublist hins fun id t found => by
    obtain ⟨e, -, -, made⟩ := incomingFinding_eq_ok found
    exact (made t rfl).1
  have second := planned_sublist houts fun id t found => (outgoingFinding_planned found).1
  rw [List.map_append]
  refine List.nodup_append.2 ⟨(Graph.incoming_nodup _ b).sublist first, ?_, ?_⟩
  · obtain ⟨st, -, rfl⟩ := Graph.outgoing_eq_ok hids
    exact st.outgoing.nodup.sublist second
  · rintro id hin _ hout rfl
    obtain ⟨t, ht, rfl⟩ := List.mem_map.1 hin
    obtain ⟨u, hu, same⟩ := List.mem_map.1 hout
    obtain ⟨e, -, incoming⟩ := mem_plannedIncoming hins ht
    obtain ⟨e', leaves, outgoing⟩ := mem_plannedOutgoing consistent hids houts hu
    have edge := outgoing.edge
    rw [same] at edge
    cases incoming.edge.symm.trans edge
    exact incoming.migrates.2.1 leaves

theorem plan_awaits (consistent : s.model.graph.Consistent)
    (ok : s.plan o b matching = .ok (plan, s')) : s'.model.graph.Awaits b plan := by
  have nodup := plan_nodup consistent ok
  have origin := fun t mem => mem_plan consistent ok (t := t) mem
  obtain ⟨-, -, -, -, -, -, -, -, -, n, rfl⟩ := plan_eq_ok ok
  refine ⟨nodup, fun t mem => ?_⟩
  obtain ⟨e, ⟨into, planned⟩ | ⟨-, so, -, planned⟩⟩ := origin t mem
  · exact ⟨e, planned.edge, fun _ => ⟨planned.source.symm, planned.action, into⟩⟩
  · exact ⟨e, planned.edge, fun incoming => absurd (incoming.symm.trans planned.outgoing) nofun⟩

theorem plan_knows (h : s.Sound) (ho : s.model.graph.states.contains o = true)
    (placed : ∀ {so v i}, s.model.graph.states.get? o = some so → matching.image? v = some i →
      s.model.windowOfAvm i = .ok so.window)
    (ok : s.plan o b matching = .ok (plan, s')) {t : Transfer} (mem : t ∈ plan) :
    s.model.KnowsTransfer t := by
  have stand : ∀ {e : Transition}, (∀ x, x ∈ t.guards → ∃ p, p ∈ e.guards ∧ s.StandsFor x p) →
      ∀ x, x ∈ t.guards → s.model.graph.states.contains x = true := by
    intro e guards x hx
    obtain ⟨p, -, stands⟩ := guards x hx
    exact stands.contains
  obtain ⟨e, ⟨-, planned⟩ | ⟨-, so, hso, planned⟩⟩ := mem_plan h.model.graph ok mem
  · refine ⟨?_, ?_, stand planned.guards, ?_, ?_⟩
    · rw [planned.source]
      exact h.model.graph.source planned.edge
    · rw [planned.dest]
      exact ho
    · intro a kept
      cases planned.action.symm.trans kept
      exact (h.model.edge planned.edge).action
    · intro w a v retargeted
      cases planned.action.symm.trans retargeted
  · obtain ⟨a, v, i, image, action⟩ := planned.action
    refine ⟨?_, ?_, stand planned.guards, ?_, ?_⟩
    · rw [planned.source]
      exact ho
    · rcases planned.dest with dest | stands
      · rw [dest]
        exact h.model.graph.dest planned.edge
      · exact stands.contains
    · intro a kept
      cases action.symm.trans kept
    · intro w a v retargeted target
      cases action.symm.trans retargeted
      cases target
      exact placed hso image

end Session

end ScreenGraph
