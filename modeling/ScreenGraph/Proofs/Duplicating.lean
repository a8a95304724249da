import ScreenGraph.Proofs.Carrying

namespace ScreenGraph

namespace Guard

variable {g h k : Guard}

theorem isCompatible_iff :
    g.isCompatible h = true ↔ ∃ s, g.accepts [s] = true ∧ h.accepts [s] = true := by
  have passes : ∀ {g : Guard} {s}, g.accepts [s] = true ↔ g.isEmpty = true ∨ s ∈ g := by
    simp [accepts]
  simp only [isCompatible, passes, Bool.or_eq_true, List.any_eq_true, decide_eq_true_eq]
  constructor
  · rintro ((free | free) | ⟨s, mem, mem'⟩)
    · by_cases free' : h.isEmpty = true
      · exact ⟨⟨0⟩, .inl free, .inl free'⟩
      · obtain ⟨s, mem⟩ := OrderedSet.exists_mem free'
        exact ⟨s, .inl free, .inr mem⟩
    · by_cases free' : g.isEmpty = true
      · exact ⟨⟨0⟩, .inl free', .inl free⟩
      · obtain ⟨s, mem⟩ := OrderedSet.exists_mem free'
        exact ⟨s, .inr mem, .inl free⟩
    · exact ⟨s, .inr mem', .inr mem⟩
  · rintro ⟨s, free | mem, free' | mem'⟩
    · exact .inl (.inl free)
    · exact .inl (.inl free)
    · exact .inl (.inr free')
    · exact .inr ⟨s, mem', mem⟩

theorem isCompatible_comm : g.isCompatible h = h.isCompatible g := by
  rw [Bool.eq_iff_iff, isCompatible_iff, isCompatible_iff]
  simp only [and_comm]

theorem isCompatible_merge :
    (g.merge h).isCompatible k = (g.isCompatible k || h.isCompatible k) := by
  rw [Bool.eq_iff_iff, Bool.or_eq_true]
  simp only [isCompatible_iff, accepts_merge_iff, or_and_right, exists_or]

end Guard

namespace Graph

variable {g g' : Graph} {id k : TransitionId} {e f : Transition}

structure Duplicates (g : Graph) (id k : TransitionId) (e f : Transition) : Prop where
  other : id ≠ k
  live : g.transitions.get? id = some e
  live' : g.transitions.get? k = some f
  key : e.key = f.key
  meets : e.guards.isCompatible f.guards = true

def Distinct (g : Graph) : Prop := ∀ id k e f, ¬ g.Duplicates id k e f

theorem Duplicates.symm (h : g.Duplicates id k e f) : g.Duplicates k id f e :=
  ⟨h.other.symm, h.live', h.live, h.key.symm, Guard.isCompatible_comm.trans h.meets⟩

theorem Distinct.of_all
    (all : (g.transitions.entries.all fun p => g.transitions.entries.all fun q =>
      p.1 = q.1 || p.2.key ≠ q.2.key || !p.2.guards.isCompatible q.2.guards) = true) :
    g.Distinct := by
  intro id k e f h
  have apart := List.all_eq_true.1 (List.all_eq_true.1 all _ (Arena.mem_entries.2 h.live)) _
    (Arena.mem_entries.2 h.live')
  simp [h.other, h.key, h.meets] at apart

theorem Distinct.of_one (h : g.Distinct) (id : TransitionId)
    (others : ∀ k f, id ≠ k → g'.transitions.get? k = some f → g.transitions.get? k = some f)
    (alone : ∀ k e f, g.transitions.get? k = some f → ¬ g'.Duplicates id k e f) :
    g'.Distinct := by
  intro i k e f duplicates
  by_cases first : id = i
  · subst first
    exact alone k e f (others k f duplicates.other duplicates.live') duplicates
  by_cases second : id = k
  · subst second
    exact alone i f e (others i e first duplicates.live) duplicates.symm
  · exact h i k e f ⟨duplicates.other, others i e first duplicates.live,
      others k f second duplicates.live', duplicates.key, duplicates.meets⟩

theorem Endures.guards_accept {silenced : StateId → ActionId → Prop}
    (h : g.Endures g' silenced id e) : ∃ e', g'.transitions.get? id = some e' ∧ e'.key = e.key ∧
      ∀ ps, e.guards.accepts ps = true → e'.guards.accepts ps = true := by
  obtain ⟨e', live, endures⟩ := h.edge
  refine ⟨e', live, ?_, ?_⟩
  · rw [Transition.key, endures.source, endures.action, endures.dest, Transition.key]
  · rcases endures.guards with same | ⟨-, more⟩
    · rw [same]
      exact fun ps accepted => accepted
    · exact more

theorem Frames.duplicates {gone : TransitionId → Prop} {silenced : StateId → ActionId → Prop}
    (frames : g.Frames g' gone silenced) (h : g.Duplicates id k e f) (stays : ¬ gone id)
    (stays' : ¬ gone k) : ∃ e' f', g'.Duplicates id k e' f' ∧ e'.key = e.key := by
  obtain ⟨e', live, key, more⟩ := (frames.stays h.live stays).guards_accept
  obtain ⟨f', live', key', more'⟩ := (frames.stays h.live' stays').guards_accept
  obtain ⟨s, open₁, open₂⟩ := Guard.isCompatible_iff.1 h.meets
  refine ⟨e', f', ⟨h.other, live, live', ?_, ?_⟩, key⟩
  · exact (key.trans h.key).trans key'.symm
  · exact Guard.isCompatible_iff.2 ⟨s, more _ open₁, more' _ open₂⟩

end Graph

theorem Model.Readies.distinct {m m' : Model} (h : m.Readies m') (distinct : m.graph.Distinct) :
    m'.graph.Distinct := by
  intro id k e' f' duplicates
  obtain ⟨e, live, same⟩ := h.edges duplicates.live
  obtain ⟨f, live', same'⟩ := h.edges duplicates.live'
  have key := duplicates.key
  have meets := duplicates.meets
  rw [same, same'] at key meets
  exact distinct id k e f ⟨duplicates.other, live, live', key, meets⟩

namespace Session

variable {s s' : Session} {t : Transfer} {a : ActionId} {o : Observation} {b : StateId}

/-- To carry out a transfer widens the guard of an inferred edge, and by that opens it to a run that
another edge with its ends and its action is open to. -/
inductive Bridges (s : Session) (t : Transfer) : Prop
  | intro {old a mid id k e f} (edge : s.model.graph.transitions.get? t.baseEdge = some old)
      (prepared : s.transferAction t old = .ok (a, mid))
      (target : s.model.mergeTarget t a = .ok (some id))
      (into : s.model.graph.transitions.get? id = some e) (inferred : e.isImplicit = true)
      (beside : s.model.graph.transitions.get? k = some f) (other : id ≠ k) (key : e.key = f.key)
      (meets : t.guards.isCompatible f.guards = true) : Bridges s t

theorem mergeTarget_some {id : TransitionId} (ok : s.model.mergeTarget t a = .ok (some id)) :
    ∃ e, s.model.graph.transitions.get? id = some e ∧ Model.canAbsorb t e = true := by
  obtain ⟨ids, -, found⟩ := Checked.bind_eq_ok.1 ok
  obtain ⟨-, test⟩ := findChecked_eq_some found
  obtain ⟨e, live, absorbs⟩ := Arena.get_bind_eq_ok.1 test
  exact ⟨e, live, pure_eq_ok.1 absorbs⟩

theorem mergeTarget_none (consistent : s.model.graph.Consistent)
    (ok : s.model.mergeTarget t a = .ok none) {id : TransitionId} {e : Transition}
    (live : s.model.graph.transitions.get? id = some e) (source : e.source = t.source)
    (action : e.action = a) : Model.canAbsorb t e = false := by
  obtain ⟨ids, outgoing, found⟩ := Checked.bind_eq_ok.1 ok
  obtain ⟨ids', outgoing', -, names⟩ :=
    consistent.yields_outgoingBy (source ▸ consistent.source live) a
  cases outgoing.symm.trans outgoing'
  have test := findChecked_eq_none found ((names id).2 ⟨e, live, source, action⟩)
  obtain ⟨e', live', absorbs⟩ := Arena.get_bind_eq_ok.1 test
  cases live.symm.trans live'
  exact pure_eq_ok.1 absorbs

def received (s : Session) (t : Transfer) (a : ActionId) (old : Transition) :
    Option TransitionId → Arena .transition Transition
  | none => (s.model.graph.transitions.add (Model.transferred t a old)).2
  | some id => s.model.graph.transitions.modify id (Model.widen t)

theorem transferEdge_received {old : Transition} {c : Coverage}
    (ok : s.transferEdge t old c a = .ok s') : ∃ target, s.model.mergeTarget t a = .ok target ∧
      s'.model.graph.transitions = s.received t a old target := by
  obtain ⟨found, -, -, rfl⟩ | ⟨into, before, found, -, rfl⟩ := transferEdge_cases ok
  · exact ⟨none, found, rfl⟩
  · exact ⟨some into, found, rfl⟩

theorem applyTransfer_received (ok : s.applyTransfer t = .ok s') : ∃ old a mid target,
    s.model.graph.transitions.get? t.baseEdge = some old ∧
      s.transferAction t old = .ok (a, mid) ∧ s.model.mergeTarget t a = .ok target ∧
      ∀ id e, s'.model.graph.transitions.get? id = some e ↔
        ¬ t.Takes id ∧ (s.received t a old target).get? id = some e := by
  obtain ⟨old, live, ok⟩ := Arena.get_bind_eq_ok.1 ok
  obtain ⟨⟨a, mid⟩, prepared, ok⟩ := Checked.bind_eq_ok.1 ok
  obtain ⟨s₂, carried, ok⟩ := Checked.bind_eq_ok.1 ok
  have graph := (transferAction_aside prepared).model.graph
  obtain ⟨target, found, edges⟩ := transferEdge_received carried
  have same : mid.received t a old target = s.received t a old target := by
    cases target <;> simp only [received, graph]
  unfold Model.mergeTarget at found
  rw [graph] at found
  refine ⟨old, a, mid, target, live, prepared, found, fun id e => ?_⟩
  rw [← same, ← edges]
  cases incoming : t.isIncoming with
  | false =>
    simp only [incoming] at ok
    cases ok
    simp [Transfer.Takes, incoming]
  | true =>
    simp only [incoming] at ok
    obtain ⟨⟨gone, g'⟩, removed, done⟩ := Checked.bind_eq_ok.1 ok
    cases done
    simp only [Transfer.Takes, incoming, true_and]
    obtain ⟨-, ⟨vacant, rfl⟩ | ⟨u, -, rfl⟩⟩ := Graph.removeTransition_eq_ok removed
    · refine ⟨fun live => ⟨?_, live⟩, fun h => h.2⟩
      rintro rfl
      cases vacant.symm.trans live
    · rw [Graph.get?_withoutEdge]
      by_cases here : t.baseEdge = id <;> simp [here]

theorem applyTransfer_distinct (consistent : s.model.graph.Consistent)
    (distinct : s.model.graph.Distinct) (ok : s.applyTransfer t = .ok s') (free : ¬ s.Bridges t) :
    s'.model.graph.Distinct := by
  obtain ⟨old, a, mid, target, edge, prepared, found, edges⟩ := applyTransfer_received ok
  cases target with
  | none =>
    refine distinct.of_one s.model.graph.transitions.next (fun k f other live => ?_) ?_
    · exact (Arena.of_get?_add ((edges k f).1 live).2).resolve_right fun new => other new.1.symm
    intro k e f live duplicates
    rcases Arena.of_get?_add ((edges _ e).1 duplicates.live).2 with before | ⟨-, rfl⟩
    · rw [Arena.get?_next] at before
      cases before
    -- an edge with the key of the copy and a compatible guard would have taken the transfer in
    have key := duplicates.key
    simp only [Transition.key, EdgeKey.mk.injEq] at key
    obtain ⟨source, action, dest⟩ := key
    have absorbs := mergeTarget_none consistent found live source.symm action.symm
    have meets := Guard.isCompatible_comm.trans duplicates.meets
    simp only [Model.transferred] at dest meets
    simp [Model.canAbsorb, dest, meets] at absorbs
  | some id =>
    refine distinct.of_one id (fun k f other live => ?_) fun k e f live duplicates => ?_
    · rcases Arena.of_get?_modify ((edges k f).1 live).2 with ⟨-, before⟩ | ⟨same, -⟩
      · exact before
      · exact absurd same other
    obtain ⟨other, -⟩ | ⟨-, e, before, rfl⟩ :=
      Arena.of_get?_modify ((edges id e).1 duplicates.live).2
    · exact other rfl
    have key : e.key = f.key := by
      rw [← duplicates.key]
      unfold Model.widen
      split <;> rfl
    have meets := duplicates.meets
    unfold Model.widen at meets
    split at meets
    · next inferred =>
      rw [Guard.isCompatible_merge, Bool.or_eq_true] at meets
      rcases meets with meets | meets
      · exact distinct id k e f ⟨duplicates.other, before, live, key, meets⟩
      · exact free (.intro edge prepared found before inferred live duplicates.other key meets)
    · exact distinct id k e f ⟨duplicates.other, before, live, key, meets⟩

theorem applyTransfer_bridges (ok : s.applyTransfer t = .ok s')
    (apart : t.isIncoming = true → ∀ old, s.model.graph.transitions.get? t.baseEdge = some old →
      old.dest ≠ t.dest)
    (bridges : s.Bridges t) : ∃ id k e f, s'.model.graph.Duplicates id k e f ∧
      (t.isIncoming = true → e.dest = t.dest) := by
  obtain ⟨old, a, mid, target, edge, prepared, found, edges⟩ := applyTransfer_received ok
  obtain ⟨edge', prepared', found', into, inferred, beside, other, key, meets⟩ := bridges
  cases edge.symm.trans edge'
  cases prepared.symm.trans prepared'
  cases found.symm.trans found'
  rename_i id k e f
  obtain ⟨e₁, live₁, absorbs⟩ := mergeTarget_some found
  cases into.symm.trans live₁
  have dest : t.isIncoming = true → e.dest = t.dest := by
    intro incoming
    rw [Model.canAbsorb, Bool.and_eq_true] at absorbs
    simpa [incoming] using absorbs.2
  have dest' : f.dest = e.dest := (congrArg EdgeKey.dest key.symm :)
  have widened : Model.widen t e = { e with guards := Guard.merge e.guards t.guards } :=
    if_pos inferred
  refine ⟨id, k, Model.widen t e, f, ⟨other, (edges ..).2 ⟨?_, ?_⟩, (edges ..).2 ⟨?_, ?_⟩, ?_, ?_⟩,
    ?_⟩
  · rintro ⟨incoming, rfl⟩
    cases edge.symm.trans into
    exact apart incoming _ edge (dest incoming)
  · simp [received, Arena.get?_modify, into]
  · rintro ⟨incoming, rfl⟩
    cases edge.symm.trans beside
    exact apart incoming _ edge (dest'.trans (dest incoming))
  · rw [received, Arena.get?_modify, if_neg other]
    exact beside
  · rw [widened]
    exact key
  · rw [widened, Guard.isCompatible_merge, meets, Bool.or_true]
  · rw [widened]
    exact dest

/-- A plan leaves duplicates exactly if one of its transfers bridges. The incoming transfers come
first, and what they take away leads into the base state, so duplicates stay. -/
theorem applyAll_distinct_iff {plan : List Transfer} (consistent : s.model.graph.Consistent)
    (distinct : s.model.graph.Distinct) (awaits : s.model.graph.Awaits b plan)
    (elsewhere : ∀ t ∈ plan, t.isIncoming = true → t.dest ≠ b)
    (sorted : plan.Pairwise fun t u => u.isIncoming = true → t.isIncoming = true)
    (ok : s.applyAll plan = .ok s') :
    s'.model.graph.Distinct ↔ ¬ s.AtTurn plan Bridges := by
  induction plan generalizing s with
  | nil =>
    cases ok
    exact iff_of_true distinct not_atTurn_nil
  | cons t rest ih =>
    obtain ⟨s₁, first, ok⟩ := Checked.bind_eq_ok.1 ok
    obtain ⟨before, sorted⟩ := List.pairwise_cons.1 sorted
    have waiting := applyTransfer_awaits awaits first
    rw [atTurn_cons first, not_or]
    by_cases bridges : s.Bridges t
    · refine iff_of_false (fun distinct' => ?_) fun free => free.1 bridges
      have apart : t.isIncoming = true → ∀ old,
          s.model.graph.transitions.get? t.baseEdge = some old → old.dest ≠ t.dest := by
        intro incoming old edge
        obtain ⟨e, live, leads⟩ := awaits.live t (by simp)
        cases edge.symm.trans live
        rw [(leads incoming).2.2]
        exact (elsewhere t (by simp) incoming).symm
      obtain ⟨id, k, e, f, duplicates, dest⟩ := applyTransfer_bridges first apart bridges
      have stays : ∀ {id e'}, s₁.model.graph.transitions.get? id = some e' → e'.dest = e.dest →
          ¬ ∃ u ∈ rest, u.Takes id := by
        rintro id e' live same ⟨u, mem, incoming, rfl⟩
        obtain ⟨_, live', leads⟩ := waiting.live u mem
        cases live.symm.trans live'
        have first := before u mem incoming
        exact elsewhere t (by simp) first
          ((dest first).symm.trans (same.symm.trans (leads incoming).2.2))
      have same : f.dest = e.dest := (congrArg EdgeKey.dest duplicates.key.symm :)
      have frames : s₁.model.graph.Frames s'.model.graph _ (fun _ _ => False) := applyAll_frames ok
      obtain ⟨e', f', persist, -⟩ := frames.duplicates duplicates (stays duplicates.live rfl)
        (stays duplicates.live' same)
      exact distinct' _ _ _ _ persist
    · rw [ih (applyTransfer_consistent consistent first)
        (applyTransfer_distinct consistent distinct first bridges) waiting
        (fun u mem => elsewhere u (by simp [mem])) sorted ok]
      exact (and_iff_right bridges).symm

theorem plan_sorted (consistent : s.model.graph.Consistent) {k : StateId} {x : Matching}
    {plan : List Transfer} (ok : s.plan k b x = .ok (plan, s')) :
    (plan.Pairwise fun t u => u.isIncoming = true → t.isIncoming = true) ∧
      ∀ t ∈ plan, t.isIncoming = true → t.dest = k := by
  obtain ⟨so, ids, ins, outs, -, hids, hins, houts, rfl, -⟩ := plan_eq_ok ok
  have first : ∀ t ∈ ins.filterMap Finding.transfer?, t.isIncoming = true ∧ t.dest = k := by
    intro t mem
    obtain ⟨e, -, planned⟩ := mem_plannedIncoming hins mem
    exact ⟨planned.incoming, planned.dest⟩
  have second : ∀ t ∈ outs.filterMap Finding.transfer?, t.isIncoming ≠ true := by
    intro t mem
    obtain ⟨e, -, planned⟩ := mem_plannedOutgoing consistent hids houts mem
    rw [planned.outgoing]
    exact nofun
  refine ⟨List.pairwise_append.2 ⟨?_, ?_, ?_⟩, fun t mem incoming => ?_⟩
  · exact List.pairwise_of_forall_mem_list fun t mem _ _ _ => (first t mem).1
  · exact List.pairwise_of_forall_mem_list fun _ _ u mem incoming => absurd incoming (second u mem)
  · exact fun t mem _ _ _ => (first t mem).1
  · rcases List.mem_append.1 mem with mem | mem
    · exact (first t mem).2
    · exact absurd incoming (second t mem)

theorem Plans.sorted (h : s.Sound) (live : o.Live s.model) {plan : List Transfer}
    {planned : Session} (plans : s.Plans o b plan planned) :
    (plan.Pairwise fun t u => u.isIncoming = true → t.isIncoming = true) ∧
      ∀ t ∈ plan, t.isIncoming = true → t.dest = o.state := by
  obtain ⟨sighted, found, entered⟩ := plans
  obtain ⟨sound, -⟩ := h.sight live sighted
  obtain ⟨s₁, migrated, made⟩ := Checked.bind_eq_ok.1 entered
  have consistent := (sound.passed found.passed).model.graph
  have graph := (migrateInputs_aside migrated).model.graph
  have sorted := plan_sorted (graph ▸ consistent) made
  rw [((sight_book sighted).2 _ rfl).2] at sorted
  exact sorted

theorem check_apart (rooted : s.ledger.Rooted s.model) {r : Rule}
    (ok : s.check o = .ok (.ok (.equivalent b r), s')) : o.Live s.model ∧ b ≠ o.state := by
  obtain ⟨-, -, ⟨⟩, -⟩ | ⟨-, -, ⟨⟩⟩ | ⟨live, g, s₁, k, sighted, classified, ⟨⟩⟩ := check_eq_ok ok
  have apart := (classify_cases classified).apart (sight_rooted rooted live sighted)
  rw [((sight_book sighted).2 g rfl).2] at apart
  exact ⟨live, apart⟩

/-- Edges that are distinct still are after a check that enters no new pair. If it enters one, they
are exactly if no transfer of its plan bridges. -/
theorem Used.check_distinct (used : s.Used) (wf : s.model.WellFormed)
    (distinct : s.model.graph.Distinct) (o : Observation) : ∃ c s', s.check o = .ok (c, s') ∧
      ((∀ b r, c = .ok (.equivalent b r) → s.ledger.isRecognised o.state b = true) →
        s'.model.graph.Distinct) ∧
      ∀ b r, c = .ok (.equivalent b r) → s.ledger.isRecognised o.state b = false →
        ∃ plan planned after, s.Plans o b plan planned ∧ planned.applyAll plan = .ok after ∧
          s'.model = after.model ∧ (s'.model.graph.Distinct ↔ ¬ planned.AtTurn plan Bridges) := by
  have sound := used.sound wf
  obtain ⟨c, s', checked⟩ := sound.check_goes o
  refine ⟨c, s', checked, ?_⟩
  rcases sound.check_parts checked with
    ⟨ready, known⟩ | ⟨b, r, plan, planned, after, rfl, fresh, plans, ready, applied, model⟩
  · refine ⟨fun _ => ready.distinct distinct, fun b r answer fresh => ?_⟩
    cases fresh.symm.trans (known b r answer)
  · constructor
    · exact fun known => absurd (fresh.symm.trans (known b r rfl)) nofun
    · rintro _ _ ⟨⟩ -
      obtain ⟨live, apart⟩ := check_apart used.rooted checked
      obtain ⟨ready', awaits, -⟩ := sound.plans live plans
      obtain ⟨sorted, dest⟩ := plans.sorted sound live
      refine ⟨plan, planned, after, plans, applied, model, ?_⟩
      rw [model]
      refine applyAll_distinct_iff ready'.model.graph (ready.distinct distinct) awaits ?_ sorted
        applied
      intro t mem incoming
      rw [dest t mem incoming]
      exact apart.symm

end Session

def Model.forked : Model where
  catalog := launched.catalog
  actions := launched.actions
  graph := Graph.withEdge
    (Graph.withEdge
      (Graph.withEdge
        (Graph.withEdge
          { states := ((((Arena.add ∅
              { window := ⟨0⟩, version := .base, isInitial := true }).2.add
              { window := ⟨0⟩, version := .base, snapshots := .ofList [⟨0⟩] }).2.add
              { window := ⟨0⟩, version := .running }).2.add
              { window := ⟨0⟩, version := .base, snapshots := .ofList [⟨0⟩] }).2 }
          { source := ⟨1⟩, action := ⟨0⟩, dest := ⟨2⟩, version := .base, isImplicit := true,
            guards := .ofList [⟨1⟩] } ∅)
        { source := ⟨1⟩, action := ⟨0⟩, dest := ⟨2⟩, version := .running,
          guards := .ofList [⟨3⟩] } ∅)
      { source := ⟨1⟩, action := ⟨0⟩, dest := ⟨0⟩, version := .base,
        guards := .ofList [⟨1⟩, ⟨3⟩] } ∅)
    { source := ⟨1⟩, action := ⟨1⟩, dest := ⟨2⟩, version := .running } ∅
  snapshots := ((Arena.add ∅ { windowClass := "Main", elements := [{}] }).2.add
    { windowClass := "Main", elements := [{}] }).2

namespace Session

theorem built_forked : Built { model := .forked } := by
  have window := (Built.start {} hash).edit (.openWindow "Main" "main" .activity .base)
  have home := window.addState ⟨0⟩ .base [.isInitial true] rfl
  have away := home.addState ⟨0⟩ .base [.snapshots (.ofList [⟨0⟩])] rfl
  have running := away.addState ⟨0⟩ .running [] rfl
  have other := running.addState ⟨0⟩ .base [.snapshots (.ofList [⟨0⟩])] rfl
  have back := other.edit (@Model.Edit.internAction _ ⟨0⟩ { kind := .pressBack } _ _ rfl)
  have launch := back.edit (@Model.Edit.internAction _ ⟨0⟩ { kind := .launchApp } _ _ rfl)
  have snapshot := launch.edit (.addSnapshot { windowClass := "Main", elements := [{}] })
  have again := snapshot.edit (.addSnapshot { windowClass := "Main", elements := [{}] })
  have first := again.withEdge
    { source := ⟨1⟩, action := ⟨0⟩, dest := ⟨2⟩, version := .base, isImplicit := true,
      guards := .ofList [⟨1⟩] } ∅ rfl rfl (.of_all rfl rfl)
  have second := first.withEdge
    { source := ⟨1⟩, action := ⟨0⟩, dest := ⟨2⟩, version := .running, guards := .ofList [⟨3⟩] } ∅
    rfl rfl (.of_all rfl rfl)
  have old := second.withEdge
    { source := ⟨1⟩, action := ⟨0⟩, dest := ⟨0⟩, version := .base,
      guards := .ofList [⟨1⟩, ⟨3⟩] } ∅ rfl rfl (.of_all rfl rfl)
  exact old.withEdge
    { source := ⟨1⟩, action := ⟨1⟩, dest := ⟨2⟩, version := .running } ∅ rfl rfl (.of_all rfl rfl)

theorem forked_distinct : Model.forked.graph.Distinct := .of_all (by decide)

theorem check_forked : ∃ s',
    check { model := .forked } ⟨⟨1⟩, ⟨2⟩, ⟨3⟩, none⟩ =
      .ok (.ok (.equivalent ⟨0⟩ .avmMatch), s') ∧ ¬ s'.model.graph.Distinct := by
  obtain ⟨s', checked⟩ := ok_of_answer (c := .equivalent ⟨0⟩ .avmMatch)
    (by decide +kernel : (check { model := .forked } ⟨⟨1⟩, ⟨2⟩, ⟨3⟩, none⟩).toOption.map
      (fun r => r.1.toOption) = _)
  have edges : (check { model := .forked } ⟨⟨1⟩, ⟨2⟩, ⟨3⟩, none⟩).toOption.bind (fun r =>
      (r.2.model.graph.transitions.get? ⟨0⟩).bind fun e =>
        (r.2.model.graph.transitions.get? ⟨1⟩).map fun f =>
          decide (e.key = f.key ∧ e.guards.isCompatible f.guards = true)) = some true := by
    decide +kernel
  rw [checked] at edges
  simp only [Except.toOption, Option.bind_some, Option.bind_eq_some_iff, Option.map_eq_some_iff,
    decide_eq_true_eq] at edges
  obtain ⟨e, live, f, live', key, meets⟩ := edges
  exact ⟨s', checked, fun distinct => distinct ⟨0⟩ ⟨1⟩ e f ⟨by decide, live, live', key, meets⟩⟩

theorem check_distinct_forked : ∃ s' plan planned,
    check { model := .forked } ⟨⟨1⟩, ⟨2⟩, ⟨3⟩, none⟩ =
      .ok (.ok (.equivalent ⟨0⟩ .avmMatch), s') ∧
    Plans { model := .forked } ⟨⟨1⟩, ⟨2⟩, ⟨3⟩, none⟩ ⟨0⟩ plan planned ∧
    planned.AtTurn plan Bridges := by
  obtain ⟨s', checked, doubled⟩ := check_forked
  obtain ⟨c, _, again, -, fresh⟩ := (Used.start .forked).check_distinct built_forked.sound.model
    forked_distinct ⟨⟨1⟩, ⟨2⟩, ⟨3⟩, none⟩
  cases checked.symm.trans again
  obtain ⟨plan, planned, -, plans, -, -, distinct⟩ := fresh _ _ rfl rfl
  rw [distinct, not_not] at doubled
  exact ⟨s', plan, planned, checked, plans, doubled⟩

/-- Edges that are distinct need not be so after a check. -/
theorem not_distinct_forked : ¬ ∀ s o c s', Used s → s.model.WellFormed →
    s.model.graph.Distinct → s.check o = .ok (c, s') → s'.model.graph.Distinct := by
  intro distinct
  obtain ⟨s', checked, doubled⟩ := check_forked
  exact doubled (distinct _ _ _ s' (.start .forked) built_forked.sound.model forked_distinct
    checked)

end Session

end ScreenGraph
