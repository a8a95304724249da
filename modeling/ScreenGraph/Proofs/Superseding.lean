import ScreenGraph.Proofs.Preserving

namespace ScreenGraph

def Ledger.Rooted (l : Ledger) (m : Model) : Prop :=
  ∀ g, ∀ b ∈ l.basesOf g, ∃ st, m.graph.states.get? b = some st ∧ st.version = .base

namespace Ledger.Rooted

variable {l l' : Ledger} {m m' : Model}

theorem grows (h : l.Rooted m) (grows : m.Grows m') : l.Rooted m' := by
  intro g b mem
  obtain ⟨st, live, old⟩ := h g b mem
  obtain ⟨st', live', persists⟩ := grows.state live
  exact ⟨st', live', persists.version.trans old⟩

theorem congr (h : l.Rooted m) (same : l'.snapshotBases = l.snapshotBases) : l'.Rooted m := by
  unfold Rooted basesOf
  rw [same]
  exact h

theorem markSnapshot (h : l.Rooted m) (g : SnapshotId) {b : StateId} {st : State}
    (live : m.graph.states.get? b = some st) (old : st.version = .base) :
    (l.markSnapshot g b).Rooted m := by
  intro g' b' mem
  rcases mem_basesOf_markSnapshot.1 mem with entered | ⟨-, rfl⟩
  · exact h g' b' entered
  · exact ⟨st, live, old⟩

end Ledger.Rooted

namespace Session

variable {s s' : Session} {g : Sighting} {o : Observation} {k b : StateId} {n : SnapshotId}
  {x : Matching} {r : Rule}

theorem register_snapshots (ok : s.register k b n x = .ok s') :
    s'.ledger.snapshotBases = s.ledger.snapshotBases.addTo n b := by
  obtain ⟨-, rfl⟩ | ⟨-, plan, planned, entered, applied⟩ := register_cases ok
  · rfl
  · have book := (applyAll_keeps applied).book.trans (enter_aside entered).book
    exact (congrArg Ledger.snapshotBases book :)

theorem register_rooted (h : s.ledger.Rooted s.model) {st : State}
    (live : s.model.graph.states.get? b = some st) (old : st.version = .base)
    (ok : s.register k b n x = .ok s') : s'.ledger.Rooted s'.model :=
  ((h.markSnapshot n live old).grows (register_keeps ok).grows).congr (register_snapshots ok)

theorem Passed.snapshots (passed : Passed g s s') :
    s'.ledger.snapshotBases = s.ledger.snapshotBases := by
  rcases passed.2 with same | same
  · rw [same]
  · rw [same]
    rfl

theorem Passed.rooted (passed : Passed g s s') (h : s.ledger.Rooted s.model) :
    s'.ledger.Rooted s'.model :=
  (h.grows passed.aside.toKeeps.grows).congr passed.snapshots

theorem Finds.root (h : s.ledger.Rooted s.model) {mid : Session} (found : s.Finds g b r x mid) :
    ∃ st, mid.model.graph.states.get? b = some st ∧ st.version = .base := by
  obtain ⟨passed, seeks, searched⟩ := found
  obtain ⟨mem, compared, -⟩ := search_some searched
  rw [compared.aside.model.graph]
  rcases seeks.base mem with ⟨st, live, old, -⟩ | cached
  · exact ⟨st, live, old⟩
  · exact (seeks.passed passed).rooted h _ _ cached

theorem Finds.registers_rooted (h : s.ledger.Rooted s.model) {mid : Session}
    (found : s.Finds g b r x mid) (registered : mid.register k b n x = .ok s') :
    s'.ledger.Rooted s'.model := by
  obtain ⟨st, live, old⟩ := found.root h
  exact register_rooted (found.passed.rooted h) live old registered

theorem Answers.rooted (h : s.ledger.Rooted s.model) {c : Classification}
    (answers : s.Answers g c s') : s'.ledger.Rooted s'.model := by
  cases answers with
  | homeScreen => exact h
  | knownNew => exact h.congr rfl
  | cached => exact h
  | observedBase => exact h.congr rfl
  | equivalent _ found registered => exact found.registers_rooted h registered
  | reproduces _ found registered => exact (found.registers_rooted h registered).congr rfl
  | new _ passed => exact (passed.rooted h).congr rfl

theorem sight_rooted (h : s.ledger.Rooted s.model) {seen : Option Sighting}
    (live : o.Live s.model) (ok : s.sight o = .ok (seen, s')) : s'.ledger.Rooted s'.model :=
  (h.grows (sight_grows ok live).1).congr (congrArg Ledger.snapshotBases (sight_book ok).1 :)

theorem check_rooted (h : s.ledger.Rooted s.model) {c : Except Refusal Classification}
    (ok : s.check o = .ok (c, s')) : s'.ledger.Rooted s'.model := by
  obtain ⟨-, -, -, rfl⟩ | ⟨live, sighted, -⟩ | ⟨live, g, s₁, k, sighted, classified, -⟩ :=
    check_eq_ok ok
  · exact h
  · exact sight_rooted h live sighted
  · exact (classify_cases classified).rooted (sight_rooted h live sighted)

theorem Used.rooted (used : s.Used) : s.ledger.Rooted s.model := by
  induction used with
  | start m => exact nofun
  | grow _ grows _ ih => exact ih.grows grows
  | check _ ok ih => exact check_rooted ih ok
  | register _ _ _ base old ok ih => exact register_rooted ih base old ok

theorem Answers.apart (h : s.ledger.Rooted s.model) (answers : s.Answers g (.equivalent b r) s') :
    b ≠ g.state := by
  have apart : ∀ {x mid}, s.Undecided g → s.Finds g b r x mid → b ≠ g.state := by
    rintro x mid undecided found rfl
    obtain ⟨so, observed, -, running⟩ := undecided.state
    obtain ⟨sb, base, old⟩ := found.root h
    rw [found.passed.aside.graph] at base
    cases observed.symm.trans base
    exact absurd (running.symm.trans old) nofun
  cases answers with
  | equivalent undecided found => exact apart undecided found
  | reproduces undecided found => exact apart undecided found

theorem Sound.check_observed (h : s.Sound) (rooted : s.ledger.Rooted s.model)
    {c : Except Refusal Classification} (ok : s.check o = .ok (c, s')) {e : Transition}
    (live : s.model.graph.transitions.get? o.transition = some e) (leads : e.dest = o.state) :
    s.model.graph.Endures s'.model.graph (s.model.graph.Leaves o.transition) o.transition e := by
  refine (check_frames h.model.graph ok).stays live ?_
  intro dropped
  obtain ⟨r, -, rfl, -⟩ | ⟨-, -, rfl⟩ | ⟨known, g, s₁, k, sighted, classified, rfl⟩ :=
    check_eq_ok ok
  · cases dropped
  · obtain ⟨decided, -, -⟩ := dropped
    exact decided rfl
  cases dropped with
  | pruned _ obsolete mem => exact Graph.mem_obsolete obsolete mem rfl
  | redirected live' redirects =>
    cases live.symm.trans live'
    have apart := (classify_cases classified).apart (sight_rooted rooted known sighted)
    rw [((sight_book sighted).2 g rfl).2] at apart
    exact apart (redirects.2.1.symm.trans leads)

end Session

namespace Graph

variable {g g' : Graph} {t id : TransitionId} {u e e' : Transition}

structure Rival (g : Graph) (t id : TransitionId) (u e : Transition) : Prop where
  other : id ≠ t
  observed : g.transitions.get? t = some u
  live : g.transitions.get? id = some e
  source : e.source = u.source
  action : e.action = u.action

theorem Consistent.mem_rivals (h : g.Consistent) {ids : List TransitionId}
    (ok : g.rivals t = .ok ids) (observed : g.transitions.get? t = some u) :
    id ∈ ids ↔ ∃ e, g.Rival t id u e := by
  constructor
  · intro mem
    obtain ⟨other, u', st, e, observed', hst, listed, live, action⟩ := Graph.mem_rivals ok mem
    cases observed.symm.trans observed'
    obtain ⟨e', live', source⟩ := (h.listed hst id).1 listed
    cases live.symm.trans live'
    exact ⟨e, other, observed, live, source, action⟩
  · rintro ⟨e, other, -, live, source, action⟩
    obtain ⟨u', observed', ok⟩ := Arena.get_bind_eq_ok.1 ok
    cases observed.symm.trans observed'
    obtain ⟨all, byAction, done⟩ := Checked.bind_eq_ok.1 ok
    cases done
    obtain ⟨st, hst⟩ := Arena.contains_iff.1 (h.source observed)
    refine List.mem_filter.2 ⟨(mem_outgoingBy byAction).2 ?_, decide_eq_true other⟩
    exact ⟨st, e, hst, (h.listed hst id).2 ⟨e, live, source⟩, live, action⟩

theorem deactivateAll_get? {ids : List TransitionId} (ok : g.deactivateAll ids = .ok g')
    (id : TransitionId) : g'.transitions.get? id =
      if id ∈ ids then (g.transitions.get? id).map fun e => { e with isActive := false }
      else g.transitions.get? id := by
  induction ids generalizing g with
  | nil =>
    cases ok
    simp
  | cons k rest ih =>
    obtain ⟨g₁, first, ok⟩ := Checked.bind_eq_ok.1 ok
    obtain ⟨-, rfl⟩ := updateTransition_eq_ok.1 first
    rw [ih ok]
    simp only [Arena.get?_modify, List.mem_cons]
    by_cases here : k = id
    · by_cases mem : id ∈ rest <;> simp [here, mem, Function.comp_def]
    · by_cases mem : id ∈ rest <;> simp [here, Ne.symm here, mem]

theorem Consistent.supersede_eq_ok (h : g.Consistent) (ok : g.supersede t = .ok g')
    (observed : g.transitions.get? t = some u) :
    ∃ ids, g.deactivateAll ids = .ok g' ∧ ∀ id, id ∈ ids ↔ ∃ e, g.Rival t id u e ∧
      e.isActive = true ∧ e.guards.isCompatible u.guards = true := by
  obtain ⟨u', observed', ok⟩ := Arena.get_bind_eq_ok.1 ok
  cases observed.symm.trans observed'
  obtain ⟨rivals, hrivals, ok⟩ := Checked.bind_eq_ok.1 ok
  obtain ⟨ids, hids, ok⟩ := Checked.bind_eq_ok.1 ok
  refine ⟨ids, ok, fun id => ?_⟩
  rw [mem_filterChecked hids, h.mem_rivals hrivals observed]
  constructor
  · rintro ⟨⟨e, rival⟩, test⟩
    obtain ⟨e', live, test⟩ := Arena.get_bind_eq_ok.1 test
    cases rival.live.symm.trans live
    exact ⟨e, rival, by simpa using pure_eq_ok.1 test⟩
  · rintro ⟨e, rival, active, compatible⟩
    refine ⟨⟨e, rival⟩, Arena.get_bind_eq_ok.2 ⟨e, rival.live, ?_⟩⟩
    rw [active, compatible]
    rfl

theorem Consistent.supersede_rival (h : g.Consistent) (ok : g.supersede t = .ok g')
    (observed : g.transitions.get? t = some u) : g'.transitions.get? t = some u ∧
      ∀ {id e}, g'.Rival t id u e → e.isActive = true →
        g.Rival t id u e ∧ e.guards.isCompatible u.guards = false := by
  obtain ⟨ids, deactivated, mem_ids⟩ := h.supersede_eq_ok ok observed
  constructor
  · rw [deactivateAll_get? deactivated, if_neg, observed]
    intro mem
    obtain ⟨e, rival, -⟩ := (mem_ids t).1 mem
    exact rival.other rfl
  · intro id e rival active
    have live := rival.live
    rw [deactivateAll_get? deactivated] at live
    split at live
    · obtain ⟨e₀, -, rfl⟩ := Option.map_eq_some_iff.1 live
      cases active
    · next spared =>
      have before : g.Rival t id u e := ⟨rival.other, observed, live, rival.source, rival.action⟩
      refine ⟨before, Bool.eq_false_iff.2 fun compatible => ?_⟩
      exact spared ((mem_ids id).2 ⟨e, before, active, compatible⟩)

end Graph

namespace Session

variable {s s' : Session} {g : Sighting} {o : Observation}

theorem Sound.sight_rival (h : s.Sound) (ok : s.sight o = .ok (some g, s')) {u : Transition}
    (observed : s.model.graph.transitions.get? o.transition = some u) :
    s'.model.graph.transitions.get? o.transition = some u ∧
      ∀ {id e}, s'.model.graph.Rival o.transition id u e → e.isActive = true →
        s.model.graph.Rival o.transition id u e ∧ e.guards.isCompatible u.guards = false := by
  obtain ⟨-, ids, between, -, removed, superseded, consistent, same, -⟩ :=
    sight_steps h.model.graph ok
  obtain ⟨stays, incompatible⟩ := consistent.supersede_rival superseded (same.trans observed)
  refine ⟨stays, fun {id e} rival active => ?_⟩
  obtain ⟨before, apart⟩ := incompatible rival active
  have live := before.live
  rw [Graph.prune_get? removed, noting_transitions] at live
  split at live
  · cases live
  · exact ⟨⟨rival.other, observed, live, rival.source, rival.action⟩, apart⟩

/-- The edges that the registration of a pair may widen, by source and action: they leave the
observed state, or an edge that moves leaves the same state by the same action. -/
def Absorbs (s : Session) (k b source : StateId) (a : ActionId) : Prop :=
  s.ledger.isRecognised k b = false ∧ (source = k ∨
    ∃ id u, s.model.graph.transitions.get? id = some u ∧ s.Redirects k b u ∧ u.source = source ∧
      u.action = a)

theorem applyTransfer_guards {t : Transfer} (consistent : s.model.graph.Consistent)
    (ok : s.applyTransfer t = .ok s') {id : TransitionId} {e e' : Transition}
    (live : s.model.graph.transitions.get? id = some e)
    (live' : s'.model.graph.transitions.get? id = some e') :
    e'.guards = e.guards ∨ t.source = e.source ∧ ∀ a, t.action = .kept a → a = e.action := by
  obtain ⟨old, a, s₁, g, -, prepared, carried, model, -, -⟩ := applyTransfer_eq_ok ok
  rw [model] at live'
  have before : g.transitions.get? id = some e' := by
    split at live'
    · exact (Graph.of_get?_withoutEdge live').1
    · exact live'
  cases carried with
  | copied =>
    cases (Arena.get?_add_of_get? live _).symm.trans before
    exact .inl rfl
  | @folded into _ _ _ source listed known action =>
    rcases Arena.of_get?_modify before with ⟨-, same⟩ | ⟨rfl, -⟩
    · cases live.symm.trans same
      exact .inl rfl
    · obtain ⟨e₁, live₁, leaves⟩ := (consistent.listed source into).1 listed
      cases live.symm.trans live₁
      cases live.symm.trans known
      refine .inr ⟨leaves.symm, fun a kept => ?_⟩
      exact (transferAction_kept prepared kept).symm.trans action.symm

theorem applyAll_guards {plan : List Transfer} (consistent : s.model.graph.Consistent)
    (ok : s.applyAll plan = .ok s') {id : TransitionId} {e e' : Transition}
    (live : s.model.graph.transitions.get? id = some e) (stays : ∀ t ∈ plan, ¬ t.Takes id)
    (live' : s'.model.graph.transitions.get? id = some e') :
    e'.guards = e.guards ∨
      ∃ t ∈ plan, t.source = e.source ∧ ∀ a, t.action = .kept a → a = e.action := by
  induction plan generalizing s e with
  | nil =>
    cases ok
    cases live.symm.trans live'
    exact .inl rfl
  | cons t rest ih =>
    obtain ⟨s₁, first, ok⟩ := Checked.bind_eq_ok.1 ok
    have frames : s.model.graph.Frames s₁.model.graph _ (fun _ _ => False) :=
      applyTransfer_frames first
    obtain ⟨e₁, live₁, endures⟩ := (frames.stays live (stays t (by simp))).edge
    rcases ih (applyTransfer_consistent consistent first) ok live₁
        (fun u hu => stays u (by simp [hu])) with same | ⟨u, hu, widened⟩
    · rw [same]
      exact (applyTransfer_guards consistent first live live₁).imp_right fun widened =>
        ⟨t, by simp, widened⟩
    · rw [endures.source, endures.action] at widened
      exact .inr ⟨u, by simp [hu], widened⟩

theorem register_guards (consistent : s.model.graph.Consistent) {k b : StateId} {n : SnapshotId}
    {x : Matching} (ok : s.register k b n x = .ok s') {id : TransitionId} {e e' : Transition}
    (live : s.model.graph.transitions.get? id = some e) (stays : ¬ s.Redirects k b e)
    (live' : s'.model.graph.transitions.get? id = some e') :
    e'.guards = e.guards ∨ s.Absorbs k b e.source e.action := by
  obtain ⟨-, rfl⟩ | ⟨fresh, plan, planned, entered, applied⟩ := register_cases ok
  · cases live.symm.trans live'
    exact .inl rfl
  obtain ⟨graph, arranges⟩ := enter_arranges consistent fresh entered
  have kept : ∀ t ∈ plan, ¬ t.Takes id :=
    fun t mem takes => stays ((arranges.takes live).1 ⟨t, mem, takes⟩)
  refine (applyAll_guards (graph ▸ consistent) applied (graph ▸ live) kept live').imp_right ?_
  rintro ⟨t, mem, source, action⟩
  refine ⟨fresh, ?_⟩
  obtain leaves | ⟨-, u, edge, redirects, same, kept⟩ := arranges.made t mem
  · exact .inl (source.symm.trans leaves)
  · exact .inr ⟨t.baseEdge, u, edge, redirects, same.symm.trans source, action _ kept⟩

theorem Answers.guards {c : Classification} (answers : s.Answers g c s')
    (consistent : s.model.graph.Consistent) {id : TransitionId} {e e' : Transition}
    (live : s.model.graph.transitions.get? id = some e)
    (stays : ∀ b r, c = .equivalent b r → ¬ s.Redirects g.state b e)
    (live' : s'.model.graph.transitions.get? id = some e') :
    e'.guards = e.guards ∨ ∃ b r, c = .equivalent b r ∧ s.Absorbs g.state b e.source e.action := by
  obtain ⟨⟨_, same⟩, -⟩ | ⟨b, r, x, mid, after, rfl, found, registered, model, -⟩ :=
    answers.registers
  · rw [same] at live'
    cases live.symm.trans live'
    exact .inl rfl
  have graph := found.passed.aside.graph
  have kept : ¬ mid.Redirects g.state b e := by
    rw [found.passed.redirects]
    exact stays b r rfl
  rw [model] at live'
  refine (register_guards (graph ▸ consistent) registered (graph ▸ live) kept live').imp_right ?_
  rintro ⟨fresh, absorbs⟩
  rw [found.isRecognised] at fresh
  rw [graph, found.passed.redirects] at absorbs
  exact ⟨b, r, rfl, fresh, absorbs⟩

theorem Sound.sight_absorbs (h : s.Sound) (ok : s.sight o = .ok (some g, s')) {b k : StateId}
    {a : ActionId} (absorbs : s'.Absorbs o.state b k a) : (s.noting o).Absorbs o.state b k a := by
  obtain ⟨keeps, ids, -, before, -⟩ := sight_frames h.model.graph ok
  have equivalents : s'.ledger.equivalents = (s.noting o).ledger.equivalents :=
    (congrArg Ledger.equivalents keeps.book :)
  obtain ⟨fresh, absorbs⟩ := absorbs
  rw [Ledger.isRecognised, Ledger.equivalentsOf, equivalents] at fresh
  refine ⟨fresh, absorbs.imp_right ?_⟩
  rintro ⟨id, u', live', redirects, rfl, rfl⟩
  obtain ⟨-, u, live, change⟩ := before live'
  rw [keeps.redirects] at redirects
  rw [change] at redirects ⊢
  exact ⟨id, u, s.noting_transitions o ▸ live, redirects, rfl, rfl⟩

theorem Answers.rival {c : Classification} (answers : s.Answers g c s')
    (consistent : s.model.graph.Consistent) {t id : TransitionId} {u u' f' : Transition}
    (observed : s.model.graph.transitions.get? t = some u) (source : u'.source = u.source)
    (action : u'.action = u.action) (rival : s'.model.graph.Rival t id u' f')
    (active : f'.isActive = true) :
    ∃ f, s.model.graph.Rival t id u f ∧ f.isActive = true ∧ f.Endures False f' ∧
      (f'.guards = f.guards ∨
        ∃ b r, c = .equivalent b r ∧ s.Absorbs g.state b u.source u.action) := by
  have frames : s.model.graph.Frames s'.model.graph _ (fun _ _ => False) :=
    answers.frames consistent
  -- an edge that came is not active
  obtain ⟨f, live, kept⟩ := (frames.origin rival.live).resolve_right fun new =>
    absurd (active.symm.trans new.inferred.inactive) nofun
  obtain ⟨f₁, again, same⟩ := (frames.stays live kept).edge
  cases rival.live.symm.trans again
  have before : s.model.graph.Rival t id u f :=
    ⟨rival.other, observed, live, same.source.symm.trans (rival.source.trans source),
      same.action.symm.trans (rival.action.trans action)⟩
  have was : f'.isActive = f.isActive := same.active.resolve_right fun silenced => silenced.1
  refine ⟨f, before, was.symm.trans active, same, ?_⟩
  rw [← before.source, ← before.action]
  exact answers.guards consistent live
    (fun b r answer redirects => kept ⟨f, b, r, live, answer, redirects⟩) rival.live

theorem Sound.check_rival (h : s.Sound) (rooted : s.ledger.Rooted s.model) {c : Classification}
    (ok : s.check o = .ok (.ok c, s')) (decided : c ≠ .ignored) {e e' : Transition}
    (live : s.model.graph.transitions.get? o.transition = some e) (leads : e.dest = o.state)
    (live' : s'.model.graph.transitions.get? o.transition = some e') {id : TransitionId}
    {f' : Transition} (rival : s'.model.graph.Rival o.transition id e' f')
    (active : f'.isActive = true) :
    ∃ f, s.model.graph.Rival o.transition id e f ∧ f.isActive = true ∧
      f.guards.isCompatible e.guards = false ∧
      (f'.guards.isCompatible e'.guards = true → ∃ b r, c = .equivalent b r ∧
        (s.noting o).Absorbs o.state b e.source e.action ∧
        (f.isImplicit = true ∧ f'.guards ≠ f.guards ∨
          e.isImplicit = true ∧ e'.guards ≠ e.guards)) := by
  obtain ⟨e₁, live₁, endures⟩ := (h.check_observed rooted ok live leads).edge
  cases live'.symm.trans live₁
  obtain ⟨-, -, ⟨⟩, -⟩ | ⟨-, -, ⟨⟩⟩ | ⟨known, g, s₁, k, sighted, classified, ⟨⟩⟩ := check_eq_ok ok
  · exact absurd rfl decided
  have answers := classify_cases classified
  have state := ((sight_book sighted).2 g rfl).2
  have consistent := (h.sight known sighted).1.model.graph
  obtain ⟨stays, spared⟩ := h.sight_rival sighted live
  obtain ⟨f, between, was, same, guards⟩ :=
    answers.rival consistent stays endures.source endures.action rival active
  obtain ⟨before, apart⟩ := spared between was
  refine ⟨f, before, was, apart, fun compatible => ?_⟩
  by_cases rivalSame : f'.guards = f.guards
  · have widened : e'.guards ≠ e.guards := by
      intro ownSame
      rw [rivalSame, ownSame, apart] at compatible
      cases compatible
    have unmoved : ∀ b r, c = .equivalent b r → ¬ s₁.Redirects g.state b e := by
      rintro b r rfl ⟨-, into, -⟩
      exact answers.apart (sight_rooted rooted known sighted) (into ▸ leads.trans state.symm)
    obtain ⟨b, r, answer, absorbs⟩ :=
      (answers.guards consistent stays unmoved live').resolve_left widened
    exact ⟨b, r, answer, h.sight_absorbs sighted (state ▸ absorbs),
      .inr ⟨(endures.guards.resolve_left widened).1, widened⟩⟩
  · obtain ⟨b, r, answer, absorbs⟩ := guards.resolve_left rivalSame
    exact ⟨b, r, answer, h.sight_absorbs sighted (state ▸ absorbs),
      .inl ⟨(same.guards.resolve_left rivalSame).1, rivalSame⟩⟩

/-- The observed edge stays, and every other active edge with its source and its action was there
before, active and with a guard that was not compatible. If the guards are compatible now, a
registration has widened the guard of one of the two, which was inferred. -/
theorem Used.check_supersedes (used : s.Used) (wf : s.model.WellFormed) {e : Transition}
    (live : s.model.graph.transitions.get? o.transition = some e) (leads : e.dest = o.state) :
    ∃ c s', s.check o = .ok (c, s') ∧ ∀ k, c = .ok k → k ≠ .ignored →
      ∃ e', s'.model.graph.transitions.get? o.transition = some e' ∧ e'.key = e.key ∧
        ∀ id f', s'.model.graph.Rival o.transition id e' f' → f'.isActive = true →
          ∃ f, s.model.graph.Rival o.transition id e f ∧ f.isActive = true ∧
            f.guards.isCompatible e.guards = false ∧
            (f'.guards.isCompatible e'.guards = true → ∃ b r, k = .equivalent b r ∧
              (s.noting o).Absorbs o.state b e.source e.action ∧
              (f.isImplicit = true ∧ f'.guards ≠ f.guards ∨
                e.isImplicit = true ∧ e'.guards ≠ e.guards)) := by
  have sound := used.sound wf
  obtain ⟨c, s', checked⟩ := sound.check_goes o
  refine ⟨c, s', checked, ?_⟩
  rintro k rfl decided
  obtain ⟨e', live', endures⟩ := (sound.check_observed used.rooted checked live leads).edge
  refine ⟨e', live', ?_, fun id f' rival active => ?_⟩
  · simp only [Transition.key, endures.source, endures.action, endures.dest]
  · exact sound.check_rival used.rooted checked decided live leads live' rival active

end Session

def Model.relaunched : Model where
  catalog := (Catalog.openWindow {} "Main" "main" .activity .base).2
  actions := (ActionTable.intern {} ⟨0⟩ { kind := .launchApp }).2
  graph := Graph.withEdge
    (Graph.withEdge
      (Graph.withEdge
        (Graph.withEdge
          { states := ((((((Arena.add ∅
              { window := ⟨0⟩, version := .base, isInitial := true }).2.add
              { window := ⟨0⟩, version := .base }).2.add
              { window := ⟨0⟩, version := .running }).2.add
              { window := ⟨0⟩, version := .base, snapshots := .ofList [⟨0⟩] }).2.add
              { window := ⟨0⟩, version := .base, snapshots := .ofList [⟨0⟩] }).2.add
              { window := ⟨0⟩, version := .base }).2 }
          { source := ⟨1⟩, action := ⟨0⟩, dest := ⟨2⟩, version := .base, isActive := true,
            isImplicit := true, interactions := [{ step := 1, version := .running }],
            guards := .ofList [⟨3⟩] } ∅)
        { source := ⟨1⟩, action := ⟨0⟩, dest := ⟨0⟩, version := .base,
          guards := .ofList [⟨3⟩, ⟨4⟩] } ∅)
      { source := ⟨1⟩, action := ⟨0⟩, dest := ⟨3⟩, version := .base, guards := .ofList [⟨5⟩] } ∅)
    { source := ⟨1⟩, action := ⟨0⟩, dest := ⟨2⟩, version := .running, isActive := true,
      interactions := [{ step := 2, version := .running }], guards := .ofList [⟨5⟩, ⟨4⟩] } ∅
  snapshots := ((Arena.add ∅ { windowClass := "Main", elements := [{}] }).2.add
    { windowClass := "Main", elements := [{}] }).2

namespace Session

theorem built_relaunched : Built { model := .relaunched } := by
  have window := (Built.start {} hash).edit (.openWindow "Main" "main" .activity .base)
  have home := window.addState ⟨0⟩ .base [.isInitial true] rfl
  have start := home.addState ⟨0⟩ .base [] rfl
  have seen := start.addState ⟨0⟩ .running [] rfl
  have shown := seen.addState ⟨0⟩ .base [.snapshots (.ofList [⟨0⟩])] rfl
  have other := shown.addState ⟨0⟩ .base [.snapshots (.ofList [⟨0⟩])] rfl
  have last := other.addState ⟨0⟩ .base [] rfl
  have launch := last.edit (@Model.Edit.internAction _ ⟨0⟩ { kind := .launchApp } _ _ rfl)
  have snapshot := launch.edit (.addSnapshot { windowClass := "Main", elements := [{}] })
  have again := snapshot.edit (.addSnapshot { windowClass := "Main", elements := [{}] })
  have first := again.withEdge
    { source := ⟨1⟩, action := ⟨0⟩, dest := ⟨2⟩, version := .base, isActive := true,
      isImplicit := true, interactions := [{ step := 1, version := .running }],
      guards := .ofList [⟨3⟩] } ∅ rfl rfl (.of_all rfl rfl)
  have home := first.withEdge
    { source := ⟨1⟩, action := ⟨0⟩, dest := ⟨0⟩, version := .base,
      guards := .ofList [⟨3⟩, ⟨4⟩] } ∅ rfl rfl (.of_all rfl rfl)
  have away := home.withEdge
    { source := ⟨1⟩, action := ⟨0⟩, dest := ⟨3⟩, version := .base, guards := .ofList [⟨5⟩] } ∅
    rfl rfl (.of_all rfl rfl)
  exact away.withEdge
    { source := ⟨1⟩, action := ⟨0⟩, dest := ⟨2⟩, version := .running, isActive := true,
      interactions := [{ step := 2, version := .running }], guards := .ofList [⟨5⟩, ⟨4⟩] } ∅
    rfl rfl (.of_all rfl rfl)

theorem check_relaunched : ∃ s' e f,
    check { model := .relaunched } ⟨⟨1⟩, ⟨2⟩, ⟨3⟩, some ⟨5⟩⟩ =
      .ok (.ok (.equivalent ⟨0⟩ .avmMatch), s') ∧
    s'.model.graph.transitions.get? ⟨3⟩ = some e ∧ s'.model.graph.Rival ⟨3⟩ ⟨0⟩ e f ∧
    f.isActive = true ∧ f.guards.isCompatible e.guards = true := by
  obtain ⟨s', checked⟩ := ok_of_answer (c := .equivalent ⟨0⟩ .avmMatch)
    (by decide +kernel : (check { model := .relaunched } ⟨⟨1⟩, ⟨2⟩, ⟨3⟩, some ⟨5⟩⟩).toOption.map
      (fun r => r.1.toOption) = _)
  have rival : (check { model := .relaunched } ⟨⟨1⟩, ⟨2⟩, ⟨3⟩, some ⟨5⟩⟩).toOption.bind (fun r =>
      (r.2.model.graph.transitions.get? ⟨3⟩).bind fun e =>
        (r.2.model.graph.transitions.get? ⟨0⟩).map fun f => decide (f.source = e.source ∧
          f.action = e.action ∧ f.isActive = true ∧ f.guards.isCompatible e.guards = true)) =
      some true := by decide +kernel
  rw [checked] at rival
  simp only [Except.toOption, Option.bind_some, Option.bind_eq_some_iff, Option.map_eq_some_iff,
    decide_eq_true_eq] at rival
  obtain ⟨e, live, f, live', source, action, active, compatible⟩ := rival
  exact ⟨s', e, f, checked, live, ⟨by decide, live, live', source, action⟩, active, compatible⟩

theorem check_supersedes_relaunched : ∃ s' e' f',
    check { model := .relaunched } ⟨⟨1⟩, ⟨2⟩, ⟨3⟩, some ⟨5⟩⟩ =
      .ok (.ok (.equivalent ⟨0⟩ .avmMatch), s') ∧
    s'.model.graph.transitions.get? ⟨3⟩ = some e' ∧ e'.key = ⟨⟨1⟩, ⟨0⟩, ⟨2⟩⟩ ∧
    s'.model.graph.transitions.get? ⟨0⟩ = some f' ∧ f'.isActive = true ∧
    f'.guards ≠ .ofList [⟨3⟩] := by
  obtain ⟨s', e', f', checked, live, rival, active, compatible⟩ := check_relaunched
  obtain ⟨c, _, again, supersedes⟩ := (Used.start .relaunched).check_supersedes
    built_relaunched.sound.model (o := ⟨⟨1⟩, ⟨2⟩, ⟨3⟩, some ⟨5⟩⟩) rfl rfl
  cases checked.symm.trans again
  obtain ⟨_, live', key, rivals⟩ := supersedes _ rfl nofun
  cases live.symm.trans live'
  obtain ⟨f, before, -, -, widened⟩ := rivals ⟨0⟩ f' rival active
  obtain ⟨_, _, -, -, ⟨-, grown⟩ | ⟨explicit, -⟩⟩ := widened compatible
  · cases before.live
    exact ⟨s', e', f', checked, live, key, rival.live, active, grown⟩
  · cases explicit

/-- Another active edge of the same source and action may have a compatible guard after a check. -/
theorem not_unique_relaunched : ¬ ∀ s o e c s', Used s → s.model.WellFormed →
    s.model.graph.transitions.get? o.transition = some e → e.dest = o.state →
    s.check o = .ok (.ok c, s') → c ≠ .ignored →
    ∃ e', s'.model.graph.transitions.get? o.transition = some e' ∧
      ∀ id f', s'.model.graph.Rival o.transition id e' f' → f'.isActive = true →
        f'.guards.isCompatible e'.guards = false := by
  intro unique
  obtain ⟨s', e', f', checked, live, rival, active, compatible⟩ := check_relaunched
  obtain ⟨_, live', apart⟩ := unique _ ⟨⟨1⟩, ⟨2⟩, ⟨3⟩, some ⟨5⟩⟩ _ _ s' (.start .relaunched)
    built_relaunched.sound.model rfl rfl checked nofun
  cases live.symm.trans live'
  exact absurd (compatible.symm.trans (apart ⟨0⟩ f' rival active)) nofun

end Session

end ScreenGraph
