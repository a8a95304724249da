import ScreenGraph.Proofs.Migrating

namespace ScreenGraph

theorem OrderedSet.toList_insertMany {α : Type} [DecidableEq α] (s : OrderedSet α) (xs : List α) :
    s.toList <+: (s.insertMany xs).toList := by
  induction xs generalizing s with
  | nil => exact List.prefix_rfl
  | cons a r ih =>
    refine List.IsPrefix.trans ?_ (ih (s.insert a))
    rw [toList_insert]
    split
    · exact List.prefix_rfl
    · exact List.prefix_append ..

theorem OrderedSet.first?_ofList {α : Type} [DecidableEq α] (xs : List α) :
    (OrderedSet.ofList xs).first? = xs.head? := by
  cases xs with
  | nil => rfl
  | cons a r =>
    obtain ⟨rest, same⟩ := toList_insertMany (OrderedSet.insert ∅ a) r
    have same : [a] ++ rest = (OrderedSet.ofList (a :: r)).toList := same
    rw [OrderedSet.first?, ← same]
    rfl

namespace Session

variable {s s' planned : Session} {o b : StateId} {w : WindowId} {matching : Matching}
  {id : TransitionId} {e : Transition} {a : Action} {d : StateId} {plan : List Transfer}

inductive FirstLive (s : Session) (p : StateId) : StateId → Prop
  | itself (live : s.IsLive p) : FirstLive s p p
  | image {before after d} (dead : ¬ s.IsLive p)
      (images : s.ledger.imagesOf p = before ++ d :: after)
      (passed : ∀ x ∈ before, ¬ s.IsLive x) (live : s.IsLive d) : FirstLive s p d

/-- Where the copy of an edge leads: where the edge does, or to a live state in its place if the
edge navigates back. -/
def LeadsTo (s : Session) (e : Transition) (d : StateId) : Prop :=
  e.isNavigateBack = false ∧ d = e.dest ∨ e.isNavigateBack = true ∧ s.FirstLive e.dest d

def Suppressed (s : Session) (w : WindowId) (a : Action) (d : StateId) : Prop :=
  ∃ id, s.model.actions.find? w a = some id ∧
    ((∃ sd, s.model.graph.states.get? d = some sd ∧ s.model.isVetoed w id sd.window = true) ∨
      ∃ entry, s.model.actions.entries.get? id = some entry ∧ entry.navigateBack = true)

/-- The edges that a registration copies to a state on a window, by which action and where to: those
of the base version that were observed and lead elsewhere, by an action on an element that shows no
web page and that the matching has a partner for. -/
structure Copies (s : Session) (w : WindowId) (matching : Matching) (e : Transition) (a : Action)
    (d : StateId) : Prop where
  explicit : e.isImplicit = false
  moves : e.source ≠ e.dest
  version : e.version = .base
  action : ∃ entry v avm i, s.model.actions.entries.get? e.action = some entry ∧
    entry.action.target = some v ∧ s.model.avms.avms.get? v = some avm ∧ avm.isWebView = false ∧
    matching.image? v = some i ∧ a = { entry.action with target := some i }
  resolves : s.Resolves e.guards
  dest : s.LeadsTo e d
  free : e.isNavigateBack = true → ¬ s.Suppressed w a d

theorem isLive_eq_ok {p : StateId} {c : Bool} :
    (return (← s.model.graph.state p).isLive : Checked Bool) = .ok c ↔
      ∃ st, s.model.graph.states.get? p = some st ∧ st.isLive = c := by
  simp only [Checked.bind_eq_ok, pure_eq_ok, Graph.state, Arena.get_eq_ok_iff]

theorem not_isLive {p : StateId} {st : State} (hst : s.model.graph.states.get? p = some st)
    (dead : st.isLive = false) : ¬ s.IsLive p := by
  rintro ⟨st', hst', live⟩
  cases hst.symm.trans hst'
  exact absurd (live.symm.trans dead) nofun

theorem resolveGuard_head? {p : StateId} {xs : List StateId} (ok : s.resolveGuard p = .ok xs) :
    xs.head? = some d ↔ s.FirstLive p d := by
  obtain ⟨st, hst, ok⟩ := Arena.get_bind_eq_ok.1 ok
  cases live : st.isLive with
  | true =>
    rw [if_pos live] at ok
    cases ok
    have here : s.IsLive p := ⟨st, hst, live⟩
    constructor
    · rintro ⟨⟩
      exact .itself here
    · rintro (_ | ⟨dead, -, -, -⟩)
      · rfl
      · exact absurd here dead
  | false =>
    rw [if_neg (by simp [live])] at ok
    have dead := not_isLive hst live
    rw [head?_filterChecked ok]
    simp only [isLive_eq_ok]
    constructor
    · rintro ⟨before, after, images, passed, st, hst, live⟩
      refine .image dead images (fun x mem => ?_) ⟨st, hst, live⟩
      obtain ⟨st, hst, dead⟩ := passed x mem
      exact not_isLive hst dead
    · rintro (⟨live⟩ | ⟨-, images, passed, live⟩)
      · exact absurd live dead
      · refine ⟨_, _, images, fun x mem => ?_, live⟩
        have listed : x ∈ s.ledger.imagesOf p := images ▸ List.mem_append_left _ mem
        obtain ⟨c, tested⟩ := filterChecked_each ok listed
        obtain ⟨st, hst, live⟩ := isLive_eq_ok.1 tested
        cases c with
        | true => exact absurd ⟨st, hst, live⟩ (passed x mem)
        | false => exact ⟨st, hst, live⟩

theorem FirstLive.unique {p d' : StateId} (h : s.Sound)
    (there : s.model.graph.states.contains p = true) (first : s.FirstLive p d)
    (first' : s.FirstLive p d') : d' = d := by
  obtain ⟨xs, resolved⟩ := resolveGuard_succeeds h there
  have head := (resolveGuard_head? resolved).2 first
  have head' := (resolveGuard_head? resolved).2 first'
  exact Option.some.inj (head'.symm.trans head)

theorem resolveGuards_first? {p : StateId} {gs : Option Guard}
    (ok : s.resolveGuards (.ofList [p]) = .ok gs) :
    gs.bind OrderedSet.first? = some d ↔ s.FirstLive p d := by
  obtain ⟨xs, walked, done⟩ := Checked.bind_eq_ok.1 ok
  obtain ⟨ys, resolved, walked⟩ := Checked.bind_eq_ok.1 walked
  cases walked
  cases done
  rw [← resolveGuard_head? resolved, List.append_nil, ← OrderedSet.first?_ofList]
  split
  · next empty =>
    rw [OrderedSet.first?, List.isEmpty_iff.1 empty]
    simp
  · rfl

theorem resolveDest_eq_ok {found : Option StateId} (ok : s.resolveDest e = .ok found) :
    found = some d ↔ s.LeadsTo e d := by
  unfold LeadsTo
  unfold resolveDest at ok
  cases back : e.isNavigateBack with
  | false =>
    rw [if_pos (by simp [back])] at ok
    cases ok
    simp [eq_comm]
  | true =>
    rw [if_neg (by simp [back])] at ok
    obtain ⟨gs, resolved, done⟩ := Checked.bind_eq_ok.1 ok
    cases done
    simpa using resolveGuards_first? resolved

theorem isSuppressed_eq_ok {c : Bool} (ok : s.isSuppressed w a d = .ok c) :
    c = true ↔ s.Suppressed w a d := by
  obtain ⟨sd, hsd, ok⟩ := Arena.get_bind_eq_ok.1 ok
  unfold Suppressed
  split at ok
  · next none =>
    cases ok
    simp [none]
  next id found =>
  simp only [found, Option.some.injEq, exists_eq_left']
  dsimp only at ok
  split at ok
  · next vetoed =>
    cases ok
    exact iff_of_true rfl (.inl ⟨sd, hsd, vetoed⟩)
  · next allowed =>
    obtain ⟨entry, hentry, done⟩ := Arena.get_bind_eq_ok.1 ok
    cases done
    constructor
    · exact fun known => .inr ⟨entry, hentry, known⟩
    · rintro (⟨sd', hsd', vetoed⟩ | ⟨entry', hentry', known⟩)
      · cases hsd.symm.trans hsd'
        exact absurd vetoed allowed
      · cases hentry.symm.trans hentry'
        exact known

theorem outgoingFinding_copies (h : s.Sound) (live : s.model.graph.transitions.get? id = some e)
    (copies : s.Copies w matching e a d) : ∃ t,
      s.outgoingFinding o w matching id = .ok (.planned t) ∧ t.action = .retargeted w a ∧
        t.dest = d := by
  obtain ⟨entry, v, avm, i, hentry, target, havm, shown, image, rfl⟩ := copies.action
  obtain ⟨gs, resolved⟩ := resolveGuards_succeeds h (h.model.edge live).guards
  cases gs with
  | none => exact absurd copies.resolves (resolveGuards_eq_none resolved)
  | some gs =>
    obtain ⟨found, dest⟩ := resolveDest_succeeds h (h.model.graph.dest live)
    cases (resolveDest_eq_ok dest).2 copies.dest
    have there : s.model.graph.states.contains d = true := by
      rcases resolveDest_eq_some dest with rfl | stands
      · exact h.model.graph.dest live
      · exact stands.contains
    have free : e.isNavigateBack = true →
        s.isSuppressed w { entry.action with target := some i } d = .ok false := by
      intro back
      obtain ⟨c, suppressed⟩ := isSuppressed_succeeds h w _ there
      cases c with
      | true => exact absurd ((isSuppressed_eq_ok suppressed).1 rfl) (copies.free back)
      | false => exact suppressed
    have retargeted := (@retarget_eq_ok s o id _ _ _ _).2 ⟨gs, d, resolved, dest, free, rfl⟩
    exact ⟨_, outgoingFinding_eq_ok.2 ⟨e, entry, v, avm, i, live, copies.explicit, copies.moves,
      copies.version, hentry, target, havm, shown, image, retargeted⟩, rfl, rfl⟩

theorem copies_of_planned {t : Transfer}
    (ok : s.outgoingFinding o w matching id = .ok (.planned t)) : ∃ e a,
      s.model.graph.transitions.get? id = some e ∧ t.action = .retargeted w a ∧
        s.Copies w matching e a t.dest := by
  obtain ⟨e, entry, v, avm, i, live, explicit, moves, version, hentry, target, havm, shown, image,
    retargeted⟩ := outgoingFinding_eq_ok.1 ok
  obtain ⟨gs, d, resolved, dest, free, rfl⟩ := retarget_eq_ok.1 retargeted
  refine ⟨e, _, live, rfl, explicit, moves, version, ?_, ?_, ?_, ?_⟩
  · exact ⟨entry, v, avm, i, hentry, target, havm, shown, image, rfl⟩
  · exact (resolveGuards_eq_some resolved).1
  · exact (resolveDest_eq_ok dest).1 rfl
  · intro back suppressed
    exact absurd ((isSuppressed_eq_ok (free back)).2 suppressed) nofun

theorem plan_copies (h : s.Sound) (ok : s.plan o b matching = .ok (plan, planned)) {so : State}
    (observed : s.model.graph.states.get? o = some so)
    (live : s.model.graph.transitions.get? id = some e) (leaves : e.source = b)
    (copies : s.Copies so.window matching e a d) : ∃ done t rest, plan = done ++ t :: rest ∧
      t.baseEdge = id ∧ t.source = o ∧ t.action = .retargeted so.window a ∧ t.dest = d ∧
        ∀ u ∈ t :: rest, u.isIncoming = false := by
  obtain ⟨so', ids, ins, outs, hso, hids, -, houts, rfl, -⟩ := plan_eq_ok ok
  cases observed.symm.trans hso
  obtain ⟨t, found, action, dest⟩ := outgoingFinding_copies h live copies
  obtain ⟨sb, hsb, rfl⟩ := Graph.outgoing_eq_ok hids
  have listed : id ∈ sb.outgoing := (h.model.graph.listed hsb id).2 ⟨e, live, leaves⟩
  have mem := (mem_planned houts).2 ⟨id, listed, found⟩
  obtain ⟨before, rest, split⟩ := List.append_of_mem mem
  obtain ⟨same, e', planned⟩ := outgoingFinding_planned found
  refine ⟨ins.filterMap Finding.transfer? ++ before, t, rest, ?_, same, planned.source, action,
    dest, fun u hu => ?_⟩
  · rw [split, List.append_assoc]
  · have mem : u ∈ outs.filterMap Finding.transfer? := split ▸ List.mem_append_right _ hu
    obtain ⟨e, -, planned⟩ := mem_plannedOutgoing h.model.graph hids houts mem
    exact planned.outgoing

theorem transferAction_interned {t : Transfer} {old : Transition} {x : ActionId}
    (ok : s.transferAction t old = .ok (x, s')) (action : t.action = .retargeted w a) :
    s'.model.actions.find? w a = some x := by
  obtain ⟨m₁, m₂, m₃, resolved, marked, bound, rfl⟩ := transferAction_eq_ok ok
  rw [action] at resolved
  obtain ⟨-, rfl, rfl⟩ := Model.internAction_eq_ok resolved
  refine (Model.bindImages_aside bound).interned ((Model.markTransfer_aside marked).interned ?_)
  exact ActionTable.find?_intern s.model.actions w a

/-- There is an edge out of a state by an action on a window that covers this much, and that leads
to a state unless this run has taken it. -/
def Offers (s : Session) (o : StateId) (w : WindowId) (a : Action) (d : StateId) (c : Coverage) :
    Prop :=
  ∃ id e c', s.model.graph.transitions.get? id = some e ∧ e.source = o ∧
    s.model.actions.find? w a = some e.action ∧
    (e.dest = d ∨ e.isExercisedIn .running = true) ∧
    s.model.graph.coverages.get? id = some c' ∧ c.Within c'

theorem applyTransfer_offers {t : Transfer} {c : Coverage} (consistent : s.model.graph.Consistent)
    (ok : s.applyTransfer t = .ok s') (outgoing : t.isIncoming = false)
    (action : t.action = .retargeted w a)
    (covered : s.model.graph.coverages.get? t.baseEdge = some c) :
    s'.Offers t.source w a t.dest c := by
  obtain ⟨old, x, s₁, g, -, prepared, carried, model, -, -⟩ := applyTransfer_eq_ok ok
  rw [Graph.coverage?, covered, Option.getD_some] at carried
  obtain ⟨id, e, live, ⟨⟨e', live', source, by_action, -⟩, c', covered', within⟩, dest⟩ :=
    carried.carrier consistent
  cases live.symm.trans live'
  rw [outgoing] at model
  rw [Offers, model]
  refine ⟨id, e, c', live, source, ?_, dest.imp_right And.right, covered', within⟩
  rw [by_action]
  exact transferAction_interned prepared action

theorem Offers.mono {c c' : Coverage} (within : c.Within c') (h : s.Offers o w a d c') :
    s.Offers o w a d c := by
  obtain ⟨id, e, c'', live, source, action, dest, covered, within'⟩ := h
  exact ⟨id, e, c'', live, source, action, dest, covered, within.trans within'⟩

theorem Offers.applyAll {c : Coverage} (h : s.Offers o w a d c) (ok : s.applyAll plan = .ok s')
    (outgoing : ∀ t ∈ plan, t.isIncoming = false) : s'.Offers o w a d c := by
  obtain ⟨id, e, c', live, source, action, dest, covered, within⟩ := h
  have frames : s.model.graph.Frames s'.model.graph _ (fun _ _ => False) := applyAll_frames ok
  have stays : ¬ ∃ t ∈ plan, t.Takes id := by
    rintro ⟨t, mem, incoming, -⟩
    exact absurd (incoming.symm.trans (outgoing t mem)) nofun
  obtain ⟨⟨e', live', endures⟩, coverage, -⟩ := frames.stays live stays
  obtain ⟨c'', covered', within'⟩ := coverage c' covered
  refine ⟨id, e', c'', live', endures.source.trans source, ?_, ?_, covered', within.trans within'⟩
  · rw [endures.action]
    exact (applyAll_keeps ok).model.interned action
  · rw [endures.dest, endures.isExercisedIn]
    exact dest

theorem applyAll_copies (h : s.Sound) (made : s.plan o b matching = .ok (plan, planned))
    (applied : planned.applyAll plan = .ok s') {so : State}
    (observed : s.model.graph.states.get? o = some so)
    (live : s.model.graph.transitions.get? id = some e) (leaves : e.source = b)
    (copies : s.Copies so.window matching e a d) {c : Coverage}
    (covered : s.model.graph.coverages.get? id = some c) :
    s'.model.graph.transitions.get? id = some e ∧ s'.Offers o so.window a d c := by
  have consistent := h.model.graph
  have takes : ¬ ∃ t ∈ plan, t.Takes id := fun taken =>
    ((plan_takes consistent made live).1 taken).2.1.2.1 leaves
  obtain ⟨done, t, rest, split, rfl, rfl, action, rfl, outgoing⟩ :=
    plan_copies h made observed live leaves copies
  rw [← (plan_aside made).model.graph] at consistent live covered
  have frames : planned.model.graph.Frames _ _ (fun _ _ => False) := applyAll_frames applied
  constructor
  · obtain ⟨e', live', endures⟩ := (frames.stays live takes).edge
    rw [live', endures.eq_of_explicit copies.explicit]
  · rw [split] at applied takes
    obtain ⟨now, before, applied⟩ := Checked.bind_eq_ok.1 (foldChecked_append.symm.trans applied)
    obtain ⟨after, first, followed⟩ := Checked.bind_eq_ok.1 applied
    have kept := applyAll_retains before live fun u mem incoming same =>
      takes ⟨u, List.mem_append_left _ mem, incoming, same⟩
    obtain ⟨c', covered', within⟩ := kept.coverage c covered
    have halfway := applyAll_consistent consistent before
    have offers := applyTransfer_offers halfway first (outgoing t (by simp)) action covered'
    exact (offers.applyAll followed fun u mem => outgoing u (by simp [mem])).mono within

theorem FirstLive.congr {p : StateId} (states : s.model.graph.SameStates s'.model.graph)
    (images : s'.ledger.images = s.ledger.images) (h : s.FirstLive p d) : s'.FirstLive p d := by
  have live := isLive_congr states
  have stand : s'.ledger.imagesOf p = s.ledger.imagesOf p := by
    rw [Ledger.imagesOf, images, Ledger.imagesOf]
  cases h with
  | itself here => exact .itself (live ▸ here)
  | image dead split passed there =>
    rw [← live] at dead passed there
    exact .image dead (stand.trans split) passed there

theorem Copies.congr (model : s'.model = { s.model with catalog := s'.model.catalog })
    (images : s'.ledger.images = s.ledger.images) (h : s.Copies w matching e a d) :
    s'.Copies w matching e a d := by
  have states : s.model.graph.SameStates s'.model.graph := by
    rw [model]
    exact .refl _
  refine ⟨h.explicit, h.moves, h.version, ?_, ?_, ?_, ?_⟩
  · rw [model]
    exact h.action
  · have resolves := h.resolves
    unfold Resolves StandsFor Ledger.imagesOf at resolves ⊢
    rw [isLive_congr states, images]
    exact resolves
  · exact h.dest.imp_right fun ⟨back, first⟩ => ⟨back, first.congr states images⟩
  · unfold Suppressed
    rw [model]
    exact h.free

theorem Begins.copies {mid : Session} (h : s.Begins o b matching mid planned plan) :
    mid.Copies w matching e a d ↔
      Copies { s with ledger := s.ledger.recognise o b } w matching e a d := by
  refine ⟨Copies.congr ?_ h.images.symm, Copies.congr h.model h.images⟩
  rw [h.model]

/-- The first registration of a pair, with the matching of its comparison, copies the edges out of
the base state to the observed one. -/
theorem Used.register_copies (used : s.Used) (wf : s.model.WellFormed) {so sb : State}
    (observed : s.model.graph.states.get? o = some so) (running : so.version = .running)
    (base : s.model.graph.states.get? b = some sb) (fresh : b ∉ s.ledger.equivalentsOf o)
    {strict : Bool} {c : Comparison} {m : Model}
    (compared : s.model.compare o b strict = .ok (c, m)) (n : SnapshotId) :
    ∃ s', Session.register { s with model := m } o b n (c.matching.getD {}) = .ok s' ∧
      ∀ id e a d, s.model.graph.transitions.get? id = some e → e.source = b →
        Copies { s with ledger := s.ledger.recognise o b } so.window (c.matching.getD {}) e a d →
        s'.model.graph.transitions.get? id = some e ∧
          ∃ c, s.model.graph.coverages.get? id = some c ∧ s'.Offers o so.window a d c := by
  obtain ⟨s', mid, planned, plan, registered, begins, applied⟩ :=
    used.register_compared wf observed running base fresh compared n
  refine ⟨s', registered, fun id e a d live leaves copies => ?_⟩
  obtain ⟨c, covered⟩ := OrderedMap.contains_iff.1
    ((wf.graph.coverages id).trans (Arena.contains_of_get? live))
  rw [← begins.graph] at observed live covered
  obtain ⟨stays, offers⟩ := applyAll_copies begins.sound begins.made applied observed live leaves
    (begins.copies.2 copies) covered
  exact ⟨stays, c, begins.graph ▸ covered, offers⟩

end Session

def Model.clicked : Model where
  catalog := (Catalog.openWindow {} "Main" "main" .activity .base).2
  avms := ((AvmStore.add { signature := Attributes.spelling } ⟨0⟩ { resourceId := "ok" }).2.add
    ⟨2⟩ { resourceId := "ok" }).2
  actions := (ActionTable.intern {} ⟨0⟩ { kind := .click, target := some ⟨0⟩ }).2
  graph := Graph.withEdge
    { states := ((((Arena.add ∅
        { window := ⟨0⟩, version := .base, avms := .ofList [⟨0⟩] }).2.add
        { window := ⟨0⟩, version := .base }).2.add
        { window := ⟨0⟩, version := .running, avms := .ofList [⟨1⟩] }).2.add
        { window := ⟨0⟩, version := .running }).2 }
    { source := ⟨0⟩, action := ⟨0⟩, dest := ⟨1⟩, version := .base } ∅

namespace Session

theorem built_clicked : Built { model := .clicked } := by
  have window :=
    (Built.start {} Attributes.spelling).edit (.openWindow "Main" "main" .activity .base)
  have first := window.addState ⟨0⟩ .base [] rfl
  have second := first.addState ⟨0⟩ .base [] rfl
  have running := second.addState ⟨0⟩ .running [] rfl
  have other := running.addState ⟨0⟩ .running [] rfl
  have button := other.edit (@Model.Edit.addAvm _ ⟨0⟩ { resourceId := "ok" } none _ _ rfl)
  have again := button.edit (@Model.Edit.addAvm _ ⟨2⟩ { resourceId := "ok" } none _ _ rfl)
  have click := again.edit
    (@Model.Edit.internAction _ ⟨0⟩ { kind := .click, target := some ⟨0⟩ } _ _ rfl)
  exact click.withEdge { source := ⟨0⟩, action := ⟨0⟩, dest := ⟨1⟩, version := .base } ∅ rfl rfl
    (.of_all rfl rfl)

theorem register_copies_clicked : ∃ c m s', Model.clicked.compare ⟨2⟩ ⟨0⟩ false = .ok (c, m) ∧
    Session.register { model := m } ⟨2⟩ ⟨0⟩ ⟨0⟩ (c.matching.getD {}) = .ok s' ∧
    ∃ c', s'.Offers ⟨2⟩ ⟨0⟩ { kind := .click, target := some ⟨1⟩ } ⟨1⟩ c' := by
  have matched : (Model.clicked.compare ⟨2⟩ ⟨0⟩ false).toOption.map
      (fun r => (r.1.matching.getD {}).image? ⟨0⟩) = some (some ⟨1⟩) := by decide +kernel
  obtain ⟨⟨c, m⟩, compared, image⟩ := Option.map_eq_some_iff.1 matched
  have compared := toOption_eq_some.1 compared
  obtain ⟨s', registered, copies⟩ :=
    (Used.start .clicked).register_copies built_clicked.sound.model rfl rfl rfl nofun compared ⟨0⟩
  obtain ⟨-, c', -, offers⟩ := copies ⟨0⟩ _ { kind := .click, target := some ⟨1⟩ } ⟨1⟩ rfl rfl
    ⟨rfl, by decide, rfl, ⟨_, ⟨0⟩, _, ⟨1⟩, rfl, rfl, rfl, rfl, image, rfl⟩,
      .inl rfl, .inl ⟨rfl, rfl⟩, nofun⟩
  exact ⟨c, m, s', compared, registered, c', offers⟩

end Session

end ScreenGraph
