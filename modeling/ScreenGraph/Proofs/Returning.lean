import ScreenGraph.Proofs.Copying
import ScreenGraph.Proofs.Flagging
import ScreenGraph.Proofs.Widening

namespace ScreenGraph

namespace Model

variable {m m' : Model} {a b old : ActionId}

theorem resolveAction_navigates {x : TransferAction} (ok : m.resolveAction x = .ok (a, m'))
    (back : m'.NavigatesBack b) : m.NavigatesBack b := by
  cases x with
  | kept id =>
    cases ok
    exact back
  | retargeted w x => exact internAction_navigates ok back

theorem markNavigateBack_navigates (ok : m.markNavigateBack a = .ok m')
    (back : m'.NavigatesBack b) : m.NavigatesBack b ∨ b = a := by
  obtain ⟨actions, marked, ok⟩ := Checked.bind_eq_ok.1 ok
  obtain ⟨inputs, -, ok⟩ := Checked.bind_eq_ok.1 ok
  obtain ⟨catalog, -, done⟩ := Checked.bind_eq_ok.1 ok
  cases done
  obtain ⟨-, rfl⟩ := ActionTable.update_eq_ok.1 marked
  obtain ⟨e, live, back⟩ := back
  rcases Arena.of_get?_modify live with ⟨-, before⟩ | ⟨rfl, -, -, -⟩
  · exact .inl ⟨e, before, back⟩
  · exact .inr rfl

theorem markTransfer_navigates {t : Transfer} (ok : m.markTransfer t old a = .ok m')
    (back : m'.NavigatesBack b) :
    m.NavigatesBack b ∨ t.isNavigateBack = true ∧ (b = old ∨ b = a) := by
  unfold markTransfer at ok
  split at ok
  · next returns =>
    obtain ⟨m₁, first, ok⟩ := Checked.bind_eq_ok.1 ok
    rcases markNavigateBack_navigates ok back with back | rfl
    · rcases markNavigateBack_navigates first back with back | rfl
      · exact .inl back
      · exact .inr ⟨returns, .inl rfl⟩
    · exact .inr ⟨returns, .inr rfl⟩
  · cases ok
    exact .inl back

theorem bindImages_navigates {images : OrderedMap InputId InputId}
    (ok : m.bindImages images old a = .ok m') (back : m'.NavigatesBack b) :
    m.NavigatesBack b := by
  obtain ⟨inputs, -, ok⟩ := Checked.bind_eq_ok.1 ok
  obtain ⟨actions, bound, done⟩ := Checked.bind_eq_ok.1 ok
  cases done
  refine foldChecked_induct (fun t => NavigatesBack { m with actions := t } b → m.NavigatesBack b)
    bound id ?_ back
  intro t i _ t' before ok back
  obtain ⟨-, rfl⟩ := ActionTable.update_eq_ok.1 ok
  obtain ⟨e, live, back⟩ := back
  rcases Arena.of_get?_modify live with ⟨-, old⟩ | ⟨rfl, e, old, rfl⟩
  · exact before ⟨e, old, back⟩
  · exact before ⟨e, old, back⟩

end Model

namespace Session

variable {s s' planned : Session} {t : Transfer} {plan : List Transfer} {id k : TransitionId}
  {a : ActionId} {i : InputId}

inductive Marks (s : Session) (t : Transfer) (a : ActionId) : Prop
  | intro {old x mid} (edge : s.model.graph.transitions.get? t.baseEdge = some old)
      (prepared : s.transferAction t old = .ok (x, mid)) (back : t.isNavigateBack = true)
      (marked : a = old.action ∨ a = x) : Marks s t a

theorem applyTransfer_marks (ok : s.applyTransfer t = .ok s') (back : s'.model.NavigatesBack a) :
    s.model.NavigatesBack a ∨ s.Marks t a := by
  obtain ⟨old, x, s₁, g, live, prepared, -, model, -, -⟩ := applyTransfer_eq_ok ok
  obtain ⟨m₁, m₂, m₃, resolved, marked, bound, same⟩ := transferAction_eq_ok prepared
  rw [model, same] at back
  rcases Model.markTransfer_navigates marked (Model.bindImages_navigates bound back) with
    back | ⟨returns, which⟩
  · exact .inl (Model.resolveAction_navigates resolved back)
  · exact .inr (.intro live prepared returns which)

theorem applyTransfer_covers (ok : s.applyTransfer t = .ok s') (apart : ¬ s.Receives t k)
    (stays : ¬ t.Takes k) :
    s'.model.graph.coverages.get? k = s.model.graph.coverages.get? k := by
  obtain ⟨old, live, ok⟩ := Arena.get_bind_eq_ok.1 ok
  obtain ⟨⟨a, mid⟩, prepared, ok⟩ := Checked.bind_eq_ok.1 ok
  obtain ⟨s₂, carried, ok⟩ := Checked.bind_eq_ok.1 ok
  have graph := (transferAction_aside prepared).model.graph
  have other : ∀ target, mid.model.mergeTarget t a = .ok target →
      target.getD s.model.graph.transitions.next ≠ k := by
    intro target found into
    unfold Model.mergeTarget at found
    rw [graph] at found
    exact apart (.intro live prepared found into)
  have same : s₂.model.graph.coverages.get? k = s.model.graph.coverages.get? k := by
    rw [← graph]
    obtain ⟨found, -, -, rfl⟩ | ⟨into, before, found, -, rfl⟩ := transferEdge_cases carried
    · exact (OrderedMap.get?_insert ..).trans (if_neg (graph ▸ other none found))
    · exact (OrderedMap.get?_insert ..).trans (if_neg (other (some into) found))
  cases incoming : t.isIncoming with
  | false =>
    simp only [incoming] at ok
    cases ok
    exact same
  | true =>
    simp only [incoming] at ok
    obtain ⟨⟨gone, g'⟩, removed, done⟩ := Checked.bind_eq_ok.1 ok
    cases done
    obtain ⟨-, ⟨-, rfl⟩ | ⟨u, -, rfl⟩⟩ := Graph.removeTransition_eq_ok removed
    · exact same
    · have kept : t.baseEdge ≠ k := fun here => stays ⟨incoming, here⟩
      exact (OrderedMap.get?_erase ..).trans ((if_neg kept).trans same)

theorem applyAll_edges (ok : s.applyAll plan = .ok s') {e' : Transition}
    (live : s'.model.graph.transitions.get? k = some e') :
    s.model.graph.transitions.get? k = some e' ∧
        s'.model.graph.coverages.get? k = s.model.graph.coverages.get? k ∨
      s.AtTurn plan fun now t => now.Receives t k := by
  induction plan generalizing s with
  | nil =>
    cases ok
    exact .inl ⟨live, rfl⟩
  | cons t rest ih =>
    obtain ⟨s₁, first, ok⟩ := Checked.bind_eq_ok.1 ok
    rw [atTurn_cons first]
    rcases ih ok with ⟨before, covered⟩ | turn
    · obtain ⟨stays, ⟨-, receives, -, -⟩ | ⟨e, older, ⟨receives, -⟩ | ⟨apart, rfl⟩⟩⟩ :=
        applyTransfer_made first before
      · exact .inr (.inl receives)
      · exact .inr (.inl receives)
      · exact .inl ⟨older, covered.trans (applyTransfer_covers first apart stays)⟩
    · exact .inr (.inr turn)

theorem applyAll_marks (ok : s.applyAll plan = .ok s') (back : s'.model.NavigatesBack a) :
    s.model.NavigatesBack a ∨ s.AtTurn plan fun now t => now.Marks t a := by
  induction plan generalizing s with
  | nil =>
    cases ok
    exact .inl back
  | cons t rest ih =>
    obtain ⟨s₁, first, ok⟩ := Checked.bind_eq_ok.1 ok
    rw [atTurn_cons first]
    rcases ih ok with before | turn
    · exact (applyTransfer_marks first before).imp_right .inl
    · exact .inr (.inr turn)

/-- All that a plan does to edges, flags and inputs it does for other edges than this one. -/
structure Spares (s : Session) (plan : List Transfer) (id : TransitionId) (s' : Session) :
    Prop where
  edge : ∀ k e', s'.model.graph.transitions.get? k = some e' →
    s.model.graph.transitions.get? k = some e' ∧
        s'.model.graph.coverages.get? k = s.model.graph.coverages.get? k ∨
      s.AtTurn plan fun now t => t.baseEdge ≠ id ∧ now.Receives t k
  flag : ∀ a, s'.model.NavigatesBack a →
    s.model.NavigatesBack a ∨ s.AtTurn plan fun now t => t.baseEdge ≠ id ∧ now.Marks t a
  input : ∀ a i, s'.model.Binds a i →
    s.model.Binds a i ∨ s.AtTurn plan fun now t => t.baseEdge ≠ id ∧ now.Attaches t a i

theorem applyAll_spares (ok : s.applyAll plan = .ok s') (others : ∀ t ∈ plan, t.baseEdge ≠ id) :
    s.Spares plan id s' := by
  have other : ∀ {p : Session → Transfer → Prop}, s.AtTurn plan p →
      s.AtTurn plan fun now t => t.baseEdge ≠ id ∧ p now t := by
    rintro p ⟨done, t, rest, now, rfl, applied, holds⟩
    exact ⟨done, t, rest, now, rfl, applied, others t (by simp), holds⟩
  refine ⟨fun k e' live => ?_, fun a back => ?_, fun a i bound => ?_⟩
  · exact (applyAll_edges ok live).imp_right other
  · exact (applyAll_marks ok back).imp_right other
  · exact ((applyAll_flags ok).binds.1 bound).imp_right other

section

variable {o b : StateId} {matching : Matching} {e : Transition} {x : Action} {d : StateId}
  {n : SnapshotId}

/-- The plan of a registration, and the session in which it is carried out. For a pair that is
entered already nothing is planned. -/
inductive Plots (s : Session) (o b : StateId) (n : SnapshotId) (matching : Matching) :
    List Transfer → Session → Prop
  | known (entered : s.ledger.isRecognised o b = true) :
      Plots s o b n matching [] { s with ledger := s.ledger.markSnapshot n b }
  | planned {plan : List Transfer} {planned : Session}
      (fresh : s.ledger.isRecognised o b = false)
      (entered : enter { s with ledger := s.ledger.markSnapshot n b } o b matching =
        .ok (plan, planned)) : Plots s o b n matching plan planned

theorem register_plots (ok : s.register o b n matching = .ok s') : ∃ plan planned,
    s.Plots o b n matching plan planned ∧ planned.applyAll plan = .ok s' := by
  obtain ⟨entered, rfl⟩ | ⟨fresh, plan, planned, entered, applied⟩ := register_cases ok
  · exact ⟨[], _, .known entered, rfl⟩
  · exact ⟨plan, planned, .planned fresh entered, applied⟩

/-- An edge out of a base state that navigates back, with the action and the destination that its
copy would have. -/
structure Returns (s : Session) (b : StateId) (matching : Matching) (e : Transition) (x : Action)
    (d : StateId) : Prop where
  leaves : e.source = b
  back : e.isNavigateBack = true
  action : ∃ entry v i, s.model.actions.entries.get? e.action = some entry ∧
    entry.action.target = some v ∧ matching.image? v = some i ∧
    x = { entry.action with target := some i }
  dest : s.FirstLive e.dest d

theorem Returns.congr (model : s'.model = { s.model with catalog := s'.model.catalog })
    (images : s'.ledger.images = s.ledger.images) (h : s.Returns b matching e x d) :
    s'.Returns b matching e x d := by
  refine ⟨h.leaves, h.back, ?_, h.dest.congr ?_ images⟩
  · rw [model]
    exact h.action
  · rw [model]
    exact .refl _

theorem outgoingFinding_returns {w : WindowId}
    (ok : s.outgoingFinding o w matching id = .ok (.planned t))
    (live : s.model.graph.transitions.get? id = some e) (back : e.isNavigateBack = true) :
    t.isNavigateBack = true ∧ s.IsLive t.dest ∧ t.dest ∈ t.guards := by
  obtain ⟨e', entry, v, avm, i, live', -, -, -, -, -, -, -, -, retargeted⟩ :=
    outgoingFinding_eq_ok.1 ok
  cases live.symm.trans live'
  obtain ⟨gs, d, resolved, dest, -, rfl⟩ := retarget_eq_ok.1 retargeted
  have first : s.FirstLive e.dest d := by
    rcases (resolveDest_eq_ok dest).1 rfl with ⟨onward, -⟩ | ⟨-, first⟩
    · cases back.symm.trans onward
    · exact first
  have gives : s.GivesWay e.dest d := by
    cases first with
    | itself live => exact .inl ⟨live, rfl⟩
    | image dead images passed live => exact .inr ⟨dead, images ▸ by simp, live⟩
  refine ⟨back, gives.stands.1, ?_⟩
  exact ((resolveGuards_widens resolved).mem d).2 ⟨e.dest, of_decide_eq_true back, gives⟩

theorem plan_returns (ok : s.plan o b matching = .ok (plan, s')) (mem : t ∈ plan)
    (outgoing : t.isIncoming = false)
    (live : s.model.graph.transitions.get? t.baseEdge = some e) (back : e.isNavigateBack = true) :
    t.isNavigateBack = true ∧ s.IsLive t.dest ∧ t.dest ∈ t.guards := by
  obtain ⟨so, ids, ins, outs, -, -, hins, houts, rfl, -⟩ := plan_eq_ok ok
  rcases List.mem_append.1 mem with mem | mem
  · obtain ⟨e', -, planned⟩ := mem_plannedIncoming hins mem
    cases outgoing.symm.trans planned.incoming
  · obtain ⟨id, -, found⟩ := (mem_planned houts).1 mem
    obtain ⟨same, -⟩ := outgoingFinding_planned found
    exact outgoingFinding_returns found (same ▸ live) back

theorem plan_suppressed (h : s.Sound) (ok : s.plan o b matching = .ok (plan, s')) {so : State}
    (observed : s.model.graph.states.get? o = some so)
    (live : s.model.graph.transitions.get? id = some e) (returns : s.Returns b matching e x d)
    (suppressed : s.Suppressed so.window x d) : ∀ t ∈ plan, t.baseEdge ≠ id := by
  rintro t mem rfl
  obtain ⟨so', ids, ins, outs, hso, -, hins, houts, rfl, -⟩ := plan_eq_ok ok
  cases observed.symm.trans hso
  rcases List.mem_append.1 mem with mem | mem
  · obtain ⟨e', -, planned⟩ := mem_plannedIncoming hins mem
    cases live.symm.trans planned.edge
    exact planned.migrates.2.1 returns.leaves
  · obtain ⟨id, -, found⟩ := (mem_planned houts).1 mem
    obtain ⟨same, -⟩ := outgoingFinding_planned found
    obtain ⟨e', y, live', -, copies⟩ := copies_of_planned found
    rw [same] at live
    cases live.symm.trans live'
    obtain ⟨entry, v, i, hentry, target, image, rfl⟩ := returns.action
    obtain ⟨entry', v', avm, i', hentry', target', -, -, image', rfl⟩ := copies.action
    cases hentry.symm.trans hentry'
    cases target.symm.trans target'
    cases image.symm.trans image'
    rcases copies.dest with ⟨onward, -⟩ | ⟨-, first⟩
    · cases returns.back.symm.trans onward
    · cases first.unique h (h.model.graph.dest live) returns.dest
      exact copies.free returns.back suppressed

/-- Copies that navigate back lead to live states of their own guards. A move back that is vetoed or
known before the registration is not copied, and nothing is done for its edge. -/
theorem Used.register_returns (used : s.Used) (wf : s.model.WellFormed) {so : State}
    (observed : s.model.graph.states.get? o = some so)
    (base : s.model.graph.states.contains b = true) (n : SnapshotId) (matching : Matching) :
    (s.Places o matching → Succeeds (s.register o b n matching)) ∧
      ∀ s', s.register o b n matching = .ok s' → ∃ plan planned,
        s.Plots o b n matching plan planned ∧ planned.applyAll plan = .ok s' ∧
        planned.model.graph = s.model.graph ∧ planned.model.actions = s.model.actions ∧
        (∀ t ∈ plan, t.isIncoming = false → ∀ e,
          s.model.graph.transitions.get? t.baseEdge = some e → e.isNavigateBack = true →
            t.isNavigateBack = true ∧ s.IsLive t.dest ∧ t.dest ∈ t.guards) ∧
        ∀ id e x d, s.model.graph.transitions.get? id = some e →
          Returns { s with ledger := s.ledger.recognise o b } b matching e x d →
          s.Suppressed so.window x d →
            (∀ t ∈ plan, t.baseEdge ≠ id) ∧ planned.Spares plan id s' := by
  have sound := used.sound wf
  have state := Arena.contains_of_get? observed
  refine ⟨fun placed => sound.register_succeeds state base placed n, fun s' registered => ?_⟩
  obtain ⟨plan, planned, plots, applied⟩ := register_plots registered
  refine ⟨plan, planned, plots, applied, ?_⟩
  cases plots with
  | known entered =>
    refine ⟨rfl, rfl, nofun, fun id e x d _ _ _ => ⟨nofun, applyAll_spares applied nofun⟩⟩
  | planned fresh entered =>
    have ready := enter_readies entered
    obtain ⟨mid, migrated, made⟩ := Checked.bind_eq_ok.1 entered
    have model : mid.model = { s.model with catalog := mid.model.catalog } :=
      (migrateInputs_model migrated :)
    have images : mid.ledger.images = (s.ledger.recognise o b).images :=
      (congrArg Ledger.images (migrateInputs_aside migrated).book :)
    have marked := sound.markSnapshot base n
    have sound' := (marked.recognise state b).migrateInputs migrated
    have graph : mid.model.graph = s.model.graph := by rw [model]
    have states : s.model.graph.SameStates mid.model.graph := graph ▸ .refl _
    refine ⟨(enter_aside entered).model.graph, ready.actions, ?_, ?_⟩
    · intro t mem outgoing e live back
      rw [← isLive_congr states]
      exact plan_returns made mem outgoing (graph ▸ live) back
    · intro id e x d live returns suppressed
      have returns : mid.Returns b matching e x d :=
        Returns.congr (s := { s with ledger := s.ledger.recognise o b }) model images returns
      have suppressed : mid.Suppressed so.window x d := by
        unfold Suppressed
        rw [model]
        exact suppressed
      have others : ∀ t ∈ plan, t.baseEdge ≠ id :=
        plan_suppressed sound' made (graph ▸ observed) (graph ▸ live) returns suppressed
      exact ⟨others, applyAll_spares applied others⟩

end

end Session

def Model.declined : Model :=
  let actions := (dismissed.actions.intern ⟨0⟩ { kind := .click, target := some ⟨1⟩ }).2
  { dismissed with actions }.veto ⟨0⟩ ⟨2⟩ ⟨0⟩

namespace Session

theorem built_declined : Built { model := .declined } := by
  have click := built_dismissed.edit
    (@Model.Edit.internAction _ ⟨0⟩ { kind := .click, target := some ⟨1⟩ } _ _ rfl)
  exact click.edit (.veto ⟨0⟩ ⟨2⟩ ⟨0⟩)

theorem plots_dismissed {plan : List Transfer} {planned : Session}
    (plots : Plots { model := .dismissed } ⟨2⟩ ⟨0⟩ ⟨0⟩ (.ofPairs [(⟨1⟩, ⟨0⟩)]) plan planned) :
    ∃ t ∈ plan, t.baseEdge = ⟨0⟩ ∧ t.isIncoming = false := by
  have copied : ((enter { model := .dismissed, ledger := Ledger.markSnapshot {} ⟨0⟩ ⟨0⟩ } ⟨2⟩ ⟨0⟩
      (.ofPairs [(⟨1⟩, ⟨0⟩)])).toOption.map fun r => r.1.any fun t =>
        decide (t.baseEdge = ⟨0⟩ ∧ t.isIncoming = false)) = some true := by decide +kernel
  cases plots with
  | known entered => cases entered
  | planned _ entered =>
    rw [entered] at copied
    obtain ⟨t, mem, copies⟩ := List.any_eq_true.1 (Option.some.inj copied)
    exact ⟨t, mem, of_decide_eq_true copies⟩

theorem register_returns_declined :
    (∃ s' plan, ∃ planned : Session,
      Session.register { model := .declined } ⟨2⟩ ⟨0⟩ ⟨0⟩ (.ofPairs [(⟨1⟩, ⟨0⟩)]) = .ok s' ∧
        Plots { model := .declined } ⟨2⟩ ⟨0⟩ ⟨0⟩ (.ofPairs [(⟨1⟩, ⟨0⟩)]) plan planned ∧
        (∀ t ∈ plan, t.baseEdge ≠ ⟨0⟩) ∧ planned.Spares plan ⟨0⟩ s') ∧
    ∃ s' plan, ∃ planned : Session,
      Session.register { model := .dismissed } ⟨2⟩ ⟨0⟩ ⟨0⟩ (.ofPairs [(⟨1⟩, ⟨0⟩)]) = .ok s' ∧
        Plots { model := .dismissed } ⟨2⟩ ⟨0⟩ ⟨0⟩ (.ofPairs [(⟨1⟩, ⟨0⟩)]) plan planned ∧
        ∃ t ∈ plan, t.baseEdge = ⟨0⟩ ∧ t.isNavigateBack = true ∧
          IsLive { model := .dismissed } t.dest ∧ t.dest ∈ t.guards := by
  constructor
  · obtain ⟨goes, returns⟩ := (Used.start .declined).register_returns built_declined.sound.model
      (o := ⟨2⟩) (b := ⟨0⟩) rfl rfl ⟨0⟩ (.ofPairs [(⟨1⟩, ⟨0⟩)])
    obtain ⟨s', registered⟩ := goes (places_pair (by rintro _ ⟨⟩; rfl))
    obtain ⟨plan, planned, plots, -, -, -, -, spares⟩ := returns s' registered
    have back : Returns
        { model := .declined, ledger := Ledger.recognise {} ⟨2⟩ ⟨0⟩ } ⟨0⟩ (.ofPairs [(⟨1⟩, ⟨0⟩)])
        { source := ⟨0⟩, action := ⟨0⟩, dest := ⟨1⟩, version := .base, guards := .ofList [⟨1⟩] }
        { kind := .click, target := some ⟨1⟩ } ⟨1⟩ :=
      ⟨rfl, by decide, ⟨_, ⟨0⟩, ⟨1⟩, rfl, rfl, rfl, rfl⟩, .itself ⟨_, rfl, rfl⟩⟩
    have vetoed :
        Suppressed { model := .declined } ⟨0⟩ { kind := .click, target := some ⟨1⟩ } ⟨1⟩ :=
      ⟨⟨2⟩, rfl, .inl ⟨_, rfl, rfl⟩⟩
    exact ⟨s', plan, planned, registered, plots, spares ⟨0⟩ _ _ _ rfl back vetoed⟩
  · obtain ⟨goes, returns⟩ := (Used.start .dismissed).register_returns built_dismissed.sound.model
      (o := ⟨2⟩) (b := ⟨0⟩) rfl rfl ⟨0⟩ (.ofPairs [(⟨1⟩, ⟨0⟩)])
    obtain ⟨s', registered⟩ := goes (places_pair (by rintro _ ⟨⟩; rfl))
    obtain ⟨plan, planned, plots, -, -, -, copies, -⟩ := returns s' registered
    obtain ⟨t, mem, edge, outgoing⟩ := plots_dismissed plots
    obtain ⟨e, live, back⟩ : ∃ e, Model.dismissed.graph.transitions.get? t.baseEdge = some e ∧
        e.isNavigateBack = true := by
      rw [edge]
      exact ⟨_, rfl, by decide⟩
    exact ⟨s', plan, planned, registered, plots, t, mem, edge,
      copies t mem outgoing e live back⟩

end Session

end ScreenGraph
