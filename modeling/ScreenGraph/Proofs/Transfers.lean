import ScreenGraph.Proofs.Edges
import ScreenGraph.Proofs.Indexing

namespace ScreenGraph

def Transition.unguarded (t : Transition) : Transition := { t with guards := ∅ }

section

variable {t u : Transition} (same : t.unguarded = u.unguarded)

include same

theorem Transition.source_eq : t.source = u.source := (congrArg Transition.source same :)

theorem Transition.action_eq : t.action = u.action := (congrArg Transition.action same :)

theorem Transition.dest_eq : t.dest = u.dest := (congrArg Transition.dest same :)

end

theorem Model.unguarded_widen (t : Transfer) (e : Transition) :
    (Model.widen t e).unguarded = e.unguarded := by
  unfold Model.widen
  split <;> rfl

theorem Model.mem_widen {t : Transfer} {e : Transition} {s : StateId}
    (mem : s ∈ (Model.widen t e).guards) : s ∈ e.guards ∨ s ∈ t.guards := by
  unfold Model.widen Guard.merge at mem
  split at mem
  · dsimp only at mem
    split at mem
    · exact absurd mem (OrderedSet.not_mem_empty s)
    split at mem
    · exact .inl mem
    · exact OrderedSet.mem_insertMany.1 mem
  · exact .inl mem

theorem Model.isImplicit_widen (t : Transfer) (e : Transition) :
    (Model.widen t e).isImplicit = e.isImplicit :=
  (congrArg Transition.isImplicit (unguarded_widen t e) :)

theorem Model.accepts_widen {t : Transfer} {e : Transition} (implicit : e.isImplicit = true)
    {ps : List StateId} : (Model.widen t e).guards.accepts ps = true ↔
      e.guards.accepts ps = true ∨ t.guards.accepts ps = true := by
  rw [Model.widen, if_pos implicit]
  exact Guard.accepts_merge_iff

def Transfer.Takes (t : Transfer) (id : TransitionId) : Prop :=
  t.isIncoming = true ∧ t.baseEdge = id

namespace Graph

variable {g g' : Graph}

structure Retains (g g' : Graph) (id : TransitionId) (e : Transition) : Prop where
  edge : ∃ e', g'.transitions.get? id = some e' ∧ e'.unguarded = e.unguarded
  coverage : ∀ c, g.coverages.get? id = some c → ∃ c', g'.coverages.get? id = some c' ∧ c.Within c'

theorem Endures.retains {id : TransitionId} {e : Transition}
    (h : g.Endures g' (fun _ _ => False) id e) : g.Retains g' id e := by
  obtain ⟨e', live, endures⟩ := h.edge
  have active : e'.isActive = e.isActive := endures.active.resolve_right fun silenced => silenced.1
  refine ⟨⟨e', live, ?_⟩, h.coverage⟩
  rw [endures.rest, active]
  rfl

structure Carries (g : Graph) (id : TransitionId) (source : StateId) (a : ActionId) (dest : StateId)
    (c : Coverage) : Prop where
  edge : ∃ e, g.transitions.get? id = some e ∧ e.source = source ∧ e.action = a ∧ e.dest = dest
  coverage : ∃ d, g.coverages.get? id = some d ∧ c.Within d

section

variable {id : TransitionId} {source dest : StateId} {a : ActionId} {c d : Coverage}

theorem Carries.mono (within : c.Within d) (h : g.Carries id source a dest d) :
    g.Carries id source a dest c := by
  obtain ⟨d', covered, more⟩ := h.coverage
  exact ⟨h.edge, d', covered, within.trans more⟩

theorem Carries.retained (h : g.Carries id source a dest c)
    (kept : ∀ e, g.transitions.get? id = some e → g.Retains g' id e) :
    g'.Carries id source a dest c := by
  obtain ⟨⟨e, live, hs, ha, hd⟩, d, covered, within⟩ := h
  obtain ⟨⟨e', live', same⟩, coverage⟩ := kept e live
  obtain ⟨d', covered', within'⟩ := coverage d covered
  refine ⟨⟨e', live', ?_, ?_, ?_⟩, d', covered', within.trans within'⟩
  · exact (Transition.source_eq same).trans hs
  · exact (Transition.action_eq same).trans ha
  · exact (Transition.dest_eq same).trans hd

end

/-- What carrying out a transfer makes of the graph, before the base edge of an incoming one goes:
the base edge is folded into one by the same action, or copied. -/
inductive Carried (g : Graph) (t : Transfer) (a : ActionId) (old : Transition) (c : Coverage) :
    Graph → Prop
  | folded {id : TransitionId} {e : Transition} {st : State} {before : Coverage}
      (source : g.states.get? t.source = some st) (listed : id ∈ st.outgoing)
      (live : g.transitions.get? id = some e) (action : e.action = a)
      (absorbs : Model.canAbsorb t e = true) (covered : g.coverages.get? id = some before) :
      g.Carried t a old c { g with
        transitions := g.transitions.modify id (Model.widen t)
        coverages := g.coverages.insert id (before.merge c) }
  | copied (source : g.states.contains t.source = true) (dest : g.states.contains t.dest = true) :
      g.Carried t a old c (g.withEdge (Model.transferred t a old) c)

namespace Carried

variable {t : Transfer} {a : ActionId} {old : Transition} {c : Coverage}

theorem sameStates (h : g.Carried t a old c g') : g.SameStates g' := by
  cases h with
  | folded => exact .refl g
  | copied => exact withEdge_sameStates _ _

theorem consistent (h : g.Carried t a old c g') (before : g.Consistent) : g'.Consistent := by
  cases h with
  | @folded id e st cov source listed live action absorbs covered =>
    have widened :
        { g with transitions := g.transitions.modify id (Model.widen t) }.Consistent := by
      refine before.modify fun e => ?_
      have same := Model.unguarded_widen t e
      exact ⟨Transition.source_eq same, Transition.dest_eq same⟩
    exact widened.insertCoverage (OrderedMap.contains_of_get? covered)
  | copied source dest => exact before.withEdge source dest

theorem frames {silenced : StateId → ActionId → Prop} (h : g.Carried t a old c g') :
    g.Frames g' (fun _ => False) silenced := by
  cases h with
  | copied => exact withEdge_frames (Model.transferred_inferred t a old) c
  | @folded into _ _ before _ _ _ _ _ covered =>
    refine ⟨fun {id e} live _ => ⟨?edge, ?coverage, rfl⟩, fun live => ?origin⟩
    case edge =>
      rcases Arena.get?_modify_of_get? into (Model.widen t) live with kept | widened
      · exact ⟨e, kept, .refl _ e⟩
      · exact ⟨_, widened, Model.widen_endures t e _⟩
    case coverage =>
      intro d hd
      simp only [OrderedMap.get?_insert]
      split
      · next same =>
        rw [same, hd] at covered
        cases covered
        exact ⟨_, rfl, Coverage.within_merge_left _ _⟩
      · exact ⟨d, hd, .refl d⟩
    case origin =>
      rcases Arena.of_get?_modify live with ⟨-, old⟩ | ⟨-, e, he, -⟩
      · exact .inl ⟨_, old, not_false⟩
      · exact .inl ⟨e, he, not_false⟩

theorem retains (h : g.Carried t a old c g') {id : TransitionId} {e : Transition}
    (live : g.transitions.get? id = some e) : g.Retains g' id e :=
  (h.frames.stays live not_false).retains

theorem origin (h : g.Carried t a old c g') {id : TransitionId} {e' : Transition}
    (live : g'.transitions.get? id = some e') :
    (∃ e, g.transitions.get? id = some e ∧ e'.unguarded = e.unguarded) ∨
      e' = Model.transferred t a old := by
  cases h with
  | folded =>
    rcases Arena.of_get?_modify live with ⟨-, old⟩ | ⟨-, e, he, rfl⟩
    · exact .inl ⟨e', old, rfl⟩
    · exact .inl ⟨e, he, Model.unguarded_widen t e⟩
  | copied =>
    rcases of_get?_withEdge live with old | ⟨-, new⟩
    · exact .inl ⟨e', old, rfl⟩
    · exact .inr new.symm

theorem carrier (h : g.Carried t a old c g') (consistent : g.Consistent) :
    ∃ id e, g'.transitions.get? id = some e ∧ g'.Carries id t.source a e.dest c ∧
      (e.dest = t.dest ∨ t.isIncoming = false ∧ e.isExercisedIn .running = true) := by
  cases h with
  | @folded id e st before source listed live action absorbs covered =>
    obtain ⟨e₁, live₁, hs⟩ := (consistent.listed source id).1 listed
    cases live.symm.trans live₁
    have same := Model.widen_endures t e False
    have widened : (g.transitions.modify id (Model.widen t)).get? id = some (Model.widen t e) := by
      simp [Arena.get?_modify, live]
    refine ⟨id, Model.widen t e, widened, ⟨⟨_, widened, ?_, ?_, rfl⟩, before.merge c, ?_, ?_⟩, ?_⟩
    · exact same.source.trans hs
    · exact same.action.trans action
    · simp [OrderedMap.get?_insert]
    · exact Coverage.within_merge_right _ _
    · rw [same.dest, same.isExercisedIn]
      simp only [Model.canAbsorb, Bool.and_eq_true, Bool.or_eq_true, decide_eq_true_eq,
        Bool.not_eq_true'] at absorbs
      exact absorbs.2
  | copied =>
    have made : (g.withEdge (Model.transferred t a old) c).transitions.get? g.transitions.next =
        some (Model.transferred t a old) := by
      rw [get?_withEdge, if_pos rfl]
    refine ⟨_, _, made, ⟨⟨_, made, rfl, rfl, rfl⟩, c, ?_, .refl c⟩, .inl rfl⟩
    exact (OrderedMap.get?_insert ..).trans (if_pos rfl)

end Carried

end Graph

namespace Session

variable {s s' : Session}

theorem transferEdge_cases {t : Transfer} {old : Transition} {c : Coverage} {a : ActionId}
    (ok : s.transferEdge t old c a = .ok s') :
    (s.model.mergeTarget t a = .ok none ∧ s.model.graph.states.contains t.source = true ∧
      s.model.graph.states.contains t.dest = true ∧
      s' = {
        model := { s.model with
          graph := s.model.graph.withEdge (Model.transferred t a old) c }
        ledger := { s.ledger with
          tally := { s.ledger.tally with copied := s.ledger.tally.copied + 1 } } }) ∨
    ∃ id before, s.model.mergeTarget t a = .ok (some id) ∧
      s.model.graph.coverages.get? id = some before ∧
      s' = {
        model := { s.model with
          graph := { s.model.graph with
            transitions := s.model.graph.transitions.modify id (Model.widen t)
            coverages := s.model.graph.coverages.insert id (before.merge c) } }
        ledger := { s.ledger with
          tally := { s.ledger.tally with merged := s.ledger.tally.merged + 1 } } } := by
  obtain ⟨target, found, ok⟩ := Checked.bind_eq_ok.1 ok
  cases target with
  | none =>
    obtain ⟨⟨id, m⟩, added, ok⟩ := Checked.bind_eq_ok.1 ok
    cases ok
    obtain ⟨⟨id, g⟩, grown, done⟩ := Checked.bind_eq_ok.1 added
    cases done
    obtain ⟨source, dest, -, rfl⟩ := Graph.addTransition_eq_ok.1 grown
    exact .inl ⟨found, source, dest, rfl⟩
  | some into =>
    obtain ⟨m, merged, ok⟩ := Checked.bind_eq_ok.1 ok
    cases ok
    obtain ⟨g₁, covered, merged⟩ := Checked.bind_eq_ok.1 merged
    obtain ⟨g₂, widened, done⟩ := Checked.bind_eq_ok.1 merged
    cases done
    obtain ⟨before, entry, rfl⟩ := Graph.mergeCoverage_eq_ok.1 covered
    obtain ⟨-, rfl⟩ := Graph.updateTransition_eq_ok.1 widened
    exact .inr ⟨into, before, found, entry, rfl⟩

theorem transferEdge_eq_ok {t : Transfer} {old : Transition} {c : Coverage} {a : ActionId}
    (ok : s.transferEdge t old c a = .ok s') :
    ∃ g, s.model.graph.Carried t a old c g ∧ s'.model = { s.model with graph := g } ∧
      s'.ledger.book = s.ledger.book ∧ s'.ledger.inputImages = s.ledger.inputImages := by
  obtain ⟨-, source, dest, rfl⟩ | ⟨into, before, found, covered, rfl⟩ := transferEdge_cases ok
  · exact ⟨_, .copied source dest, rfl, rfl, rfl⟩
  · obtain ⟨ids, outgoing, found⟩ := Checked.bind_eq_ok.1 found
    obtain ⟨mem, test⟩ := findChecked_eq_some found
    obtain ⟨st, e, source, listed, live, action⟩ := (Graph.mem_outgoingBy outgoing).1 mem
    obtain ⟨e₁, live₁, absorbs⟩ := Arena.get_bind_eq_ok.1 test
    cases live.symm.trans live₁
    exact ⟨_, .folded source listed live action (pure_eq_ok.1 absorbs) covered, rfl, rfl, rfl⟩

theorem transferAction_kept {t : Transfer} {old : Transition} {a a' : ActionId}
    (ok : s.transferAction t old = .ok (a', s')) (kept : t.action = .kept a) : a' = a := by
  obtain ⟨m₁, m₂, m₃, resolved, -⟩ := transferAction_eq_ok ok
  rw [kept] at resolved
  cases resolved
  rfl

theorem applyTransfer_eq_ok {t : Transfer} (ok : s.applyTransfer t = .ok s') :
    ∃ old a s₁ g, s.model.graph.transitions.get? t.baseEdge = some old ∧
      s.transferAction t old = .ok (a, s₁) ∧
      s.model.graph.Carried t a old ((s.model.graph.coverage? t.baseEdge).getD ∅) g ∧
      s'.model = { s₁.model with
        graph := if t.isIncoming then g.withoutEdge t.baseEdge old.source else g } ∧
      s'.ledger.book = s.ledger.book ∧ s'.ledger.inputImages = s₁.ledger.inputImages := by
  obtain ⟨old, live, ok⟩ := Arena.get_bind_eq_ok.1 ok
  obtain ⟨⟨a, s₁⟩, action, ok⟩ := Checked.bind_eq_ok.1 ok
  obtain ⟨s₂, carried, ok⟩ := Checked.bind_eq_ok.1 ok
  have aside := transferAction_aside action
  obtain ⟨g, carried, model, book, images⟩ := transferEdge_eq_ok carried
  rw [aside.model.graph] at carried
  refine ⟨old, a, s₁, g, live, action, carried, ?_⟩
  cases incoming : t.isIncoming with
  | false =>
    simp only [incoming] at ok
    cases ok
    exact ⟨model, book.trans aside.book, images⟩
  | true =>
    simp only [incoming] at ok
    obtain ⟨⟨gone, g'⟩, removed, done⟩ := Checked.bind_eq_ok.1 ok
    cases done
    rw [model] at removed
    obtain ⟨e', he', same⟩ := (carried.retains live).edge
    obtain ⟨-, ⟨vacant, -⟩ | ⟨e, he, rfl⟩⟩ := Graph.removeTransition_eq_ok removed
    · rw [he'] at vacant
      cases vacant
    · cases he'.symm.trans he
      refine ⟨?_, book.trans aside.book, images⟩
      rw [model, Transition.source_eq same]
      rfl

variable {t : Transfer}

theorem applyTransfer_keeps (ok : s.applyTransfer t = .ok s') : s.Keeps s' := by
  obtain ⟨old, a, s₁, g, -, action, carried, model, book, -⟩ := applyTransfer_eq_ok ok
  have aside := (transferAction_aside action).model
  refine ⟨?_, book⟩
  rw [model]
  refine aside.toKeeps.trans (.ofGraph ?_)
  rw [aside.graph]
  split
  · exact carried.sameStates.trans (Graph.withoutEdge_sameStates _ _)
  · exact carried.sameStates

theorem applyTransfer_consistent (consistent : s.model.graph.Consistent)
    (ok : s.applyTransfer t = .ok s') : s'.model.graph.Consistent := by
  obtain ⟨old, a, s₁, g, live, -, carried, model, -, -⟩ := applyTransfer_eq_ok ok
  rw [model]
  have after := carried.consistent consistent
  split
  · obtain ⟨e, he, same⟩ := (carried.retains live).edge
    rw [← Transition.source_eq same]
    exact after.withoutEdge he
  · exact after

theorem applyAll_consistent {plan : List Transfer} (consistent : s.model.graph.Consistent)
    (ok : s.applyAll plan = .ok s') : s'.model.graph.Consistent :=
  foldChecked_induct (fun s => s.model.graph.Consistent) ok consistent
    fun _ _ _ _ consistent ok => applyTransfer_consistent consistent ok

theorem applyTransfer_frames {silenced : StateId → ActionId → Prop}
    (ok : s.applyTransfer t = .ok s') : s.model.graph.Frames s'.model.graph t.Takes silenced := by
  obtain ⟨old, a, s₁, g, -, -, carried, model, -, -⟩ := applyTransfer_eq_ok ok
  rw [model]
  cases incoming : t.isIncoming with
  | true =>
    refine (carried.frames.trans (Graph.withoutEdge_frames t.baseEdge old.source)).congr ?_
    intro id e _
    simp [Transfer.Takes, incoming]
  | false =>
    refine carried.frames.congr ?_
    intro id e _
    simp [Transfer.Takes, incoming]

theorem applyTransfer_retains (ok : s.applyTransfer t = .ok s') {id : TransitionId} {e : Transition}
    (live : s.model.graph.transitions.get? id = some e)
    (stays : t.isIncoming = true → t.baseEdge ≠ id) :
    s.model.graph.Retains s'.model.graph id e :=
  ((applyTransfer_frames ok).stays live fun takes => stays takes.1 takes.2).retains

theorem applyTransfer_origin (ok : s.applyTransfer t = .ok s') {id : TransitionId} {e' : Transition}
    (live : s'.model.graph.transitions.get? id = some e') :
    (t.isIncoming = true → t.baseEdge ≠ id) ∧
      ((∃ e, s.model.graph.transitions.get? id = some e ∧ e'.unguarded = e.unguarded) ∨
        e'.source = t.source ∧ e'.dest = t.dest) := by
  obtain ⟨old, a, s₁, g, -, -, carried, model, -, -⟩ := applyTransfer_eq_ok ok
  rw [model] at live
  have before : (t.isIncoming = true → t.baseEdge ≠ id) ∧ g.transitions.get? id = some e' := by
    split at live
    · obtain ⟨live, other⟩ := Graph.of_get?_withoutEdge live
      exact ⟨fun _ => other, live⟩
    · next outgoing => exact ⟨fun incoming => absurd incoming outgoing, live⟩
  refine ⟨before.1, ?_⟩
  rcases carried.origin before.2 with old | rfl
  · exact .inl old
  · exact .inr ⟨rfl, rfl⟩

theorem applyTransfer_carrier (consistent : s.model.graph.Consistent)
    (ok : s.applyTransfer t = .ok s') (incoming : t.isIncoming = true) {a : ActionId}
    (action : t.action = .kept a) {e : Transition} {c : Coverage}
    (live : s.model.graph.transitions.get? t.baseEdge = some e) (elsewhere : e.dest ≠ t.dest)
    (covered : s.model.graph.coverages.get? t.baseEdge = some c) :
    ∃ id, s'.model.graph.Carries id t.source a t.dest c := by
  obtain ⟨old, a', s₁, g, live', prepared, carried, model, -, -⟩ := applyTransfer_eq_ok ok
  cases live.symm.trans live'
  have same : (s.model.graph.coverage? t.baseEdge).getD ∅ = c := by
    rw [Graph.coverage?, covered, Option.getD_some]
  rw [same] at carried
  obtain ⟨id, e', -, carries, into | ⟨outgoing, -⟩⟩ := carried.carrier consistent
  case inr => exact absurd (incoming.symm.trans outgoing) nofun
  rw [transferAction_kept prepared action, into] at carries
  -- the base edge leads elsewhere, so it is not the edge it is folded into
  have other : t.baseEdge ≠ id := by
    rintro rfl
    obtain ⟨e₁, live₁, same⟩ := (carried.retains live).edge
    obtain ⟨e₂, live₂, -, -, dest⟩ := carries.edge
    cases live₁.symm.trans live₂
    exact elsewhere ((Transition.dest_eq same).symm.trans dest)
  rw [model, if_pos incoming]
  exact ⟨id, carries.retained fun e' live' =>
    ((Graph.withoutEdge_frames _ _).stays live' other).retains⟩

end Session

/-- The edges that a plan goes by are there, each planned once. Those of incoming transfers lead
into the base state. -/
structure Graph.Awaits (g : Graph) (base : StateId) (plan : List Transfer) : Prop where
  nodup : (plan.map Transfer.baseEdge).Nodup
  live : ∀ t ∈ plan, ∃ e, g.transitions.get? t.baseEdge = some e ∧
    (t.isIncoming = true → e.source = t.source ∧ t.action = .kept e.action ∧ e.dest = base)

namespace Session

variable {s s' : Session} {base : StateId} {plan : List Transfer}

theorem applyTransfer_awaits {t : Transfer} (awaits : s.model.graph.Awaits base (t :: plan))
    (ok : s.applyTransfer t = .ok s') : s'.model.graph.Awaits base plan := by
  obtain ⟨fresh, nodup⟩ := List.nodup_cons.1 awaits.nodup
  refine ⟨nodup, ?_⟩
  intro u hu
  obtain ⟨e, live, edge⟩ := awaits.live u (by simp [hu])
  have other : t.baseEdge ≠ u.baseEdge := fun same => fresh (same ▸ List.mem_map_of_mem hu)
  obtain ⟨e', live', same⟩ := (applyTransfer_retains ok live fun _ => other).edge
  refine ⟨e', live', ?_⟩
  rw [Transition.source_eq same, Transition.action_eq same, Transition.dest_eq same]
  exact edge

theorem applyAll_keeps (ok : s.applyAll plan = .ok s') : s.Keeps s' :=
  foldChecked_induct s.Keeps ok (.refl s) fun _ _ _ _ h ok => h.trans (applyTransfer_keeps ok)

theorem applyAll_frames {silenced : StateId → ActionId → Prop} (ok : s.applyAll plan = .ok s') :
    s.model.graph.Frames s'.model.graph (fun id => ∃ t ∈ plan, t.Takes id) silenced := by
  induction plan generalizing s with
  | nil =>
    cases ok
    exact (Graph.Frames.refl _).congr fun _ => by simp
  | cons t rest ih =>
    obtain ⟨s₁, first, ok⟩ := Checked.bind_eq_ok.1 ok
    exact ((applyTransfer_frames first).trans (ih ok)).congr fun _ => by simp

theorem applyAll_retains (ok : s.applyAll plan = .ok s') {id : TransitionId} {e : Transition}
    (live : s.model.graph.transitions.get? id = some e)
    (stays : ∀ t ∈ plan, t.isIncoming = true → t.baseEdge ≠ id) :
    s.model.graph.Retains s'.model.graph id e := by
  refine ((applyAll_frames ok).stays live ?_).retains
  rintro ⟨t, mem, incoming, same⟩
  exact stays t mem incoming same

theorem applyAll_origin (ok : s.applyAll plan = .ok s') {id : TransitionId} {e' : Transition}
    (live : s'.model.graph.transitions.get? id = some e') :
    ((∃ e, s.model.graph.transitions.get? id = some e ∧ e'.unguarded = e.unguarded) ∧
      ∀ t ∈ plan, t.isIncoming = true → t.baseEdge ≠ id) ∨
      ∃ t ∈ plan, e'.source = t.source ∧ e'.dest = t.dest := by
  induction plan generalizing s with
  | nil =>
    cases ok
    exact .inl ⟨⟨e', live, rfl⟩, nofun⟩
  | cons t rest ih =>
    obtain ⟨s₁, first, ok⟩ := Checked.bind_eq_ok.1 ok
    obtain ⟨⟨e₁, live₁, same₁⟩, others⟩ | ⟨u, mem, ends⟩ := ih ok
    · obtain ⟨stays, ⟨e, he, same⟩ | ⟨source, dest⟩⟩ := applyTransfer_origin first live₁
      · refine .inl ⟨⟨e, he, same₁.trans same⟩, fun u hu => ?_⟩
        cases hu with
        | head => exact stays
        | tail _ hu => exact others u hu
      · exact .inr ⟨t, by simp, (Transition.source_eq same₁).trans source,
          (Transition.dest_eq same₁).trans dest⟩
    · exact .inr ⟨u, by simp [mem], ends⟩

theorem applyAll_into (elsewhere : ∀ t ∈ plan, t.dest ≠ base) (ok : s.applyAll plan = .ok s')
    {id : TransitionId} {e' : Transition} (live : s'.model.graph.transitions.get? id = some e')
    (into : e'.dest = base) :
    (∃ e, s.model.graph.transitions.get? id = some e ∧ e'.unguarded = e.unguarded) ∧
      ∀ t ∈ plan, t.isIncoming = true → t.baseEdge ≠ id := by
  refine (applyAll_origin ok live).resolve_right ?_
  rintro ⟨t, mem, -, dest⟩
  exact elsewhere t mem (dest.symm.trans into)

theorem applyAll_carries (consistent : s.model.graph.Consistent)
    (awaits : s.model.graph.Awaits base plan) (elsewhere : ∀ t ∈ plan, t.dest ≠ base)
    (ok : s.applyAll plan = .ok s') {t : Transfer} (mem : t ∈ plan) (incoming : t.isIncoming = true)
    {e : Transition} {c : Coverage} (live : s.model.graph.transitions.get? t.baseEdge = some e)
    (covered : s.model.graph.coverages.get? t.baseEdge = some c) :
    ∃ id, s'.model.graph.Carries id e.source e.action t.dest c := by
  induction plan generalizing s e c with
  | nil => cases mem
  | cons u rest ih =>
    obtain ⟨s₁, first, followed⟩ := Checked.bind_eq_ok.1 ok
    have waiting := applyTransfer_awaits awaits first
    cases mem with
    | head =>
      obtain ⟨e₀, live₀, edge⟩ := awaits.live t (by simp)
      cases live.symm.trans live₀
      obtain ⟨source, action, into⟩ := edge incoming
      have apart : e.dest ≠ t.dest := into ▸ (elsewhere t (by simp)).symm
      obtain ⟨id, carries⟩ :=
        applyTransfer_carrier consistent first incoming action live apart covered
      -- the carrier leads elsewhere, while what the others take away leads into the base state
      have stays : ∀ v ∈ rest, v.isIncoming = true → v.baseEdge ≠ id := by
        rintro v hv incoming' rfl
        obtain ⟨e₁, live₁, -, -, dest₁⟩ := carries.edge
        obtain ⟨e₂, live₂, edge₂⟩ := waiting.live v hv
        cases live₁.symm.trans live₂
        exact elsewhere t (by simp) (dest₁.symm.trans (edge₂ incoming').2.2)
      rw [source]
      exact ⟨id, carries.retained fun e₁ live₁ => applyAll_retains followed live₁ stays⟩
    | tail _ mem =>
      obtain ⟨fresh, -⟩ := List.nodup_cons.1 awaits.nodup
      have other : u.baseEdge ≠ t.baseEdge := fun same => fresh (same ▸ List.mem_map_of_mem mem)
      obtain ⟨⟨e₁, live₁, same⟩, coverage⟩ := applyTransfer_retains first live fun _ => other
      obtain ⟨d, hd, within⟩ := coverage c covered
      obtain ⟨id, carries⟩ := ih (applyTransfer_consistent consistent first) waiting
        (fun v hv => elsewhere v (by simp [hv])) followed mem live₁ hd
      rw [Transition.source_eq same, Transition.action_eq same] at carries
      exact ⟨id, carries.mono within⟩

end Session

end ScreenGraph
