import ScreenGraph.Proofs.Migrating

/-!
What a check does to the edges of the graph. It takes away stale guesses about the observed edge,
and those edges into a recognised base state that move. Every other edge stays what it was, save
that it may be silenced, its coverage may grow and, if it was inferred, its guard may be widened.
All that comes is inferred.
-/

namespace ScreenGraph

namespace Session

variable {s s' : Session} {o : Observation} {g : Sighting} {k b : StateId}

/-- The edges that the registration of a pair takes away. For a pair that is entered already there
are none. -/
def Redirects (s : Session) (k b : StateId) (e : Transition) : Prop :=
  s.ledger.isRecognised k b = false ∧ e.dest = b ∧
    Moves { s with ledger := s.ledger.recognise k b } b e

theorem Redirects.base {e : Transition} (h : s.Redirects k b e) : e.version = .base := h.2.2.1.1

theorem redirects_congr (states : s.model.graph.SameStates s'.model.graph)
    (equivalents : s'.ledger.equivalents = s.ledger.equivalents)
    (images : s'.ledger.images = s.ledger.images)
    (observed : s'.ledger.observedBase = s.ledger.observedBase) :
    s'.Redirects k = s.Redirects k := by
  funext b e
  have moves : Moves { s' with ledger := s'.ledger.recognise k b } b =
      Moves { s with ledger := s.ledger.recognise k b } b :=
    moves_congr states (congrArg (OrderedMap.addTo · b k) images) observed
  unfold Redirects Ledger.isRecognised Ledger.equivalentsOf
  rw [moves, equivalents]

theorem Keeps.redirects (h : s.Keeps s') : s'.Redirects k = s.Redirects k :=
  redirects_congr h.model.states (congrArg Ledger.equivalents h.book :)
    (congrArg Ledger.images h.book :) (congrArg Ledger.observedBase h.book :)

theorem Passed.redirects (h : Passed g s s') : s'.Redirects k = s.Redirects k := by
  have states := h.aside.states
  rcases h.2 with same | same
  · exact redirects_congr states (by rw [same]) (by rw [same]) (by rw [same])
  · exact redirects_congr states (by rw [same]; rfl) (by rw [same]; rfl) (by rw [same]; rfl)

/-- What the plan for a new pair does. The edges that it takes away are those that move, and each of
its transfers moves one of them or makes an edge out of the observed state. -/
structure Arranges (s : Session) (k b : StateId) (plan : List Transfer) : Prop where
  takes : ∀ {id e}, s.model.graph.transitions.get? id = some e →
    ((∃ t ∈ plan, t.Takes id) ↔ s.Redirects k b e)
  made : ∀ t ∈ plan, t.source = k ∨ t.dest = k ∧ ∃ e,
    s.model.graph.transitions.get? t.baseEdge = some e ∧ s.Redirects k b e ∧
      t.source = e.source ∧ t.action = .kept e.action

theorem enter_arranges (consistent : s.model.graph.Consistent)
    (fresh : s.ledger.isRecognised k b = false) {n : SnapshotId} {x : Matching}
    {plan : List Transfer} {planned : Session}
    (entered : enter { s with ledger := s.ledger.markSnapshot n b } k b x = .ok (plan, planned)) :
    planned.model.graph = s.model.graph ∧ s.Arranges k b plan := by
  obtain ⟨s₁, migrated, made⟩ := Checked.bind_eq_ok.1 entered
  have before := migrateInputs_aside migrated
  have graph : s₁.model.graph = s.model.graph := before.model.graph
  have moves : s₁.Moves b = Moves { s with ledger := s.ledger.recognise k b } b :=
    moves_congr (s := { s with ledger := s.ledger.recognise k b }) before.model.states
      (congrArg Ledger.images before.book :) (congrArg Ledger.observedBase before.book :)
  refine ⟨(enter_aside entered).model.graph, fun {id e} live => ?_, fun t mem => ?_⟩
  · rw [plan_takes (graph ▸ consistent) made (graph ▸ live), moves]
    exact (and_iff_right fresh).symm
  · obtain ⟨e, ⟨into, planned⟩ | ⟨-, so, -, planned⟩⟩ := mem_plan (graph ▸ consistent) made mem
    · refine .inr ⟨planned.dest, e, graph ▸ planned.edge, ⟨fresh, into, ?_⟩, planned.source,
        planned.action⟩
      rw [← moves]
      exact ⟨planned.migrates, planned.resolves⟩
    · exact .inl planned.source

theorem register_frames {silenced : StateId → ActionId → Prop}
    (consistent : s.model.graph.Consistent) {n : SnapshotId} {x : Matching}
    (ok : s.register k b n x = .ok s') :
    s.model.graph.Frames s'.model.graph
      (fun id => ∃ e, s.model.graph.transitions.get? id = some e ∧ s.Redirects k b e) silenced := by
  obtain ⟨entered, rfl⟩ | ⟨fresh, plan, planned, entered, applied⟩ := register_cases ok
  · refine (Graph.Frames.refl _).none fun _ => ?_
    rintro ⟨e, -, fresh, -⟩
    exact absurd (entered.symm.trans fresh) nofun
  obtain ⟨graph, arranges⟩ := enter_arranges consistent fresh entered
  have frames : planned.model.graph.Frames _ _ silenced := applyAll_frames applied
  rw [graph] at frames
  refine frames.congr fun {id e} live => ?_
  rw [arranges.takes live]
  constructor
  · exact fun redirects => ⟨e, live, redirects⟩
  · rintro ⟨e', live', redirects⟩
    cases live.symm.trans live'
    exact redirects

theorem register_consistent (consistent : s.model.graph.Consistent) {n : SnapshotId} {x : Matching}
    (ok : s.register k b n x = .ok s') : s'.model.graph.Consistent := by
  obtain ⟨-, rfl⟩ | ⟨fresh, plan, planned, entered, applied⟩ := register_cases ok
  · exact consistent
  · have same := (enter_arranges consistent fresh entered).1
    exact applyAll_consistent (same ▸ consistent) applied

theorem Answers.consistent {c : Classification} (answers : s.Answers g c s')
    (consistent : s.model.graph.Consistent) : s'.model.graph.Consistent := by
  obtain ⟨⟨_, same⟩, -, -⟩ | ⟨b, r, x, mid, after, -, found, registered, model, -⟩ :=
    answers.registers
  · rw [same]
    exact consistent
  · rw [model]
    exact register_consistent (found.passed.aside.graph ▸ consistent) registered

theorem Answers.frames {silenced : StateId → ActionId → Prop} {c : Classification}
    (answers : s.Answers g c s') (consistent : s.model.graph.Consistent) :
    s.model.graph.Frames s'.model.graph (fun id => ∃ e b r,
      s.model.graph.transitions.get? id = some e ∧ c = .equivalent b r ∧
        s.Redirects g.state b e) silenced := by
  obtain ⟨⟨_, same⟩, -, other⟩ | ⟨b, r, x, mid, after, rfl, found, registered, model, -⟩ :=
    answers.registers
  · rw [same]
    refine (Graph.Frames.refl _).none fun _ => ?_
    rintro ⟨e, b, r, -, answer, -⟩
    exact other b r answer
  · have graph := found.passed.aside.graph
    have frames : mid.model.graph.Frames _ _ silenced :=
      register_frames (graph ▸ consistent) registered
    rw [graph, found.passed.redirects] at frames
    rw [model]
    refine frames.congr fun {id e} _ => ⟨?_, ?_⟩
    · rintro ⟨e, live, redirects⟩
      exact ⟨e, b, r, live, rfl, redirects⟩
    · rintro ⟨e, _, _, live, ⟨⟩, redirects⟩
      exact ⟨e, live, redirects⟩

def noting (s : Session) (o : Observation) : Session :=
  { s with model := (s.model.attachSnapshot o.state o.snapshot).2 }

/-- The edges that a check with this outcome takes away. -/
inductive Drops (s : Session) (o : Observation) :
    Except Refusal Classification → TransitionId → Prop
  | pruned {c ids id} (decided : c ≠ .ignored)
      (obsolete : (s.noting o).model.graph.obsolete o.transition
        (s.ledger.predecessors o.previous) = .ok ids)
      (mem : id ∈ ids) : Drops s o (.ok c) id
  | redirected {b r id e} (live : s.model.graph.transitions.get? id = some e)
      (redirects : (s.noting o).Redirects o.state b e) : Drops s o (.ok (.equivalent b r)) id

theorem noting_eq (s : Session) (o : Observation) : ∃ states,
    s.noting o = { s with model :=
      { s.model with graph := { s.model.graph with states } } } := by
  unfold noting Model.attachSnapshot
  split
  · exact ⟨_, rfl⟩
  split <;> exact ⟨_, rfl⟩

theorem noting_transitions (s : Session) (o : Observation) :
    (s.noting o).model.graph.transitions = s.model.graph.transitions :=
  attachSnapshot_transitions s.model o.state o.snapshot

theorem noting_consistent (consistent : s.model.graph.Consistent) (o : Observation) :
    (s.noting o).model.graph.Consistent := by
  unfold noting Model.attachSnapshot
  split
  · exact consistent
  split
  · exact consistent
  · exact consistent.modifyState fun _ => rfl

theorem noting_frames {silenced : StateId → ActionId → Prop} (s : Session) (o : Observation) :
    s.model.graph.Frames (s.noting o).model.graph (fun _ => False) silenced := by
  obtain ⟨states, noted⟩ := s.noting_eq o
  rw [noted]
  exact .of_eq rfl rfl rfl

theorem sight_keeps {seen : Option Sighting} (ok : s.sight o = .ok (seen, s')) :
    (s.noting o).Keeps s' := by
  obtain ⟨-, -, -, -, ⟨-, rfl⟩ | ⟨keys, s₁, pruned, superseded, -⟩⟩ := sight_eq_ok ok
  · exact .refl _
  · exact (pruneObsolete_keeps pruned).trans (supersede_keeps superseded)

theorem sight_steps (consistent : s.model.graph.Consistent)
    (ok : s.sight o = .ok (some g, s')) :
    g.transition = o.transition ∧ ∃ ids between,
      (s.noting o).model.graph.obsolete o.transition (s.ledger.predecessors o.previous) = .ok ids ∧
      (s.noting o).model.graph.prune ids = .ok (g.pruned, between) ∧
      between.supersede o.transition = .ok s'.model.graph ∧ between.Consistent ∧
      between.transitions.get? o.transition = s.model.graph.transitions.get? o.transition ∧
      s' = { model := { (s.noting o).model with graph := s'.model.graph },
             ledger := { s.ledger with tally :=
               { s.ledger.tally with pruned := s.ledger.tally.pruned + g.pruned.length } } } := by
  obtain ⟨-, -, -, -, ⟨⟨⟩, -⟩ | ⟨keys, s₁, pruned, superseded, ⟨⟩⟩⟩ := sight_eq_ok ok
  obtain ⟨ids, between, obsolete, removed, rfl⟩ := pruneObsolete_eq_ok pruned
  obtain ⟨after, deactivated, rfl⟩ := supersede_eq_ok superseded
  refine ⟨rfl, ids, between, obsolete, removed, deactivated,
    (noting_consistent consistent o).prune removed, ?_, rfl⟩
  have kept : o.transition ∉ ids := fun mem => Graph.mem_obsolete obsolete mem rfl
  rw [Graph.prune_get? removed, if_neg kept]
  exact congrArg (Arena.get? · o.transition) (s.noting_transitions o)

theorem sight_frames (consistent : s.model.graph.Consistent)
    (ok : s.sight o = .ok (some g, s')) :
    (s.noting o).Keeps s' ∧
      ∃ ids, (s.noting o).model.graph.obsolete o.transition (s.ledger.predecessors o.previous) =
          .ok ids ∧
        (∀ {id e'}, s'.model.graph.transitions.get? id = some e' → id ∉ ids ∧
          ∃ e, s.model.graph.transitions.get? id = some e ∧
            e' = { e with isActive := e'.isActive }) ∧
        s.model.graph.Frames s'.model.graph (· ∈ ids) (s.model.graph.Leaves o.transition) := by
  obtain ⟨-, ids, between, obsolete, removed, superseded, pruned, same, -⟩ :=
    sight_steps consistent ok
  refine ⟨sight_keeps ok, ids, obsolete, ?_, ?_⟩
  · intro id e' live
    obtain ⟨ks, deactivated⟩ := Graph.supersede_eq_ok superseded
    obtain ⟨e, live, change⟩ := Graph.deactivateAll_edge deactivated live
    rw [Graph.prune_get? removed, noting_transitions] at live
    split at live
    · cases live
    · next kept => exact ⟨kept, e, live, change⟩
  · have quiet := pruned.supersede_frames superseded
    rw [Graph.leaves_congr same] at quiet
    refine (((noting_frames s o).trans (Graph.prune_frames removed)).trans quiet).congr ?_
    simp

theorem sight_consistent (consistent : s.model.graph.Consistent)
    (ok : s.sight o = .ok (some g, s')) : s'.model.graph.Consistent := by
  obtain ⟨-, -, between, -, -, superseded, pruned, -⟩ := sight_steps consistent ok
  obtain ⟨ids, deactivated⟩ := Graph.supersede_eq_ok superseded
  exact pruned.deactivateAll deactivated

theorem Answers.decided {c : Classification} (answers : s.Answers g c s') : c ≠ .ignored := by
  cases answers <;> exact nofun

theorem check_consistent (consistent : s.model.graph.Consistent)
    {c : Except Refusal Classification} (ok : s.check o = .ok (c, s')) :
    s'.model.graph.Consistent := by
  obtain ⟨r, -, rfl, rfl⟩ | ⟨-, sighted, rfl⟩ | ⟨-, g, s₁, k, sighted, classified, rfl⟩ :=
    check_eq_ok ok
  · exact consistent
  · obtain ⟨e, a, -, -, ⟨-, rfl⟩ | ⟨-, -, -, -, ⟨⟩⟩⟩ := sight_eq_ok sighted
    exact noting_consistent consistent o
  · exact (classify_cases classified).consistent (sight_consistent consistent sighted)

theorem check_frames (consistent : s.model.graph.Consistent) {c : Except Refusal Classification}
    (ok : s.check o = .ok (c, s')) : s.model.graph.Frames s'.model.graph (s.Drops o c)
      (s.model.graph.Leaves o.transition) := by
  obtain ⟨r, -, rfl, rfl⟩ | ⟨-, sighted, rfl⟩ | ⟨live, g, s₁, k, sighted, classified, rfl⟩ :=
    check_eq_ok ok
  · refine (Graph.Frames.refl _).none fun _ => ?_
    rintro ⟨⟩
  · obtain ⟨e, a, -, -, ⟨-, rfl⟩ | ⟨-, -, -, -, ⟨⟩⟩⟩ := sight_eq_ok sighted
    refine (noting_frames s o).none fun _ => ?_
    rintro ⟨decided, -, -⟩
    exact decided rfl
  have answers := classify_cases classified
  obtain ⟨keeps, ids, obsolete, before, frames⟩ := sight_frames consistent sighted
  have state := ((sight_book sighted).2 g rfl).2
  have after : s₁.model.graph.Frames _ _ (s.model.graph.Leaves o.transition) :=
    answers.frames (sight_consistent consistent sighted)
  rw [state, keeps.redirects] at after
  refine (frames.trans after).congr fun {id e} live => ⟨?_, ?_⟩
  · rintro (mem | ⟨e', b, r, live', rfl, redirects⟩)
    · exact .pruned answers.decided obsolete mem
    · obtain ⟨-, e, live, change⟩ := before live'
      rw [change] at redirects
      exact .redirected live redirects
  · rintro (⟨-, again, mem⟩ | ⟨live, redirects⟩)
    · cases obsolete.symm.trans again
      exact .inl mem
    · by_cases mem : id ∈ ids
      · exact .inl mem
      obtain ⟨e', live', -⟩ := (frames.stays live mem).edge
      obtain ⟨-, e₁, live₁, change⟩ := before live'
      cases live.symm.trans live₁
      refine .inr ⟨e', _, _, live', rfl, ?_⟩
      rw [change]
      exact redirects

/-- A check makes no evidence up and rewrites no edge that was observed. The edges that it takes
away are known, every other one endures, and those that come are inferred. -/
theorem Used.check_preserves (used : s.Used) (wf : s.model.WellFormed) (o : Observation) :
    ∃ c s', s.check o = .ok (c, s') ∧ s.model.graph.Frames s'.model.graph (s.Drops o c)
      (s.model.graph.Leaves o.transition) := by
  have sound := used.sound wf
  obtain ⟨c, s', checked⟩ := sound.check_goes o
  exact ⟨c, s', checked, check_frames sound.model.graph checked⟩

theorem check_preserves_launched : ∃ c s' e,
    check { model := .launched } ⟨⟨0⟩, ⟨2⟩, ⟨1⟩, none⟩ = .ok (c, s') ∧
      s'.model.graph.transitions.get? ⟨2⟩ = some e ∧ s'.model.graph.Infers ⟨2⟩ e := by
  obtain ⟨c, s', checked, frames⟩ := (Used.start .launched).check_preserves
    built_launched.sound.model ⟨⟨0⟩, ⟨2⟩, ⟨1⟩, none⟩
  have made : ((check { model := .launched } ⟨⟨0⟩, ⟨2⟩, ⟨1⟩, none⟩).toOption.map
      fun r => r.2.model.graph.transitions.contains ⟨2⟩) = some true := by decide +kernel
  rw [checked] at made
  obtain ⟨e, live⟩ := Arena.contains_iff.1 (Option.some.inj made)
  refine ⟨c, s', e, checked, live, ?_⟩
  exact (frames.origin live).resolve_left nofun

/-- An edge that was taken in the running version stays in a check, unless it leads into the base
state that is recognised and moves. No such edge is pruned. -/
theorem Used.check_keeps_exercised (used : s.Used) (wf : s.model.WellFormed) (o : Observation) :
    ∃ c s', s.check o = .ok (c, s') ∧ ∀ id e, s.model.graph.transitions.get? id = some e →
      e.isExercisedIn .running = true →
      ((∃ e', s'.model.graph.transitions.get? id = some e' ∧ e'.key = e.key ∧
          e'.interactions = e.interactions) ↔
        ¬ ∃ b r, c = .ok (.equivalent b r) ∧ (s.noting o).Redirects o.state b e) := by
  have sound := used.sound wf
  obtain ⟨c, s', checked⟩ := sound.check_goes o
  have frames := check_frames sound.model.graph checked
  refine ⟨c, s', checked, fun id e live exercised => ⟨?_, ?_⟩⟩
  · rintro ⟨e', live', -, same⟩ ⟨b, r, rfl, redirects⟩
    rcases frames.origin live' with ⟨-, -, stays⟩ | new
    · exact stays (.redirected live redirects)
    · -- an edge that came has not been taken
      have unexercised := new.unexercised .running
      rw [Transition.isExercisedIn, same] at unexercised
      cases exercised.symm.trans unexercised
  · intro stays
    have kept : ¬ s.Drops o c id := by
      rintro (⟨-, obsolete, mem⟩ | ⟨live', redirects⟩)
      · have stale := (noting_consistent sound.model.graph o).obsolete_edge obsolete mem
          (s.noting_transitions o ▸ live)
        cases exercised.symm.trans stale.2.2
      · cases live.symm.trans live'
        exact stays ⟨_, _, rfl, redirects⟩
    obtain ⟨e', live', endures⟩ := (frames.stays live kept).edge
    refine ⟨e', live', ?_, endures.interactions⟩
    rw [Transition.key, endures.source, endures.action, endures.dest, Transition.key]

end Session

def Model.returned : Model where
  catalog := launched.catalog
  actions := launched.actions
  graph :=
    let take (t : Transition) : Transition :=
      { t with interactions := t.interactions ++ [{ step := 1, version := .running }],
               isActive := true }
    { launched.graph with
      transitions := (launched.graph.transitions.modify ⟨0⟩ take).modify ⟨1⟩ take
      activation := (launched.graph.activation.insert ⟨0⟩ 1).insert ⟨1⟩ 1 }
  snapshots := launched.snapshots

namespace Session

theorem built_returned : Built { model := .returned } := by
  have back := built_launched.edit
    (@Model.Edit.exercise _ .stops ⟨0⟩ { step := 1, version := .running } _ rfl)
  exact back.edit (@Model.Edit.exercise _ .stops ⟨1⟩ { step := 1, version := .running } _ rfl)

theorem check_keeps_exercised_returned : ∃ c s',
    check { model := .returned } ⟨⟨0⟩, ⟨2⟩, ⟨1⟩, none⟩ = .ok (c, s') ∧
    (∃ e', s'.model.graph.transitions.get? ⟨1⟩ = some e' ∧ e'.isExercisedIn .running = true) ∧
    ∃ e, Model.returned.graph.transitions.get? ⟨0⟩ = some e ∧ e.isExercisedIn .running = true ∧
      ¬ ∃ e', s'.model.graph.transitions.get? ⟨0⟩ = some e' ∧ e'.key = e.key ∧
        e'.interactions = e.interactions := by
  obtain ⟨c, s', checked, keeps⟩ := (Used.start .returned).check_keeps_exercised
    built_returned.sound.model ⟨⟨0⟩, ⟨2⟩, ⟨1⟩, none⟩
  have answer : (check { model := .returned } ⟨⟨0⟩, ⟨2⟩, ⟨1⟩, none⟩).toOption.map
      (fun r => r.1.toOption) = some (some (.equivalent ⟨0⟩ .avmMatch)) := by decide +kernel
  rw [checked] at answer
  have answer : c = .ok (.equivalent ⟨0⟩ .avmMatch) := by
    cases c <;> cases Option.some.inj answer
    rfl
  refine ⟨c, s', checked, ?_, _, rfl, rfl, fun stays => ?_⟩
  · obtain ⟨e', live, -, same⟩ := (keeps ⟨1⟩ _ rfl rfl).2 fun ⟨_, _, _, redirects⟩ =>
      absurd redirects.base nofun
    refine ⟨e', live, ?_⟩
    rw [Transition.isExercisedIn, same]
    rfl
  · refine (keeps ⟨0⟩ _ rfl rfl).1 stays ⟨_, _, answer, rfl, rfl, ?_⟩
    exact ⟨⟨rfl, by decide, OrderedSet.not_mem_empty _⟩, .inl rfl⟩

/-- An edge that was taken in the running version does not outlast every check. -/
theorem exercised_lost_returned : ¬ ∀ s o c s', Used s → s.model.WellFormed →
    s.check o = .ok (c, s') → ∀ id e, s.model.graph.transitions.get? id = some e →
    e.isExercisedIn .running = true →
    ∃ e', s'.model.graph.transitions.get? id = some e' ∧ e'.key = e.key ∧
      e'.isExercisedIn .running = true := by
  intro outlasts
  obtain ⟨c, s', checked⟩ := built_returned.sound.check_goes ⟨⟨0⟩, ⟨2⟩, ⟨1⟩, none⟩
  have gone : ((check { model := .returned } ⟨⟨0⟩, ⟨2⟩, ⟨1⟩, none⟩).toOption.map
      fun r => r.2.model.graph.transitions.contains ⟨0⟩) = some false := by decide +kernel
  rw [checked] at gone
  obtain ⟨e', live, -⟩ := outlasts _ _ c s' (.start .returned) built_returned.sound.model checked
    ⟨0⟩ _ rfl rfl
  exact absurd ((Arena.contains_of_get? live).symm.trans (Option.some.inj gone)) nofun

end Session

end ScreenGraph
