import ScreenGraph.Proofs.Bookkeeping

/-!
The first registration of a pair moves what leads into the base state over to the observed one. Of
the edges that migrate nothing is lost: each has a successor with the same source and action, which
covers what it covered, although successors are folded into one another while the originals go.
-/

namespace ScreenGraph

structure Ledger.Traces (l : Ledger) (m : Model) : Prop extends Ledger.Known l m where
  running : ∀ {b i st}, i ∈ l.imagesOf b → m.graph.states.get? i = some st → st.version = .running

namespace Ledger.Traces

variable {l l' : Ledger} {m m' : Model}

theorem grows (h : l.Traces m) (grows : m.Grows m')
    (inputs : ∀ {i}, m.catalog.inputs.contains i = true → m'.catalog.inputs.contains i = true) :
    l.Traces m' where
  image hi := grows.contains (h.image hi)
  base hb := grows.contains (h.base hb)
  input hj := inputs (h.input hj)
  running hi live' := by
    obtain ⟨st, live⟩ := Arena.contains_iff.1 (h.image hi)
    obtain ⟨st', after, persists⟩ := grows.state live
    cases live'.symm.trans after
    exact persists.version.trans (h.running hi live)

theorem keeps (h : l.Traces m) (k : m.Keeps m') : l.Traces m' :=
  h.grows k.grows fun live => (k.inputs _).trans live

theorem book (h : l.Traces m) (same : l'.book = l.book)
    (input : ∀ {i j}, l'.inputImages.get? i = some j → m.catalog.inputs.contains j = true) :
    l'.Traces m where
  toKnown := h.toKnown.book same input
  running {b i st} hi := by
    have images : l'.images = l.images := (congrArg Ledger.images same :)
    rw [Ledger.imagesOf, images] at hi
    exact h.running hi

theorem recognise (h : l.Traces m) {o b : StateId} {st : State}
    (live : m.graph.states.get? o = some st) (running : st.version = .running) :
    (l.recognise o b).Traces m where
  toKnown := h.toKnown.recognise (Arena.contains_of_get? live)
  running hi live' := by
    rcases mem_imagesOf_recognise.1 hi with old | ⟨-, rfl⟩
    · exact h.running old live'
    · cases live.symm.trans live'
      exact running

theorem markSnapshot (h : l.Traces m) {g : SnapshotId} {b : StateId}
    (live : m.graph.states.contains b = true) : (l.markSnapshot g b).Traces m where
  toKnown := h.toKnown.markSnapshot live
  running := h.running

end Ledger.Traces

namespace Session

variable {s s' : Session} {g : Sighting} {o : Observation}

theorem migrateInput_traces (h : s.ledger.Traces s.model) {w : WindowId} {matching : Matching}
    {i : InputId} (ok : migrateInput w matching s i = .ok s') : s'.ledger.Traces s'.model := by
  have kept := h.keeps (migrateInput_aside ok).keeps.model
  obtain ⟨-, rfl⟩ | ⟨-, rfl | ⟨x, j, y, -, -, live, rfl⟩⟩ := migrateInput_cases ok
  · exact h
  · exact h.book rfl h.input
  · refine kept.book rfl fun {k l} found => ?_
    rcases OrderedMap.of_get?_insert found with old | rfl
    · exact kept.input old
    · exact (Arena.contains_modify ..).trans (Arena.contains_of_get? live)

theorem migrateInputs_traces (h : s.ledger.Traces s.model) {k b : StateId} {matching : Matching}
    (ok : s.migrateInputs k b matching = .ok s') : s'.ledger.Traces s'.model :=
  migrateInputs_induct (fun s => s.ledger.Traces s.model) ok h fun traces ok =>
    migrateInput_traces traces ok

theorem enter_traces {k b : StateId} {matching : Matching} {plan : List Transfer}
    (h : (s.ledger.recognise k b).Traces s.model) (ok : s.enter k b matching = .ok (plan, s')) :
    s'.ledger.Traces s'.model := by
  obtain ⟨s₁, migrated, planned⟩ := Checked.bind_eq_ok.1 ok
  obtain ⟨-, -, -, -, -, -, -, -, -, n, rfl⟩ := plan_eq_ok planned
  have traces := migrateInputs_traces h migrated
  exact traces.book rfl traces.input

theorem applyAll_traces {plan : List Transfer} (h : s.ledger.Traces s.model)
    (ok : s.applyAll plan = .ok s') : s'.ledger.Traces s'.model := by
  refine foldChecked_induct (fun s => s.ledger.Traces s.model) ok h ?_
  intro s₁ t _ s₂ traces ok
  have kept := traces.keeps (applyTransfer_keeps ok).model
  obtain ⟨old, a, s₃, g, -, action, -, -, book, images⟩ := applyTransfer_eq_ok ok
  refine kept.book book fun {i j} found => ?_
  rw [images, transferAction_ledger action] at found
  exact kept.input found

theorem register_traces (h : s.ledger.Traces s.model) {k b : StateId} {n : SnapshotId}
    {x : Matching} {st : State} (live : s.model.graph.states.get? k = some st)
    (running : st.version = .running)
    (base : s.model.graph.states.contains b = true) (ok : s.register k b n x = .ok s') :
    s'.ledger.Traces s'.model := by
  have marked := h.markSnapshot (g := n) base
  obtain ⟨-, rfl⟩ | ⟨-, plan, planned, entered, applied⟩ := register_cases ok
  · exact marked
  · exact applyAll_traces (enter_traces (marked.recognise live running) entered) applied

theorem Passed.traces (passed : Passed g s s') (h : s.ledger.Traces s.model) :
    s'.ledger.Traces s'.model := by
  have kept := h.keeps passed.aside.toKeeps
  rcases passed.2 with same | same
  · rw [same]
    exact kept
  · rw [same]
    exact ⟨⟨kept.image, kept.base, kept.input⟩, kept.running⟩

theorem Finds.registers_traces (h : s.ledger.Traces s.model) (undecided : s.Undecided g)
    {b : StateId} {r : Rule} {x : Matching} {mid : Session} (found : s.Finds g b r x mid)
    (registered : mid.register g.state b g.snapshot x = .ok s') : s'.ledger.Traces s'.model := by
  obtain ⟨st, live, -, running⟩ := undecided.state
  have graph := found.passed.aside.graph
  refine register_traces (found.passed.traces h) (graph ▸ live) running ?_ registered
  obtain ⟨passed, seeks, searched⟩ := found
  obtain ⟨mem, compared, -⟩ := search_some searched
  rw [compared.aside.model.contains_state]
  rcases seeks.base mem with ⟨sb, base, -⟩ | cached
  · exact Arena.contains_of_get? base
  · exact ((seeks.passed passed).traces h).base cached

theorem Answers.traces (h : s.ledger.Traces s.model) {c : Classification}
    (answers : s.Answers g c s') : s'.ledger.Traces s'.model := by
  cases answers with
  | homeScreen => exact h
  | knownNew => exact ⟨⟨h.image, h.base, h.input⟩, h.running⟩
  | cached => exact h
  | observedBase => exact ⟨⟨h.image, h.base, h.input⟩, h.running⟩
  | equivalent undecided found registered => exact found.registers_traces h undecided registered
  | reproduces undecided found registered =>
    have traces := found.registers_traces h undecided registered
    exact ⟨⟨traces.image, traces.base, traces.input⟩, traces.running⟩
  | new undecided passed =>
    have traces := passed.traces h
    exact ⟨⟨traces.image, traces.base, traces.input⟩, traces.running⟩

theorem sight_traces (h : s.ledger.Traces s.model) {seen : Option Sighting}
    (ok : s.sight o = .ok (seen, s')) : s'.ledger.Traces s'.model := by
  have edit : s.model.Edit _ := .attachSnapshot o.state o.snapshot
  have attached := h.grows (s.model.attachSnapshot_grows o.state o.snapshot) edit.extends.input
  obtain ⟨e, a, -, -, ⟨-, rfl⟩ | ⟨pruned, s₁, obsolete, superseded, -⟩⟩ := sight_eq_ok ok
  · exact attached
  have kept :=
    attached.keeps ((pruneObsolete_keeps obsolete).trans (supersede_keeps superseded)).model
  obtain ⟨n, ledger⟩ := sight_ledger ok
  rw [ledger]
  exact kept.book rfl kept.input

theorem check_traces (h : s.ledger.Traces s.model) {c : Except Refusal Classification}
    (ok : s.check o = .ok (c, s')) : s'.ledger.Traces s'.model := by
  obtain ⟨r, -, -, rfl⟩ | ⟨-, sighted, -⟩ | ⟨-, g, s₁, k, sighted, classified, -⟩ := check_eq_ok ok
  · exact h
  · exact sight_traces h sighted
  · exact (classify_cases classified).traces (sight_traces h sighted)

/-- The sessions that checks and registrations lead to, of any state of the running version with any
base state, while the model changes in ways that leave states, windows and inputs standing. -/
inductive Used : Session → Prop
  | start (m : Model) : Used { model := m }
  | grow {s m} (used : Used s) (grows : s.model.Grows m)
      (inputs : ∀ {i}, s.model.catalog.inputs.contains i = true →
        m.catalog.inputs.contains i = true) :
      Used { s with model := m }
  | check {s o c s'} (used : Used s) (ok : s.check o = .ok (c, s')) : Used s'
  | register {s k b n x so sb s'} (used : Used s) (observed : s.model.graph.states.get? k = some so)
      (running : so.version = .running) (base : s.model.graph.states.get? b = some sb)
      (old : sb.version = .base) (ok : s.register k b n x = .ok s') : Used s'

theorem Used.traces (used : s.Used) : s.ledger.Traces s.model := by
  induction used with
  | start m => exact ⟨⟨nofun, nofun, nofun⟩, nofun⟩
  | grow _ grows inputs ih => exact ih.grows grows inputs
  | check _ ok ih => exact check_traces ih ok
  | register _ observed running base _ ok ih =>
    exact register_traces ih observed running (Arena.contains_of_get? base) ok

theorem Used.sound (used : s.Used) (wf : s.model.WellFormed) : s.Sound :=
  ⟨wf, used.traces.toKnown⟩

end Session

/-- What has become of a graph in which the edges into `b` that move have gone over to `o`. -/
structure Graph.Migrated (g g' : Graph) (o b : StateId) (moves : Transition → Prop) : Prop where
  gone : ∀ {id e}, g.transitions.get? id = some e → e.dest = b → moves e →
    ∀ e', g'.transitions.get? id = some e' → e'.dest ≠ b
  carried : ∀ {id e}, g.transitions.get? id = some e → e.dest = b → moves e →
    ∃ id' e' c c', g'.transitions.get? id' = some e' ∧
      e'.source = e.source ∧ e'.action = e.action ∧ e'.dest = o ∧
      g.coverages.get? id = some c ∧ g'.coverages.get? id' = some c' ∧ c.Within c'
  stays : ∀ {id e}, g.transitions.get? id = some e → ¬ (e.dest = b ∧ moves e) → g.Retains g' id e
  into : ∀ {id e'}, g'.transitions.get? id = some e' → e'.dest = b →
    ∃ e, g.transitions.get? id = some e ∧ e'.unguarded = e.unguarded ∧ ¬ moves e

namespace Session

variable {s s' planned : Session} {o b : StateId} {matching : Matching} {plan : List Transfer}

def Moves (s : Session) (b : StateId) (e : Transition) : Prop :=
  s.Migrates b e ∧ s.Resolves e.guards

theorem plan_elsewhere (h : s.ledger.Traces s.model) (consistent : s.model.graph.Consistent)
    (ok : s.plan o b matching = .ok (plan, s')) (distinct : o ≠ b) {sb : State}
    (base : s.model.graph.states.get? b = some sb) (old : sb.version = .base) :
    ∀ t ∈ plan, t.dest ≠ b := by
  intro t mem
  obtain ⟨e, ⟨-, planned⟩ | ⟨leaves, so, -, planned⟩⟩ := mem_plan consistent ok mem
  · exact planned.dest ▸ distinct
  have other : e.dest ≠ b := leaves ▸ planned.moves.symm
  rcases planned.dest with same | ⟨-, same | image⟩
  · exact same ▸ other
  · exact same ▸ other
  · rintro rfl
    cases old.symm.trans (h.running image base)

theorem isLive_congr (states : s.model.graph.SameStates s'.model.graph) : s'.IsLive = s.IsLive := by
  funext p
  refine propext ⟨?_, ?_⟩
  · rintro ⟨st, hst, live⟩
    obtain ⟨st', hst', same⟩ := Arena.get?_of_map (states p) hst
    exact ⟨st', hst', (State.isLive_eq same).trans live⟩
  · rintro ⟨st, hst, live⟩
    obtain ⟨st', hst', same⟩ := Arena.get?_of_map (states p).symm hst
    exact ⟨st', hst', (State.isLive_eq same).trans live⟩

theorem moves_congr (states : s.model.graph.SameStates s'.model.graph)
    (images : s'.ledger.images = s.ledger.images)
    (observed : s'.ledger.observedBase = s.ledger.observedBase) : s'.Moves b = s.Moves b := by
  funext e
  unfold Moves Migrates Resolves StandsFor Ledger.imagesOf
  rw [isLive_congr states, images, observed]

theorem plan_takes (consistent : s.model.graph.Consistent)
    (ok : s.plan o b matching = .ok (plan, s')) {id : TransitionId} {e : Transition}
    (live : s.model.graph.transitions.get? id = some e) :
    (∃ t ∈ plan, t.Takes id) ↔ e.dest = b ∧ s.Moves b e := by
  constructor
  · rintro ⟨t, mem, incoming, rfl⟩
    obtain ⟨e₁, ⟨into, planned⟩ | ⟨-, so, -, planned⟩⟩ := mem_plan consistent ok mem
    · cases live.symm.trans planned.edge
      exact ⟨into, planned.migrates, planned.resolves⟩
    · rw [planned.outgoing] at incoming
      cases incoming
  · rintro ⟨into, migrates, resolves⟩
    obtain ⟨t, mem, same, incoming, -⟩ := plan_complete ok live into migrates resolves
    exact ⟨t, mem, incoming, same⟩

theorem plan_migrates (h : s.Sound) (traces : s.ledger.Traces s.model)
    (ok : s.plan o b matching = .ok (plan, planned)) (distinct : o ≠ b) {sb : State}
    (base : s.model.graph.states.get? b = some sb) (old : sb.version = .base)
    (applied : planned.applyAll plan = .ok s') :
    s.model.graph.Migrated s'.model.graph o b (s.Moves b) := by
  have consistent := h.model.graph
  have elsewhere := plan_elsewhere traces consistent ok distinct base old
  have awaits := plan_awaits consistent ok
  have complete : ∀ id e, s.model.graph.transitions.get? id = some e → e.dest = b → s.Moves b e →
      ∃ t ∈ plan, t.baseEdge = id ∧ t.isIncoming = true ∧ t.dest = o :=
    fun id e live into moves => plan_complete ok live into moves.1 moves.2
  obtain ⟨-, -, -, -, -, -, -, -, -, n, rfl⟩ := plan_eq_ok ok
  refine ⟨?gone, ?carried, ?stays, ?into⟩
  case gone =>
    intro id e live into moves e' live' back
    obtain ⟨t, mem, same, incoming, -⟩ := complete id e live into moves
    exact (applyAll_into elsewhere applied live' back).2 t mem incoming same
  case carried =>
    intro id e live into moves
    obtain ⟨t, mem, rfl, incoming, dest⟩ := complete id e live into moves
    have entry := (consistent.coverages t.baseEdge).trans (Arena.contains_of_get? live)
    obtain ⟨c, covered⟩ := OrderedMap.contains_iff.1 entry
    obtain ⟨id', ⟨e', live', source, action, into'⟩, c', covered', within⟩ :=
      applyAll_carries (s := { s with ledger := s.ledger.addUnresolved n }) consistent awaits
        elsewhere applied mem incoming live covered
    exact ⟨id', e', c, c', live', source, action, into'.trans dest, covered, covered', within⟩
  case stays =>
    intro id e live others
    exact applyAll_retains applied live fun t mem incoming same =>
      others ((plan_takes consistent ok live).1 ⟨t, mem, incoming, same⟩)
  case into =>
    intro id e' live' into'
    obtain ⟨⟨e, live, same⟩, others⟩ := applyAll_into elsewhere applied live' into'
    refine ⟨e, live, same, fun moves => ?_⟩
    have into := (Transition.dest_eq same).symm.trans into'
    obtain ⟨t, mem, base, incoming, -⟩ := complete id e live into moves
    exact others t mem incoming base

theorem migrateInput_model {i : InputId} {w : WindowId}
    (ok : migrateInput w matching s i = .ok s') :
    s'.model = { s.model with catalog := s'.model.catalog } := by
  obtain ⟨-, rfl⟩ | ⟨-, rfl | ⟨x, j, y, -, -, -, rfl⟩⟩ := migrateInput_cases ok <;> rfl

theorem migrateInputs_model (ok : s.migrateInputs o b matching = .ok s') :
    s'.model = { s.model with catalog := s'.model.catalog } := by
  refine migrateInputs_induct
    (fun s' => s'.model = { s.model with catalog := s'.model.catalog }) ok rfl ?_
  intro w i s₁ s₂ same ok
  have step := migrateInput_model ok
  rw [same] at step
  exact step

structure Begins (s : Session) (o b : StateId) (matching : Matching) (mid planned : Session)
    (plan : List Transfer) : Prop where
  sound : mid.Sound
  traces : mid.ledger.Traces mid.model
  model : mid.model = { s.model with catalog := mid.model.catalog }
  images : mid.ledger.images = (s.ledger.recognise o b).images
  observed : mid.ledger.observedBase = s.ledger.observedBase
  made : mid.plan o b matching = .ok (plan, planned)

theorem Begins.graph {mid : Session} (h : s.Begins o b matching mid planned plan) :
    mid.model.graph = s.model.graph := by
  rw [h.model]

theorem Sound.register_begun (h : s.Sound) (traces : s.ledger.Traces s.model) {so sb : State}
    (observed : s.model.graph.states.get? o = some so) (running : so.version = .running)
    (base : s.model.graph.states.get? b = some sb) (fresh : b ∉ s.ledger.equivalentsOf o)
    {n : SnapshotId} (registered : s.register o b n matching = .ok s') : ∃ mid planned plan,
      s.Begins o b matching mid planned plan ∧ planned.applyAll plan = .ok s' := by
  have state := Arena.contains_of_get? observed
  have root := Arena.contains_of_get? base
  obtain ⟨entered, -⟩ | ⟨-, plan, planned, entered, applied⟩ := register_cases registered
  · exact absurd (of_decide_eq_true entered) fresh
  obtain ⟨mid, migrated, made⟩ := Checked.bind_eq_ok.1 entered
  have book := (migrateInputs_aside migrated).book
  have marked := h.markSnapshot root n
  -- guards are resolved with the new pair on record, so the trace has to hold with it
  have traces : ((s.ledger.markSnapshot n b).recognise o b).Traces s.model :=
    (traces.markSnapshot root).recognise observed running
  refine ⟨mid, planned, plan, ⟨?_, ?_, ?_, ?_, ?_, made⟩, applied⟩
  · exact (marked.recognise state b).migrateInputs migrated
  · exact migrateInputs_traces traces migrated
  · exact (migrateInputs_model migrated :)
  · exact (congrArg Ledger.images book :)
  · exact (congrArg Ledger.observedBase book :)

theorem Sound.register_begins (h : s.Sound) (traces : s.ledger.Traces s.model) {so sb : State}
    (observed : s.model.graph.states.get? o = some so) (running : so.version = .running)
    (base : s.model.graph.states.get? b = some sb) (fresh : b ∉ s.ledger.equivalentsOf o)
    (placed : s.Places o matching) (n : SnapshotId) : ∃ s' mid planned plan,
      s.register o b n matching = .ok s' ∧ s.Begins o b matching mid planned plan ∧
        planned.applyAll plan = .ok s' := by
  obtain ⟨s', registered⟩ := h.register_succeeds (Arena.contains_of_get? observed)
    (Arena.contains_of_get? base) placed n
  obtain ⟨mid, planned, plan, begins, applied⟩ :=
    h.register_begun traces observed running base fresh registered
  exact ⟨s', mid, planned, plan, registered, begins, applied⟩

theorem Begins.migrates {mid : Session} (h : s.Begins o b matching mid planned plan) {so sb : State}
    (observed : s.model.graph.states.get? o = some so) (running : so.version = .running)
    (base : s.model.graph.states.get? b = some sb) (old : sb.version = .base)
    (applied : planned.applyAll plan = .ok s') : s.model.graph.Migrated s'.model.graph o b
      (Moves { s with ledger := s.ledger.recognise o b } b) := by
  have distinct : o ≠ b := by
    rintro rfl
    cases observed.symm.trans base
    cases running.symm.trans old
  have moved := plan_migrates h.sound h.traces h.made distinct (h.graph ▸ base) old applied
  have moves : mid.Moves b = Moves { s with ledger := s.ledger.recognise o b } b :=
    moves_congr (fun _ => by rw [h.graph]) h.images h.observed
  rw [h.graph, moves] at moved
  exact moved

theorem Compared.begins {before mid : Session} (compared : before.Compared s)
    (h : s.Begins o b matching mid planned plan) :
    before.Begins o b matching mid planned plan := by
  obtain ⟨ledger, r, model⟩ := compared
  refine ⟨h.sound, h.traces, ?_, ledger ▸ h.images, ledger ▸ h.observed, h.made⟩
  rw [h.model, model]

theorem Used.register_compared (used : s.Used) (wf : s.model.WellFormed) {so sb : State}
    (observed : s.model.graph.states.get? o = some so) (running : so.version = .running)
    (base : s.model.graph.states.get? b = some sb) (fresh : b ∉ s.ledger.equivalentsOf o)
    {strict : Bool} {c : Comparison} {m : Model}
    (compared : s.model.compare o b strict = .ok (c, m)) (n : SnapshotId) :
    ∃ s' mid planned plan,
      Session.register { s with model := m } o b n (c.matching.getD {}) = .ok s' ∧
        s.Begins o b (c.matching.getD {}) mid planned plan ∧ planned.applyAll plan = .ok s' := by
  have sound := used.sound wf
  have step : s.Compared { s with model := m } := .compare compared
  have aside := step.aside.model
  obtain ⟨so', _, observed', _, within⟩ := Model.compare_within compared
  have placed := (sound.places observed' within).keeps aside.toKeeps
  obtain ⟨s', mid, planned, plan, registered, begins, applied⟩ :=
    (sound.compared step).register_begins (used.traces.keeps aside.toKeeps)
      (aside.graph ▸ observed) running (aside.graph ▸ base) fresh placed n
  exact ⟨s', mid, planned, plan, registered, step.begins begins, applied⟩

/-- The first registration of a pair, with the matching of its comparison, moves the edges into the
base state over to the observed one. Guards resolve with the new pair entered. -/
theorem Used.register_migrates (used : s.Used) (wf : s.model.WellFormed) {so sb : State}
    (observed : s.model.graph.states.get? o = some so) (running : so.version = .running)
    (base : s.model.graph.states.get? b = some sb) (old : sb.version = .base)
    (fresh : b ∉ s.ledger.equivalentsOf o) {strict : Bool} {c : Comparison} {m : Model}
    (compared : s.model.compare o b strict = .ok (c, m)) (n : SnapshotId) :
    ∃ s', Session.register { s with model := m } o b n (c.matching.getD {}) = .ok s' ∧
      s.model.graph.Migrated s'.model.graph o b
        (Moves { s with ledger := s.ledger.recognise o b } b) := by
  obtain ⟨s', mid, planned, plan, registered, begins, applied⟩ :=
    used.register_compared wf observed running base fresh compared n
  exact ⟨s', registered, begins.migrates observed running base old applied⟩

theorem register_migrates_launched : ∃ c m s', Model.launched.compare ⟨2⟩ ⟨0⟩ false = .ok (c, m) ∧
    Session.register { model := m } ⟨2⟩ ⟨0⟩ ⟨0⟩ (c.matching.getD {}) = .ok s' ∧
    ∃ id e, s'.model.graph.transitions.get? id = some e ∧ e.source = ⟨1⟩ ∧ e.action = ⟨0⟩ ∧
      e.dest = ⟨2⟩ := by
  have wf := built_launched.sound.model
  have compares : Succeeds (Model.launched.compare ⟨2⟩ ⟨0⟩ false) :=
    wf.states.compare_succeeds rfl rfl
  obtain ⟨⟨c, m⟩, compared⟩ := compares
  obtain ⟨s', registered, migrated⟩ :=
    (Used.start .launched).register_migrates wf rfl rfl rfl rfl nofun compared ⟨0⟩
  have back : Model.launched.graph.transitions.get? ⟨0⟩ = some
      { source := ⟨1⟩, action := ⟨0⟩, dest := ⟨0⟩, version := .base } := rfl
  have moves : Moves { model := .launched, ledger := Ledger.recognise {} ⟨2⟩ ⟨0⟩ } ⟨0⟩
      { source := ⟨1⟩, action := ⟨0⟩, dest := ⟨0⟩, version := .base } :=
    ⟨⟨rfl, by decide, OrderedSet.not_mem_empty _⟩, .inl rfl⟩
  obtain ⟨id, e, -, -, live, source, action, dest, -⟩ := migrated.carried back rfl moves
  exact ⟨c, m, s', compared, registered, id, e, live, source, action, dest⟩

end Session

end ScreenGraph
