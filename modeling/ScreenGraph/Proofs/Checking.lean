import ScreenGraph.Proofs.Auditing
import ScreenGraph.Proofs.Classifying
import ScreenGraph.Proofs.Edits

/-!
Runs that mix edits of the model with checks. Whatever the order, a check of an observation whose
handles are there goes through, and the graph passes the audit afterwards. The transfers that a
registration plans are carried out one by one while edges are removed and their cells are used
again; each of them still finds the base edge that it was planned for.
-/

namespace ScreenGraph

structure Observation.Live (o : Observation) (m : Model) : Prop where
  snapshot : m.snapshots.contains o.snapshot = true
  transition : m.graph.transitions.contains o.transition = true
  state : m.graph.states.contains o.state = true
  previous : ∀ p, o.previous = some p → m.graph.states.contains p = true

namespace Session

theorem refusal?_eq_none {m : Model} {o : Observation} : refusal? m o = none ↔ o.Live m := by
  unfold refusal?
  constructor
  · intro none
    split at none
    · cases none
    split at none
    · cases none
    next snapshot transition =>
    have known := List.find?_eq_none.1 (Option.map_eq_none_iff.1 none)
    simp only [Bool.not_eq_true', Bool.not_eq_false] at snapshot transition known
    exact ⟨snapshot, transition, known _ (by simp), fun p hp => known p (by simp [hp])⟩
  · intro live
    rw [if_neg (by simp [live.snapshot]), if_neg (by simp [live.transition])]
    rw [Option.map_eq_none_iff, List.find?_eq_none]
    intro s mem
    rcases List.mem_cons.1 mem with rfl | mem
    · simp [live.state]
    · simp [live.previous s (Option.mem_toList.1 mem)]

variable {s s' : Session} {o : Observation} {g : Sighting}

theorem check_eq_ok {c : Except Refusal Classification} (ok : s.check o = .ok (c, s')) :
    (∃ r, refusal? s.model o = some r ∧ c = .error r ∧ s' = s) ∨
      (o.Live s.model ∧ s.sight o = .ok (none, s') ∧ c = .ok .ignored) ∨
      (o.Live s.model ∧ ∃ g s₁ k, s.sight o = .ok (some g, s₁) ∧
        s₁.classify g = .ok (k, s') ∧ c = .ok k) := by
  unfold check at ok
  split at ok
  · next r refused =>
    cases ok
    exact .inl ⟨r, refused, rfl, rfl⟩
  next live =>
  have live := refusal?_eq_none.1 live
  obtain ⟨⟨seen, s₁⟩, sighted, ok⟩ := Checked.bind_eq_ok.1 ok
  cases seen with
  | none =>
    cases ok
    exact .inr (.inl ⟨live, sighted, rfl⟩)
  | some g =>
    obtain ⟨⟨k, s₂⟩, classified, ok⟩ := Checked.bind_eq_ok.1 ok
    cases ok
    exact .inr (.inr ⟨live, g, s₁, k, sighted, classified, rfl⟩)

theorem sight_eq_ok {seen : Option Sighting} (ok : s.sight o = .ok (seen, s')) :
    ∃ e a,
      (s.model.attachSnapshot o.state o.snapshot).2.graph.transitions.get? o.transition = some e ∧
      (s.model.attachSnapshot o.state o.snapshot).2.actions.entries.get? e.action = some a ∧
      ((seen = none ∧ s' = { s with model := (s.model.attachSnapshot o.state o.snapshot).2 }) ∨
        ∃ pruned s₁, pruneObsolete { s with model := (s.model.attachSnapshot o.state o.snapshot).2 }
            o.transition o.previous = .ok (pruned, s₁) ∧
          s₁.supersede o.transition = .ok s' ∧
          seen = some ⟨o.snapshot, o.state, o.transition, e.action, pruned⟩) := by
  obtain ⟨e, he, ok⟩ := Arena.get_bind_eq_ok.1 ok
  obtain ⟨x, hx, ok⟩ := Checked.bind_eq_ok.1 ok
  obtain ⟨a, ha, done⟩ := Arena.get_bind_eq_ok.1 hx
  cases done
  refine ⟨e, a, he, ha, ?_⟩
  split at ok
  · cases ok
    exact .inl ⟨rfl, rfl⟩
  · obtain ⟨⟨pruned, s₁⟩, obsolete, ok⟩ := Checked.bind_eq_ok.1 ok
    obtain ⟨s₂, superseded, ok⟩ := Checked.bind_eq_ok.1 ok
    cases ok
    exact .inr ⟨pruned, s₁, obsolete, superseded, rfl⟩

theorem sight_book {seen : Option Sighting} (ok : s.sight o = .ok (seen, s')) :
    s'.ledger.book = s.ledger.book ∧
      ∀ g, seen = some g → g.snapshot = o.snapshot ∧ g.state = o.state := by
  obtain ⟨e, a, -, -, ⟨rfl, rfl⟩ | ⟨pruned, s₁, obsolete, superseded, rfl⟩⟩ := sight_eq_ok ok
  · exact ⟨rfl, nofun⟩
  · refine ⟨((pruneObsolete_keeps obsolete).trans (supersede_keeps superseded)).book, ?_⟩
    rintro g ⟨⟩
    exact ⟨rfl, rfl⟩

theorem sight_ledger {seen : Option Sighting} (ok : s.sight o = .ok (seen, s')) :
    ∃ n, s'.ledger = { s.ledger with tally :=
      { s.ledger.tally with pruned := s.ledger.tally.pruned + n } } := by
  obtain ⟨-, -, -, -, ⟨-, rfl⟩ | ⟨keys, s₁, pruned, superseded, -⟩⟩ := sight_eq_ok ok
  · exact ⟨0, rfl⟩
  obtain ⟨_, _, -, -, rfl⟩ := pruneObsolete_eq_ok pruned
  obtain ⟨_, -, rfl⟩ := supersede_eq_ok superseded
  exact ⟨keys.length, rfl⟩

theorem attachSnapshot_transitions (m : Model) (k : StateId) (n : SnapshotId) :
    (m.attachSnapshot k n).2.graph.transitions = m.graph.transitions := by
  unfold Model.attachSnapshot
  split
  · rfl
  split <;> rfl

theorem Sound.sight_succeeds (h : s.Sound) (live : o.Live s.model) : Succeeds (s.sight o) := by
  have attached := h.edit (.attachSnapshot o.state o.snapshot)
  have transition := attachSnapshot_transitions s.model o.state o.snapshot
  obtain ⟨e, he⟩ := Arena.contains_iff.1 live.transition
  rw [← transition] at he
  obtain ⟨a, ha⟩ := Arena.contains_iff.1 (attached.model.edge he).action
  refine .get he ?_
  refine Succeeds.bind ?_ fun x _ => ?_
  · exact .get ha (succeeds_pure _)
  split
  · exact succeeds_pure _
  refine (attached.pruneObsolete_succeeds _ (Arena.contains_of_get? he)).bind ?_
  intro ⟨pruned, s₁⟩ obsolete
  obtain ⟨sound, same, -⟩ := attached.pruneObsolete obsolete
  refine (sound.supersede_succeeds ?_).bind fun _ _ => succeeds_pure _
  exact Arena.contains_of_get? (same.trans he)

theorem Sound.sight (h : s.Sound) (live : o.Live s.model) {seen : Option Sighting}
    (ok : s.sight o = .ok (seen, s')) : s'.Sound ∧ ∀ g, seen = some g → s'.Sees g := by
  have edit : s.model.Edit _ := .attachSnapshot o.state o.snapshot
  have attached := h.edit edit
  obtain ⟨e, a, he, ha, ⟨rfl, rfl⟩ | ⟨pruned, s₁, obsolete, superseded, rfl⟩⟩ := sight_eq_ok ok
  · exact ⟨attached, nofun⟩
  obtain ⟨sound, -, dests⟩ := attached.pruneObsolete obsolete
  have keeps := ((pruneObsolete_keeps obsolete).trans (supersede_keeps superseded)).model
  refine ⟨sound.supersede superseded, ?_⟩
  rintro g ⟨⟩
  refine ⟨?_, ?_, ?_⟩
  · exact (keeps.contains_state _).trans (edit.extends.state live.state)
  · exact keeps.contains_action (Arena.contains_of_get? ha)
  · intro k mem
    exact ((supersede_keeps superseded).model.contains_state _).trans (dests k mem)

theorem Sound.check_succeeds (h : s.Sound) (live : o.Live s.model) :
    ∃ c s', s.check o = .ok (.ok c, s') := by
  obtain ⟨⟨seen, s₁⟩, sighted⟩ := h.sight_succeeds live
  obtain ⟨sound, sees⟩ := h.sight live sighted
  unfold check
  rw [refusal?_eq_none.2 live]
  cases seen with
  | none => exact ⟨_, _, Checked.bind_eq_ok.2 ⟨_, sighted, rfl⟩⟩
  | some g =>
    obtain ⟨⟨c, s₂⟩, classified⟩ := sound.classify_succeeds (sees g rfl)
    refine ⟨c, s₂, Checked.bind_eq_ok.2 ⟨_, sighted, ?_⟩⟩
    exact Checked.bind_eq_ok.2 ⟨_, classified, rfl⟩

theorem Sound.check_goes (h : s.Sound) (o : Observation) : ∃ c s', s.check o = .ok (c, s') := by
  cases refused : refusal? s.model o with
  | some r =>
    unfold Session.check
    rw [refused]
    exact ⟨_, _, rfl⟩
  | none =>
    obtain ⟨c, s', checked⟩ := h.check_succeeds (refusal?_eq_none.1 refused)
    exact ⟨.ok c, s', checked⟩

theorem Sound.check (h : s.Sound) {c : Except Refusal Classification}
    (ok : s.check o = .ok (c, s')) : s'.Sound := by
  obtain ⟨r, -, -, rfl⟩ | ⟨live, sighted, -⟩ | ⟨live, g, s₁, k, sighted, classified, -⟩ :=
    check_eq_ok ok
  · exact h
  · exact (h.sight live sighted).1
  · obtain ⟨sound, sees⟩ := h.sight live sighted
    exact sound.answers (sees g rfl) (classify_cases classified)

theorem ok_of_answer {x : Checked (Except Refusal Classification × Session)} {c : Classification}
    (answer : (x.toOption.map fun r => r.1.toOption) = some (some c)) :
    ∃ s', x = .ok (.ok c, s') := by
  obtain ⟨⟨k, s'⟩, ok, answer⟩ := Option.map_eq_some_iff.1 answer
  cases k <;> cases answer
  exact ⟨s', toOption_eq_some.1 ok⟩

/-- The sessions of runs that start from an empty model, with some way to hash valuations. -/
inductive Built : Session → Prop
  | start (p : Policy) (signature : Attributes → UInt64) :
      Built { model := { policy := p, avms := { signature } } }
  | edit {s : Session} {m : Model} (built : Built s) (edit : s.model.Edit m) :
      Built { s with model := m }
  | write {s : Session} {m : Model} (built : Built s) (write : s.model.Write m) :
      Built { s with model := m }
  | check {s s' : Session} {o : Observation} {c} (built : Built s)
      (ok : s.check o = .ok (c, s')) : Built s'

theorem Sound.start (p : Policy) (signature : Attributes → UInt64) :
    Sound { model := { policy := p, avms := { signature } } } where
  model := {
    graph := .empty
    states := ⟨nofun, nofun, nofun, nofun, nofun⟩
    actions := ⟨nofun, nofun, nofun⟩
    edge := nofun }
  ledger := ⟨nofun, nofun, nofun⟩

theorem Built.sound (built : s.Built) : s.Sound := by
  induction built with
  | start p signature => exact .start p signature
  | edit _ edit ih => exact ih.edit edit
  | write _ write ih => exact ih.write write
  | check _ ok ih => exact ih.check ok

theorem Built.addState (built : Built s) (window : WindowId) (version : Version)
    (fields : List State.Field) (known : s.model.catalog.windows.contains window = true) :
    Built { s with model := { s.model with graph := { s.model.graph with
      states := (s.model.graph.states.add (.setAll { window, version } fields)).2 } } } := by
  have bare : (State.setAll { window, version } fields).outgoing.isEmpty = true := by
    rw [(State.trims_setAll _ fields).outgoing]
    rfl
  have added := Graph.addState_of_bare (g := s.model.graph) bare
  exact built.edit (.addState (Checked.bind_eq_ok.2 ⟨_, added, rfl⟩) known)

theorem Built.withEdge (built : Built s) (t : Transition) (c : Coverage)
    (source : s.model.graph.states.contains t.source = true)
    (dest : s.model.graph.states.contains t.dest = true) (known : s.model.Knows t) :
    Built { s with model := { s.model with graph := s.model.graph.withEdge t c } } := by
  have added := Graph.addTransition_eq_ok.2
    ⟨source, dest, rfl, (rfl : _ = s.model.graph.withEdge t c)⟩
  exact built.edit (.addTransition (Checked.bind_eq_ok.2 ⟨_, added, rfl⟩) known)

/-- A check has found a base state, and is about to carry out the plan that it made for the pair. -/
inductive Plans (s : Session) (o : Observation) (b : StateId) (plan : List Transfer) :
    Session → Prop
  | intro {g s₁ r x mid planned} (sighted : s.sight o = .ok (some g, s₁))
      (found : s₁.Finds g b r x mid)
      (entered : enter { mid with ledger := mid.ledger.markSnapshot g.snapshot b } g.state b x =
        .ok (plan, planned)) : Plans s o b plan planned

theorem Sound.plans (h : s.Sound) (live : o.Live s.model) {b : StateId} {plan : List Transfer}
    {planned : Session} (plans : s.Plans o b plan planned) :
    planned.Sound ∧ planned.model.graph.Awaits b plan ∧
      ∀ t ∈ plan, planned.model.KnowsTransfer t := by
  cases plans with
  | @intro g s₁ r x mid _ sighted found entered =>
  obtain ⟨sound, sees⟩ := h.sight live sighted
  have state := (found.passed.aside.contains_state g.state).trans (sees g rfl).state
  have marked := (sound.passed found.passed).markSnapshot (found.contains sound) g.snapshot
  exact marked.enter state (found.places sound) entered

end Session

theorem Graph.Awaits.left {g : Graph} {b : StateId} {done rest : List Transfer}
    (h : g.Awaits b (done ++ rest)) : g.Awaits b done where
  nodup := h.nodup.sublist ((List.sublist_append_left ..).map _)
  live t mem := h.live t (List.mem_append_left rest mem)

namespace Session

variable {s s' : Session} {o : Observation} {b : StateId}

theorem Sound.reaches (h : s.Sound) {done rest : List Transfer} {t : Transfer}
    (awaits : s.model.graph.Awaits b (done ++ t :: rest))
    (known : ∀ u ∈ done ++ t :: rest, s.model.KnowsTransfer u) :
    ∃ now e e', s.applyAll done = .ok now ∧
      s.model.graph.transitions.get? t.baseEdge = some e ∧
      now.model.graph.transitions.get? t.baseEdge = some e' ∧ e'.unguarded = e.unguarded := by
  obtain ⟨now, applied⟩ := h.applyAll_succeeds awaits.left fun u mem =>
    known u (List.mem_append_left _ mem)
  obtain ⟨e, he, -⟩ := awaits.live t (by simp)
  -- an edge is planned once, so no transfer before has taken this one away
  have others : ∀ u ∈ done, u.isIncoming = true → u.baseEdge ≠ t.baseEdge := by
    intro u mem _ same
    have nodup := awaits.nodup
    rw [List.map_append, List.nodup_append] at nodup
    exact nodup.2.2 _ (List.mem_map_of_mem mem) _ (List.mem_map_of_mem (by simp)) same
  obtain ⟨e', he', same⟩ := (applyAll_retains applied he others).edge
  exact ⟨now, e, e', applied, he, he', same⟩

theorem Finds.isRecognised {g : Sighting} {r : Rule} {x : Matching} {mid : Session}
    (found : s.Finds g b r x mid) (o b' : StateId) :
    mid.ledger.isRecognised o b' = s.ledger.isRecognised o b' := by
  rcases found.passed.2 with same | same
  · rw [same]
  · rw [same]
    rfl

theorem carries_out {c : Classification} (ok : s.check o = .ok (.ok c, s')) {r : Rule}
    (answer : c = .equivalent b r) (fresh : s.ledger.isRecognised o.state b = false) :
    ∃ plan planned after, s.Plans o b plan planned ∧ planned.applyAll plan = .ok after ∧
      s'.model = after.model := by
  subst answer
  obtain ⟨-, -, ⟨⟩, -⟩ | ⟨-, -, ⟨⟩⟩ | ⟨-, g, s₁, k, sighted, classified, ⟨⟩⟩ := check_eq_ok ok
  obtain ⟨-, -, other⟩ | ⟨_, _, x, mid, after, ⟨⟩, found, registered, model, -⟩ :=
    (classify_cases classified).registers
  · exact absurd rfl (other b r)
  obtain ⟨book, named⟩ := sight_book sighted
  have same : s₁.ledger.equivalents = s.ledger.equivalents := (congrArg Ledger.equivalents book :)
  obtain ⟨entered, -⟩ | ⟨-, plan, planned, entered, applied⟩ := register_cases registered
  · rw [found.isRecognised, (named g rfl).2, Ledger.isRecognised, Ledger.equivalentsOf,
      same] at entered
    exact absurd entered (Bool.eq_false_iff.1 fresh)
  · exact ⟨plan, planned, after, .intro sighted found entered, applied, model⟩

/-- Every check of a live observation goes through and leaves a graph that passes the audit. Each
transfer of the plan that it carries out finds its base edge, as it was planned for and at most with
wider guards. -/
theorem Built.check_audited (built : s.Built) (live : o.Live s.model) :
    ∃ c s', s.check o = .ok (.ok c, s') ∧ s'.model.graph.Consistent ∧
      s'.model.graph.audit = .ok () ∧
      (∀ b r, c = .equivalent b r → s.ledger.isRecognised o.state b = false →
        ∃ plan planned after, s.Plans o b plan planned ∧ planned.applyAll plan = .ok after ∧
          s'.model = after.model) ∧
      ∀ b plan planned, s.Plans o b plan planned → ∀ done t rest, plan = done ++ t :: rest →
        ∃ now e e', planned.applyAll done = .ok now ∧
          planned.model.graph.transitions.get? t.baseEdge = some e ∧
          now.model.graph.transitions.get? t.baseEdge = some e' ∧
          e'.unguarded = e.unguarded := by
  have sound := built.sound
  obtain ⟨c, s', checked⟩ := sound.check_succeeds live
  have after := (sound.check checked).model.graph
  refine ⟨c, s', checked, after, after.audit_eq_ok, fun b r => carries_out checked, ?_⟩
  intro b plan planned plans done t rest split
  obtain ⟨ready, awaits, known⟩ := sound.plans live plans
  rw [split] at awaits known
  exact ready.reaches awaits known

end Session

def Model.launched : Model where
  catalog := (Catalog.openWindow {} "Main" "main" .activity .base).2
  actions :=
    ((ActionTable.intern {} ⟨0⟩ { kind := .pressBack }).2.intern ⟨0⟩ { kind := .launchApp }).2
  graph := Graph.withEdge
    (Graph.withEdge
      { states := (((Arena.add ∅
          { window := ⟨0⟩, version := .base, isInitial := true }).2.add
          { window := ⟨0⟩, version := .base }).2.add
          { window := ⟨0⟩, version := .running }).2 }
      { source := ⟨1⟩, action := ⟨0⟩, dest := ⟨0⟩, version := .base } ∅)
    { source := ⟨1⟩, action := ⟨1⟩, dest := ⟨2⟩, version := .running } ∅
  snapshots := (Arena.add ∅ { windowClass := "Main", elements := [{}] }).2

namespace Session

theorem built_launched : Built { model := .launched } := by
  have window := (Built.start {} hash).edit (.openWindow "Main" "main" .activity .base)
  have home := window.addState ⟨0⟩ .base [.isInitial true] rfl
  have away := home.addState ⟨0⟩ .base [] rfl
  have running := away.addState ⟨0⟩ .running [] rfl
  have back := running.edit (@Model.Edit.internAction _ ⟨0⟩ { kind := .pressBack } _ _ rfl)
  have launch := back.edit (@Model.Edit.internAction _ ⟨0⟩ { kind := .launchApp } _ _ rfl)
  have returned := launch.withEdge { source := ⟨1⟩, action := ⟨0⟩, dest := ⟨0⟩, version := .base } ∅
    rfl rfl (.of_all rfl rfl)
  have launched := returned.withEdge
    { source := ⟨1⟩, action := ⟨1⟩, dest := ⟨2⟩, version := .running } ∅ rfl rfl (.of_all rfl rfl)
  exact launched.edit (.addSnapshot { windowClass := "Main", elements := [{}] })

theorem check_audited_launched :
    (∃ c s', check { model := .launched } ⟨⟨0⟩, ⟨2⟩, ⟨1⟩, none⟩ = .ok (.ok c, s') ∧
      s'.model.graph.audit = .ok ()) ∧
    ((check { model := .launched } ⟨⟨0⟩, ⟨2⟩, ⟨1⟩, none⟩).toOption.map
      fun r => r.2.ledger.tally.copied) = some 1 := by
  obtain ⟨c, s', checked, -, audited, -⟩ :=
    built_launched.check_audited (o := ⟨⟨0⟩, ⟨2⟩, ⟨1⟩, none⟩) ⟨rfl, rfl, rfl, nofun⟩
  exact ⟨⟨c, s', checked, audited⟩, by decide +kernel⟩

end Session

end ScreenGraph
