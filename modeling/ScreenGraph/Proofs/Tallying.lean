import ScreenGraph.Output.Report
import ScreenGraph.Proofs.Operating
import ScreenGraph.Proofs.Preserving

/-!
The counts of a report come from three sources: the edges of the graph, the entries that the ledger
holds under handles of edges, and counters. They add up as long as only edges of the running version
are observed and nothing but checks and registrations takes such an edge away; these take away none.
-/

namespace ScreenGraph

theorem OrderedMap.write_of_not_mem {κ ν : Type} [DecidableEq κ] {k : κ} {es : List (κ × ν)}
    (absent : k ∉ es.map Prod.fst) (f : Option ν → ν) : write k f es = es ++ [(k, f none)] := by
  induction es with
  | nil => rfl
  | cons e r ih =>
    rw [List.map_cons, List.mem_cons, not_or] at absent
    rw [write, if_neg (Ne.symm absent.1), ih absent.2, List.cons_append]

theorem OrderedMap.entries_insert {κ ν : Type} [DecidableEq κ] {m : OrderedMap κ ν} {k : κ}
    (fresh : m.contains k = false) (v : ν) : (m.insert k v).entries = m.entries ++ [(k, v)] := by
  refine OrderedMap.write_of_not_mem ?_ _
  change k ∉ m.keys
  rw [OrderedMap.mem_keys_iff, fresh]
  exact Bool.false_ne_true

theorem OrderedMap.size_insert {κ ν : Type} [DecidableEq κ] {m : OrderedMap κ ν} {k : κ}
    (fresh : m.contains k = false) (v : ν) : (m.insert k v).size = m.size + 1 := by
  rw [size, entries_insert fresh, List.length_append, List.length_singleton, size]

structure Ledger.Logs (l l' : Ledger) (n : Nat) : Prop where
  transfers : l'.tally.copied + l'.tally.merged = l.tally.copied + l.tally.merged + n
  inputs : l'.tally.migrated + l.inputImages.size = l.tally.migrated + l'.inputImages.size

namespace Ledger.Logs

variable {l l' l'' : Ledger} {n k : Nat}

theorem of_account (same : l'.account = l.account) : l.Logs l' 0 := by
  obtain ⟨tally, images⟩ := Prod.mk.inj same
  exact ⟨by rw [tally, Nat.add_zero], by rw [tally, images]⟩

theorem trans (h : l.Logs l' n) (h' : l'.Logs l'' k) : l.Logs l'' (n + k) where
  transfers := by rw [h'.transfers, h.transfers, Nat.add_assoc]
  inputs := by
    have := h.inputs
    have := h'.inputs
    omega

end Ledger.Logs

namespace Session

variable {s s' : Session} {o : Observation} {g : Sighting} {k b : StateId} {n : SnapshotId}
  {x : Matching} {plan : List Transfer}

theorem migrateInput_logs {w : WindowId} {i : InputId} (ok : migrateInput w x s i = .ok s') :
    s.ledger.Logs s'.ledger 0 := by
  obtain ⟨-, rfl⟩ | ⟨fresh, rfl | ⟨y, j, z, -, -, -, rfl⟩⟩ := migrateInput_cases ok
  · exact .of_account rfl
  · exact ⟨rfl, rfl⟩
  · refine ⟨rfl, ?_⟩
    rw [OrderedMap.size_insert fresh]
    exact Nat.add_right_comm ..

theorem migrateInputs_logs (ok : s.migrateInputs k b x = .ok s') :
    s.ledger.Logs s'.ledger 0 := by
  refine migrateInputs_induct (fun s' => s.ledger.Logs s'.ledger 0) ok (.of_account rfl) ?_
  exact fun before ok => before.trans (migrateInput_logs ok)

theorem enter_logs {planned : Session} (ok : s.enter k b x = .ok (plan, planned)) :
    s.ledger.Logs planned.ledger 0 := by
  obtain ⟨s₁, migrated, made⟩ := Checked.bind_eq_ok.1 ok
  obtain ⟨-, -, -, -, -, -, -, -, -, unresolved, rfl⟩ := plan_eq_ok made
  have logs := migrateInputs_logs migrated
  exact ⟨logs.transfers, logs.inputs⟩

theorem transferEdge_logs {t : Transfer} {old : Transition} {c : Coverage} {a : ActionId}
    (ok : s.transferEdge t old c a = .ok s') : s.ledger.Logs s'.ledger 1 := by
  obtain ⟨-, -, -, rfl⟩ | ⟨into, before, -, -, rfl⟩ := transferEdge_cases ok
  · exact ⟨Nat.add_right_comm .., rfl⟩
  · exact ⟨rfl, rfl⟩

theorem applyTransfer_logs {t : Transfer} (ok : s.applyTransfer t = .ok s') :
    s.ledger.Logs s'.ledger 1 := by
  obtain ⟨old, -, ok⟩ := Checked.bind_eq_ok.1 ok
  obtain ⟨⟨a, s₁⟩, prepared, ok⟩ := Checked.bind_eq_ok.1 ok
  obtain ⟨s₂, carried, ok⟩ := Checked.bind_eq_ok.1 ok
  have logs := transferEdge_logs carried
  rw [transferAction_ledger prepared] at logs
  split at ok
  · cases ok
    exact logs
  · obtain ⟨⟨removed, graph⟩, -, done⟩ := Checked.bind_eq_ok.1 ok
    cases done
    exact logs

theorem applyAll_logs (ok : s.applyAll plan = .ok s') : s.ledger.Logs s'.ledger plan.length := by
  induction plan generalizing s with
  | nil =>
    cases ok
    exact .of_account rfl
  | cons t rest ih =>
    obtain ⟨s₁, first, ok⟩ := Checked.bind_eq_ok.1 ok
    rw [List.length_cons, Nat.add_comm]
    exact (applyTransfer_logs first).trans (ih ok)

inductive Lists (s : Session) (k b : StateId) (n : SnapshotId) (x : Matching) : List Transfer → Prop
  | known (entered : s.ledger.isRecognised k b = true) : Lists s k b n x []
  | planned {plan planned} (fresh : s.ledger.isRecognised k b = false)
      (entered : enter { s with ledger := s.ledger.markSnapshot n b } k b x = .ok (plan, planned)) :
      Lists s k b n x plan

theorem Lists.unique {plan' : List Transfer} (lists : s.Lists k b n x plan)
    (lists' : s.Lists k b n x plan') : plan' = plan := by
  cases lists with
  | known entered =>
    obtain _ | ⟨fresh, -⟩ := lists'
    · rfl
    · cases entered.symm.trans fresh
  | planned fresh entered =>
    obtain entered' | ⟨-, entered'⟩ := lists'
    · cases fresh.symm.trans entered'
    · cases entered.symm.trans entered'
      rfl

theorem register_lists (ok : s.register k b n x = .ok s') :
    ∃ plan, s.Lists k b n x plan ∧ s.ledger.Logs s'.ledger plan.length := by
  obtain ⟨entered, rfl⟩ | ⟨fresh, plan, planned, entered, applied⟩ := register_cases ok
  · exact ⟨[], .known entered, .of_account rfl⟩
  · refine ⟨plan, .planned fresh entered, ?_⟩
    have logs := (enter_logs entered).trans (applyAll_logs applied)
    rw [Nat.zero_add] at logs
    exact ⟨logs.transfers, logs.inputs⟩

inductive Carries (s : Session) (o : Observation) :
    Except Refusal Classification → List Transfer → Prop
  | nothing {c} (other : ∀ b r, c ≠ .ok (.equivalent b r)) : Carries s o c []
  | registers {g s₁ b r x mid plan} (sighted : s.sight o = .ok (some g, s₁))
      (found : s₁.Finds g b r x mid) (lists : mid.Lists g.state b g.snapshot x plan) :
      Carries s o (.ok (.equivalent b r)) plan

theorem Carries.unique {c : Except Refusal Classification} {plan' : List Transfer}
    (carries : s.Carries o c plan) (carries' : s.Carries o c plan') : plan' = plan := by
  cases carries with
  | nothing other =>
    obtain _ | ⟨-, -, -⟩ := carries'
    · rfl
    · exact absurd rfl (other _ _)
  | registers sighted found lists =>
    obtain other | ⟨sighted', found', lists'⟩ := carries'
    · exact absurd rfl (other _ _)
    · cases sighted.symm.trans sighted'
      obtain ⟨-, -, rfl, rfl⟩ := found.unique found'
      exact lists.unique lists'

theorem sight_logs {seen : Option Sighting} (ok : s.sight o = .ok (seen, s')) :
    s.ledger.Logs s'.ledger 0 := by
  obtain ⟨n, ledger⟩ := sight_ledger ok
  rw [ledger]
  exact ⟨rfl, rfl⟩

theorem check_carries {c : Except Refusal Classification} (ok : s.check o = .ok (c, s')) :
    ∃ plan, s.Carries o c plan ∧ s.ledger.Logs s'.ledger plan.length := by
  obtain ⟨r, -, rfl, rfl⟩ | ⟨-, sighted, rfl⟩ | ⟨-, g, s₁, k, sighted, classified, rfl⟩ :=
    check_eq_ok ok
  · exact ⟨[], .nothing nofun, .of_account rfl⟩
  · exact ⟨[], .nothing nofun, sight_logs sighted⟩
  obtain ⟨-, account, other⟩ | ⟨b, r, x, mid, after, rfl, found, registered, -, account⟩ :=
    (classify_cases classified).registers
  · refine ⟨[], .nothing fun b r same => other b r (Except.ok.inj same), ?_⟩
    exact (sight_logs sighted).trans (.of_account account)
  · obtain ⟨plan, lists, logs⟩ := register_lists registered
    refine ⟨plan, .registers sighted found lists, ?_⟩
    have before := (sight_logs sighted).trans (.of_account found.passed.account)
    have logs := (before.trans logs).trans (.of_account account)
    simpa using logs

end Session

def Graph.Lasts (g g' : Graph) : Prop :=
  ∀ id e, g.transitions.get? id = some e → e.version = .running →
    ∃ e', g'.transitions.get? id = some e' ∧ e'.version = .running ∧ e'.source = e.source ∧
      e'.action = e.action

namespace Graph

variable {g g' g'' : Graph}

theorem Lasts.refl (g : Graph) : g.Lasts g := fun _ e live running => ⟨e, live, running, rfl, rfl⟩

theorem Lasts.trans (h : g.Lasts g') (h' : g'.Lasts g'') : g.Lasts g'' := by
  intro id e live running
  obtain ⟨e', live', running', source, action⟩ := h id e live running
  obtain ⟨e'', live'', running'', source', action'⟩ := h' id e' live' running'
  exact ⟨e'', live'', running'', source'.trans source, action'.trans action⟩

theorem Frames.lasts {gone : TransitionId → Prop} {silenced : StateId → ActionId → Prop}
    (frames : g.Frames g' gone silenced)
    (old : ∀ id e, g.transitions.get? id = some e → gone id → e.version = .base) : g.Lasts g' := by
  intro id e live running
  have stays : ¬ gone id := fun goes => absurd (running.symm.trans (old id e live goes)) nofun
  obtain ⟨e', live', endures⟩ := (frames.stays live stays).edge
  exact ⟨e', live', endures.version.trans running, endures.source, endures.action⟩

end Graph

namespace Model

variable {m : Model} {key : EdgeKey}

/-- The windows of the states that a key goes between are there, and so is its action. -/
structure Describes (m : Model) (k : EdgeKey) : Prop where
  source : ∀ st, m.graph.states.get? k.source = some st →
    m.catalog.windows.contains st.window = true
  dest : ∀ st, m.graph.states.get? k.dest = some st → m.catalog.windows.contains st.window = true
  action : m.actions.entries.contains k.action = true

theorem windowClass_succeeds_iff {s : StateId} {st : State}
    (live : m.graph.states.get? s = some st) :
    Succeeds (m.windowClass s) ↔ m.catalog.windows.contains st.window = true := by
  constructor
  · rintro ⟨_, ok⟩
    obtain ⟨st', live', ok⟩ := Arena.get_bind_eq_ok.1 ok
    cases live.symm.trans live'
    obtain ⟨w, hw, -⟩ := Arena.get_bind_eq_ok.1 ok
    exact Arena.contains_of_get? hw
  · intro window
    refine .get live ?_
    exact (Arena.get_succeeds window).bind fun _ _ => succeeds_pure _

theorem edgeLabel_succeeds_iff : Succeeds (m.edgeLabel key) ↔
    Succeeds (m.windowClass key.source) ∧ Succeeds (m.windowClass key.dest) ∧
      m.actions.entries.contains key.action = true := by
  constructor
  · rintro ⟨_, ok⟩
    obtain ⟨source, hs, ok⟩ := Checked.bind_eq_ok.1 ok
    obtain ⟨dest, hd, ok⟩ := Checked.bind_eq_ok.1 ok
    obtain ⟨a, ha, -⟩ := Checked.bind_eq_ok.1 ok
    obtain ⟨e, he, -⟩ := Arena.get_bind_eq_ok.1 ha
    exact ⟨⟨source, hs⟩, ⟨dest, hd⟩, Arena.contains_of_get? he⟩
  · rintro ⟨source, dest, action⟩
    refine source.bind fun _ _ => dest.bind fun _ _ => ?_
    refine Succeeds.bind ?_ fun _ _ => succeeds_pure _
    exact (Arena.get_succeeds action).bind fun _ _ => succeeds_pure _

end Model

structure Graph.Spans (g : Graph) (k : EdgeKey) : Prop where
  source : g.states.contains k.source = true
  dest : g.states.contains k.dest = true

/-- What a ledger says of edges: those that reproduce others are edges of the running version, with
the source and the action of all that they reproduce, and what is incorrect is between states. -/
structure Ledger.Attests (l : Ledger) (g : Graph) : Prop where
  filled : l.reproduced.Filled
  reproduced : ∀ {id ks}, l.reproduced.get? id = some ks → ∃ e,
    g.transitions.get? id = some e ∧ e.version = .running ∧
      ∀ k ∈ ks, k.source = e.source ∧ k.action = e.action
  incorrect : ∀ {k}, k ∈ l.incorrect → g.Spans k

namespace Ledger.Attests

variable {l l' : Ledger} {g g' : Graph}

theorem of_eq (h : l.Attests g) (reproduced : l'.reproduced = l.reproduced)
    (incorrect : l'.incorrect = l.incorrect) : l'.Attests g :=
  ⟨reproduced ▸ h.filled, reproduced ▸ h.reproduced, incorrect ▸ h.incorrect⟩

theorem lasts (h : l.Attests g) (lasts : g.Lasts g')
    (states : ∀ s, g.states.contains s = true → g'.states.contains s = true) : l.Attests g' where
  filled := h.filled
  reproduced found := by
    obtain ⟨e, live, running, keys⟩ := h.reproduced found
    obtain ⟨e', live', running', source, action⟩ := lasts _ e live running
    refine ⟨e', live', running', ?_⟩
    rw [source, action]
    exact keys
  incorrect mem := ⟨states _ (h.incorrect mem).source, states _ (h.incorrect mem).dest⟩

theorem reproduce (h : l.Attests g) {t : TransitionId} {e : Transition}
    (live : g.transitions.get? t = some e) (running : e.version = .running)
    {keys : List EdgeKey} (some : keys ≠ [])
    (shared : ∀ k ∈ keys, k.source = e.source ∧ k.action = e.action) :
    (l.reproduce t keys).Attests g where
  filled := h.filled.update t some
  reproduced {id ks} found := by
    rw [Ledger.reproduce, OrderedMap.get?_update] at found
    split at found
    · next same =>
      subst same
      cases found
      refine ⟨e, live, running, fun k mem => ?_⟩
      rcases OrderedSet.mem_insertMany.1 mem with old | new
      · cases before : l.reproduced.get? t with
        | none =>
          rw [before] at old
          exact absurd old (OrderedSet.not_mem_empty k)
        | some ks =>
          obtain ⟨e', live', -, keys⟩ := h.reproduced before
          cases live.symm.trans live'
          rw [before] at old
          exact keys k old
      · exact shared k new
    · exact h.reproduced found
  incorrect := h.incorrect

theorem markIncorrect (h : l.Attests g) {keys : List EdgeKey} (spans : ∀ k ∈ keys, g.Spans k) :
    (l.markIncorrect keys).Attests g where
  filled := h.filled
  reproduced := h.reproduced
  incorrect mem := (OrderedSet.mem_insertMany.1 mem).elim h.incorrect (spans _)

end Ledger.Attests

namespace Session

variable {s s' : Session} {o : Observation} {g : Sighting} {k b : StateId} {n : SnapshotId}
  {x : Matching}

theorem check_lasts (consistent : s.model.graph.Consistent) {c : Except Refusal Classification}
    (ok : s.check o = .ok (c, s')) : s.model.graph.Lasts s'.model.graph := by
  refine (check_frames consistent ok).lasts fun id e live drops => ?_
  cases drops with
  | pruned decided obsolete mem =>
    have live := s.noting_transitions o ▸ live
    exact ((noting_consistent consistent o).obsolete_edge obsolete mem live).2.1
  | redirected live' redirects =>
    cases live.symm.trans live'
    exact redirects.base

theorem register_lasts (consistent : s.model.graph.Consistent)
    (ok : s.register k b n x = .ok s') : s.model.graph.Lasts s'.model.graph := by
  have frames : s.model.graph.Frames _ _ fun _ _ => False := register_frames consistent ok
  refine frames.lasts fun id e live gone => ?_
  obtain ⟨e', live', redirects⟩ := gone
  cases live.symm.trans live'
  exact redirects.base

theorem register_attests {g : Graph} (h : s.ledger.Attests g) (ok : s.register k b n x = .ok s') :
    s'.ledger.Attests g := by
  obtain ⟨-, rfl⟩ | ⟨-, plan, planned, entered, applied⟩ := register_cases ok
  · exact h.of_eq rfl rfl
  · have book := (applyAll_keeps applied).book.trans (enter_aside entered).book
    exact h.of_eq (congrArg Ledger.reproduced book :) (congrArg Ledger.incorrect book :)

theorem Passed.attests {after : Graph} (h : s.ledger.Attests after)
    (spans : ∀ k ∈ g.pruned, after.Spans k) (passed : Passed g s s') : s'.ledger.Attests after := by
  rcases passed.2 with same | same
  · rw [same]
    exact h
  · rw [same]
    exact h.markIncorrect spans

theorem Answers.attests {after : Graph} {c : Classification} (answers : s.Answers g c s')
    (h : s.ledger.Attests after) (spans : ∀ k ∈ g.pruned, after.Spans k) {e : Transition}
    (live : after.transitions.get? g.transition = some e) (running : e.version = .running)
    (shared : ∀ k ∈ g.pruned, k.source = e.source ∧ k.action = e.action) :
    s'.ledger.Attests after := by
  cases answers with
  | homeScreen => exact h
  | knownNew => exact h.of_eq rfl rfl
  | cached => exact h
  | observedBase => exact h.of_eq rfl rfl
  | equivalent _ found registered =>
    exact register_attests (found.passed.attests h spans) registered
  | reproduces _ found registered some within =>
    have attests := register_attests (found.passed.attests h spans) registered
    exact attests.reproduce live running some fun k mem => shared k (within k mem)
  | new _ passed =>
    have attests := passed.attests h spans
    exact attests.of_eq rfl rfl

theorem sight_pruned (consistent : s.model.graph.Consistent) (ok : s.sight o = .ok (some g, s')) :
    g.transition = o.transition ∧ ∀ k ∈ g.pruned, s.model.graph.Spans k ∧
      s.model.graph.Leaves o.transition k.source k.action := by
  obtain ⟨named, ids, between, obsolete, removed, -⟩ := sight_steps consistent ok
  refine ⟨named, fun k mem => ?_⟩
  obtain ⟨id, listed, e, noted, rfl⟩ := Graph.prune_key removed mem
  have stale := (noting_consistent consistent o).obsolete_edge obsolete listed noted
  have live := s.noting_transitions o ▸ noted
  refine ⟨⟨consistent.source live, consistent.dest live⟩, ?_⟩
  obtain ⟨u, hu, source, action⟩ := stale.1
  exact ⟨u, s.noting_transitions o ▸ hu, source, action⟩

theorem check_extends {c : Except Refusal Classification} (ok : s.check o = .ok (c, s')) :
    s.model.Extends s'.model := by
  have noted : s.model.Extends (s.noting o).model :=
    Model.Edit.extends (.attachSnapshot o.state o.snapshot)
  obtain ⟨r, -, rfl, rfl⟩ | ⟨-, sighted, rfl⟩ | ⟨-, g, s₁, k, sighted, classified, rfl⟩ :=
    check_eq_ok ok
  · exact ⟨id, id, id⟩
  · exact noted.trans (sight_keeps sighted).model.extends
  · have sight := (sight_keeps sighted).model.extends
    exact (noted.trans sight).trans (classify_cases classified).keeps.extends

theorem check_attests (consistent : s.model.graph.Consistent)
    (attests : s.ledger.Attests s.model.graph)
    (running : ∀ e, s.model.graph.transitions.get? o.transition = some e → e.version = .running)
    {c : Except Refusal Classification} (ok : s.check o = .ok (c, s')) :
    s'.ledger.Attests s'.model.graph := by
  have lasts := check_lasts consistent ok
  have grown := check_extends ok
  have kept := attests.lasts lasts fun _ => grown.state
  obtain ⟨r, -, rfl, rfl⟩ | ⟨-, sighted, rfl⟩ | ⟨live, g, s₁, k, sighted, classified, rfl⟩ :=
    check_eq_ok ok
  · exact attests
  · obtain ⟨-, -, -, -, ⟨-, rfl⟩ | ⟨-, -, -, -, ⟨⟩⟩⟩ := sight_eq_ok sighted
    exact kept
  have book := (sight_book sighted).1
  have before : s₁.ledger.Attests s'.model.graph :=
    kept.of_eq (congrArg Ledger.reproduced book :) (congrArg Ledger.incorrect book :)
  obtain ⟨named, pruned⟩ := sight_pruned consistent sighted
  obtain ⟨e, observed⟩ := Arena.contains_iff.1 live.transition
  obtain ⟨e', live', running', source, action⟩ := lasts _ e observed (running e observed)
  refine (classify_cases classified).attests before (fun k mem => ?_) (named ▸ live') running'
    fun k mem => ?_
  · exact ⟨grown.state (pruned k mem).1.source, grown.state (pruned k mem).1.dest⟩
  · obtain ⟨u, hu, source', action'⟩ := (pruned k mem).2
    cases observed.symm.trans hu
    exact ⟨source'.symm.trans source.symm, action'.symm.trans action.symm⟩

/-- Runs in which only edges of the running version are observed, with the transfers that are
carried out. In between anything may be done to the model, if it takes no edge of the running
version away and keeps these edges as they are. -/
inductive Runs (s : Session) : List Transfer → Session → Prop
  | start : Runs s [] s
  | edit {done s₁ m} (run : Runs s done s₁) (changes : s₁.model.graph.Changes m.graph)
      (lasts : s₁.model.graph.Lasts m.graph) : Runs s done { s₁ with model := m }
  | check {done s₁ o c s₂ plan} (run : Runs s done s₁)
      (running : ∀ e, s₁.model.graph.transitions.get? o.transition = some e → e.version = .running)
      (ok : s₁.check o = .ok (c, s₂)) (carries : s₁.Carries o c plan) : Runs s (done ++ plan) s₂
  | register {done s₁ k b n x s₂ plan} (run : Runs s done s₁)
      (ok : s₁.register k b n x = .ok s₂) (lists : s₁.Lists k b n x plan) :
      Runs s (done ++ plan) s₂

structure Balanced (s : Session) (n : Nat) : Prop where
  graph : s.model.graph.Consistent
  attests : s.ledger.Attests s.model.graph
  transfers : s.ledger.tally.copied + s.ledger.tally.merged = n
  inputs : s.ledger.tally.migrated = s.ledger.inputImages.size

theorem Balanced.start {m : Model} (made : Graph.Changes {} m.graph) : Balanced { model := m } 0 :=
  ⟨.changes .empty made, ⟨nofun, nofun, nofun⟩, rfl, rfl⟩

theorem Balanced.logs {i j : Nat} (h : s.Balanced i) (graph : s'.model.graph.Consistent)
    (attests : s'.ledger.Attests s'.model.graph) (logs : s.ledger.Logs s'.ledger j) :
    s'.Balanced (i + j) := by
  refine ⟨graph, attests, logs.transfers.trans (by rw [h.transfers]), ?_⟩
  have := logs.inputs
  have := h.inputs
  omega

theorem Runs.balanced {i : Nat} {plan : List Transfer} (run : s.Runs plan s') (h : s.Balanced i) :
    s'.Balanced (i + plan.length) ∧ s.model.graph.Lasts s'.model.graph := by
  induction run with
  | start => exact ⟨h, .refl _⟩
  | edit _ changes lasts ih =>
    obtain ⟨before, lasted⟩ := ih
    refine ⟨⟨before.graph.changes changes, ?_, before.transfers, before.inputs⟩,
      lasted.trans lasts⟩
    exact before.attests.lasts lasts fun _ => changes.state
  | check _ running ok carries ih =>
    obtain ⟨before, lasted⟩ := ih
    obtain ⟨plan, carries', logs⟩ := check_carries ok
    cases carries.unique carries'
    refine ⟨?_, lasted.trans (check_lasts before.graph ok)⟩
    rw [List.length_append, ← Nat.add_assoc]
    exact before.logs (check_consistent before.graph ok)
      (check_attests before.graph before.attests running ok) logs
  | register _ ok lists ih =>
    obtain ⟨before, lasted⟩ := ih
    obtain ⟨plan, lists', logs⟩ := register_lists ok
    cases lists.unique lists'
    have lasts := register_lasts before.graph ok
    have attests := before.attests.lasts lasts fun _ => (register_keeps ok).extends.state
    refine ⟨?_, lasted.trans lasts⟩
    rw [List.length_append, ← Nat.add_assoc]
    exact before.logs (register_consistent before.graph ok) (register_attests attests ok) logs

theorem Balanced.reproduced {i : Nat} (h : s.Balanced i) :
    ((s.model.graph.transitionsOf .running).filter fun t => s.ledger.reproduced.contains t).length =
      s.ledger.reproduced.size := by
  rw [OrderedMap.size_eq]
  refine List.Perm.length_eq ((List.perm_ext_iff_of_nodup ?_ s.ledger.reproduced.nodup).2 ?_)
  · refine s.model.graph.transitions.handles_nodup.sublist ?_
    exact List.filter_sublist.trans (List.filter_sublist.map Prod.fst)
  intro t
  change _ ↔ t ∈ s.ledger.reproduced.keys
  rw [List.mem_filter, OrderedMap.mem_keys_iff, and_iff_right_iff_imp]
  intro entry
  obtain ⟨ks, found⟩ := OrderedMap.contains_iff.1 entry
  obtain ⟨e, live, running, -⟩ := h.attests.reproduced found
  exact List.mem_map.2 ⟨(t, e), List.mem_filter.2 ⟨Arena.mem_entries.2 live, by simpa⟩, rfl⟩

theorem Balanced.report {i : Nat} (h : s.Balanced i) {r : Report} (ok : s.report = .ok r) :
    r.equivalentTransitions + r.newTransitions = r.runningTransitions ∧
      r.copiedTransitions + r.mergedTransitions = i ∧
      r.migratedInputs = s.ledger.inputImages.size := by
  obtain ⟨labels, -, done⟩ := Checked.bind_eq_ok.1 ok
  cases done
  refine ⟨?_, h.transfers, h.inputs⟩
  dsimp only
  rw [← h.reproduced]
  exact (List.length_eq_length_filter_add _).symm

theorem Balanced.report_succeeds_iff {i : Nat} (h : s.Balanced i) :
    Succeeds s.report ↔ ∀ k ∈ s.ledger.incorrect, s.model.Describes k := by
  have label : ∀ k ∈ s.ledger.incorrect, Succeeds (s.model.edgeLabel k) ↔ s.model.Describes k := by
    intro k mem
    obtain ⟨source, hs⟩ := Arena.contains_iff.1 (h.attests.incorrect mem).source
    obtain ⟨dest, hd⟩ := Arena.contains_iff.1 (h.attests.incorrect mem).dest
    rw [Model.edgeLabel_succeeds_iff, Model.windowClass_succeeds_iff hs,
      Model.windowClass_succeeds_iff hd]
    constructor
    · rintro ⟨source, dest, action⟩
      refine ⟨fun st live => ?_, fun st live => ?_, action⟩
      · cases hs.symm.trans live
        exact source
      · cases hd.symm.trans live
        exact dest
    · exact fun there => ⟨there.source _ hs, there.dest _ hd, there.action⟩
  constructor
  · rintro ⟨r, ok⟩ k mem
    obtain ⟨labels, labelled, -⟩ := Checked.bind_eq_ok.1 ok
    obtain ⟨_, one⟩ := flatMapChecked_each labelled mem
    obtain ⟨text, one, -⟩ := Checked.bind_eq_ok.1 one
    exact (label k mem).1 ⟨text, one⟩
  · intro there
    refine Succeeds.bind ?_ fun _ _ => succeeds_pure _
    refine flatMapChecked_succeeds fun k mem => ?_
    exact ((label k mem).2 (there k mem)).bind fun _ _ => succeeds_pure _

/-- In such a run no edge of the running version goes, each edge with an entry for what it
reproduces is one of them, and the counts of the report add up. There is a report exactly if nothing
is missing that an incorrect edge is labelled with. -/
theorem Runs.adds_up {m : Model} (made : Graph.Changes {} m.graph) {before after : List Transfer}
    (run : Runs { model := m } before s) (on : s.Runs after s') :
    s.model.graph.Lasts s'.model.graph ∧
    (∀ id ks, s'.ledger.reproduced.get? id = some ks → ∃ e,
      s'.model.graph.transitions.get? id = some e ∧ e.version = .running ∧ ks.isEmpty = false ∧
        ∀ k ∈ ks, k.source = e.source ∧ k.action = e.action) ∧
    (∀ r, s'.report = .ok r →
      r.equivalentTransitions + r.newTransitions = r.runningTransitions ∧
      r.copiedTransitions + r.mergedTransitions = (before ++ after).length ∧
      r.migratedInputs = s'.ledger.inputImages.size) ∧
    ((∃ r, s'.report = .ok r) ↔ ∀ k ∈ s'.ledger.incorrect, s'.model.Describes k) := by
  have balanced := (run.balanced (.start made)).1
  rw [Nat.zero_add] at balanced
  obtain ⟨balanced, lasts⟩ := on.balanced balanced
  rw [← List.length_append] at balanced
  refine ⟨lasts, fun id ks found => ?_, fun r => balanced.report, balanced.report_succeeds_iff⟩
  obtain ⟨e, live, running, keys⟩ := balanced.attests.reproduced found
  exact ⟨e, live, running, balanced.attests.filled id ks found, keys⟩

end Session

def Model.foreseen : Model where
  catalog := launched.catalog
  actions := launched.actions
  graph := Graph.withEdge
    { launched.graph with transitions :=
        launched.graph.transitions.modify ⟨1⟩ fun t => { t with action := ⟨0⟩ } }
    { source := ⟨1⟩, action := ⟨1⟩, dest := ⟨0⟩, version := .base } ∅
  snapshots := launched.snapshots

namespace Session

theorem built_foreseen : Built { model := .foreseen } := by
  have back := built_launched.edit
    (@Model.Edit.setTransition _ ⟨1⟩ (.action ⟨0⟩) _ rfl rfl)
  exact back.withEdge { source := ⟨1⟩, action := ⟨1⟩, dest := ⟨0⟩, version := .base } ∅ rfl rfl
    (.of_all rfl rfl)

theorem changes_foreseen : Graph.Changes {} Model.foreseen.graph :=
  @Graph.changes_of_applyAll .stops {} _
    [.addState { window := ⟨0⟩, version := .base, isInitial := true },
      .addState { window := ⟨0⟩, version := .base },
      .addState { window := ⟨0⟩, version := .running },
      .addTransition { source := ⟨1⟩, action := ⟨0⟩, dest := ⟨0⟩, version := .base } ∅,
      .addTransition { source := ⟨1⟩, action := ⟨0⟩, dest := ⟨2⟩, version := .running } ∅,
      .addTransition { source := ⟨1⟩, action := ⟨1⟩, dest := ⟨0⟩, version := .base } ∅] rfl

theorem adds_up_foreseen : ∃ plan s' r, Runs { model := .foreseen } plan s' ∧
    s'.report = .ok r ∧ r.equivalentTransitions = 1 ∧ r.newTransitions = 0 ∧
    r.runningTransitions = 1 ∧ plan.length = 1 := by
  have counts : ((check { model := .foreseen } ⟨⟨0⟩, ⟨2⟩, ⟨1⟩, none⟩).toOption.bind
      fun x => x.2.report.toOption.map fun r =>
        (r.equivalentTransitions, r.newTransitions, r.copiedTransitions + r.mergedTransitions)) =
      some (1, 0, 1) := by decide +kernel
  obtain ⟨⟨c, s'⟩, checked, counts⟩ := Option.bind_eq_some_iff.1 counts
  obtain ⟨r, reported, counts⟩ := Option.map_eq_some_iff.1 counts
  have checked := toOption_eq_some.1 checked
  have reported := toOption_eq_some.1 reported
  obtain ⟨plan, carries, -⟩ := check_carries checked
  have running : ∀ e, Model.foreseen.graph.transitions.get? ⟨1⟩ = some e →
      e.version = .running := by
    rintro _ ⟨⟩
    rfl
  have run : Runs { model := .foreseen } plan s' := Runs.start.check running checked carries
  obtain ⟨-, -, adds, -⟩ := Runs.adds_up changes_foreseen .start run
  obtain ⟨balance, transfers, -⟩ := adds r reported
  obtain ⟨equivalent, rest⟩ := Prod.mk.inj counts
  obtain ⟨new, carried⟩ := Prod.mk.inj rest
  exact ⟨plan, s', r, run, reported, equivalent, new, balance.symm.trans (by rw [equivalent, new]),
    transfers.symm.trans carried⟩

end Session

end ScreenGraph
