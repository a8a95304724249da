import ScreenGraph.Proofs.Copying
import ScreenGraph.Proofs.Preserving

namespace ScreenGraph

def Graph.Exits (g : Graph) (k : StateId) (x : ActionId) : Prop :=
  ∃ id, g.Leaves id k x

def Model.Names (m : Model) : TransferAction → ActionId → Prop
  | .kept a, x => x = a
  | .retargeted w a, x => m.actions.find? w a = some x

theorem Model.Names.keeps {m m' : Model} {a : TransferAction} {x : ActionId} (h : m.Names a x)
    (k : m.Keeps m') : m'.Names a x := by
  cases a with
  | kept id => exact h
  | retargeted w a => exact k.interned h

theorem Graph.Migrated.exits {g g' : Graph} {o b : StateId} {moves : Transition → Prop}
    (h : g.Migrated g' o b moves) {k : StateId} {x : ActionId} (exit : g.Exits k x) :
    g'.Exits k x := by
  obtain ⟨id, e, live, rfl, rfl⟩ := exit
  by_cases moved : e.dest = b ∧ moves e
  · obtain ⟨id', e', -, -, live', source, action, -⟩ := h.carried live moved.1 moved.2
    exact ⟨id', e', live', source, action⟩
  · obtain ⟨e', live', same⟩ := (h.stays live moved).edge
    exact ⟨id, e', live', Transition.source_eq same, Transition.action_eq same⟩

theorem Graph.Frames.explicit {g g' : Graph} {gone : TransitionId → Prop}
    (h : g.Frames g' gone fun _ _ => False) {id : TransitionId} {e : Transition}
    (observed : e.isImplicit = false) :
    g'.transitions.get? id = some e ↔ g.transitions.get? id = some e ∧ ¬ gone id := by
  constructor
  · intro live'
    rcases h.origin live' with ⟨e₀, live, stays⟩ | new
    · obtain ⟨e', after, endures⟩ := (h.stays live stays).edge
      cases live'.symm.trans after
      rw [endures.eq_of_explicit (endures.isImplicit.symm.trans observed)]
      exact ⟨live, stays⟩
    · exact absurd (new.inferred.implicit.symm.trans observed) nofun
  · rintro ⟨live, stays⟩
    obtain ⟨e', live', endures⟩ := (h.stays live stays).edge
    rw [live', endures.eq_of_explicit observed]

namespace Session

variable {s s' planned : Session} {o b k : StateId} {w : WindowId} {matching : Matching}
  {plan : List Transfer} {x : ActionId}

theorem transferAction_names {t : Transfer} {old : Transition} {a : ActionId}
    (ok : s.transferAction t old = .ok (a, s')) : s'.model.Names t.action a := by
  cases action : t.action with
  | kept id => exact transferAction_kept ok action
  | retargeted w a => exact transferAction_interned ok action

theorem applyTransfer_exits {t : Transfer} (ok : s.applyTransfer t = .ok s')
    (exit : s'.model.graph.Exits k x) :
    s.model.graph.Exits k x ∨ k = t.source ∧ s'.model.Names t.action x := by
  obtain ⟨old, a, s₁, g, -, prepared, carried, model, -, -⟩ := applyTransfer_eq_ok ok
  obtain ⟨id, e, live, rfl, rfl⟩ := exit
  rw [model] at live ⊢
  have before : g.transitions.get? id = some e := by
    split at live
    · exact (Graph.of_get?_withoutEdge live).1
    · exact live
  rcases carried.origin before with ⟨e₀, live₀, same⟩ | rfl
  · exact .inl ⟨id, e₀, live₀, (Transition.source_eq same).symm, (Transition.action_eq same).symm⟩
  · exact .inr ⟨rfl, transferAction_names prepared⟩

theorem applyAll_exits (ok : s.applyAll plan = .ok s') (exit : s'.model.graph.Exits k x) :
    s.model.graph.Exits k x ∨ ∃ t ∈ plan, k = t.source ∧ s'.model.Names t.action x := by
  induction plan generalizing s with
  | nil =>
    cases ok
    exact .inl exit
  | cons t rest ih =>
    obtain ⟨s₁, first, followed⟩ := Checked.bind_eq_ok.1 ok
    rcases ih followed with before | ⟨u, mem, planned⟩
    · rcases applyTransfer_exits first before with old | ⟨source, named⟩
      · exact .inl old
      · exact .inr ⟨t, by simp, source, named.keeps (applyAll_keeps followed).model⟩
    · exact .inr ⟨u, by simp [mem], planned⟩

theorem plan_exits (consistent : s.model.graph.Consistent)
    (ok : s.plan o b matching = .ok (plan, planned)) {so : State}
    (observed : s.model.graph.states.get? o = some so) {t : Transfer} (mem : t ∈ plan) :
    (∃ a, t.action = .kept a ∧ s.model.graph.Exits t.source a) ∨
      t.source = o ∧ ∃ id e a, s.model.graph.transitions.get? id = some e ∧ e.source = b ∧
        t.action = .retargeted so.window a ∧ s.Copies so.window matching e a t.dest := by
  obtain ⟨so', ids, ins, outs, hso, hids, hins, houts, rfl, -⟩ := plan_eq_ok ok
  cases observed.symm.trans hso
  rcases List.mem_append.1 mem with mem | mem
  · obtain ⟨e, -, planned⟩ := mem_plannedIncoming hins mem
    exact .inl ⟨e.action, planned.action, t.baseEdge, e, planned.edge, planned.source.symm, rfl⟩
  · obtain ⟨id, listed, found⟩ := (mem_planned houts).1 mem
    obtain ⟨e, a, live, action, copies⟩ := copies_of_planned found
    obtain ⟨-, e', planned⟩ := outgoingFinding_planned found
    obtain ⟨st, hst, rfl⟩ := Graph.outgoing_eq_ok hids
    obtain ⟨e'', live'', leaves⟩ := (consistent.listed hst id).1 listed
    cases live.symm.trans live''
    exact .inr ⟨planned.source, id, e, a, live, leaves, action, copies⟩

structure Pairs (s : Session) (o b : StateId) (w : WindowId) (matching : Matching) : Prop where
  observed : ∃ so, s.model.graph.states.get? o = some so ∧ so.version = .running ∧ so.window = w
  base : ∃ sb, s.model.graph.states.get? b = some sb ∧ sb.version = .base
  placed : s.Places o matching

theorem Pairs.keeps (h : s.Pairs o b w matching) (k : s.model.Keeps s'.model) :
    s'.Pairs o b w matching := by
  obtain ⟨so, observed, running, window⟩ := h.observed
  obtain ⟨sb, base, old⟩ := h.base
  obtain ⟨so', observed', same⟩ := k.state observed
  obtain ⟨sb', base', same'⟩ := k.state base
  refine ⟨⟨so', observed', ?_, (State.window_eq same).trans window⟩, ⟨sb', base', ?_⟩,
    h.placed.keeps k⟩
  · exact (congrArg State.version same :).trans running
  · exact (congrArg State.version same' :).trans old

/-- The actions that a registration copies to the observed state. For a pair that is entered already
there are none. -/
def Gains (s : Session) (o b : StateId) (w : WindowId) (matching : Matching) (m : Model)
    (x : ActionId) : Prop :=
  s.ledger.isRecognised o b = false ∧
    ∃ id e a d, s.model.graph.transitions.get? id = some e ∧ e.source = b ∧
      Copies { s with ledger := s.ledger.recognise o b } w matching e a d ∧
      m.actions.find? w a = some x

structure Registers (s s' : Session) (o b : StateId) (w : WindowId) (matching : Matching) :
    Prop where
  sound : s'.Sound
  traces : s'.ledger.Traces s'.model
  keeps : s.model.Keeps s'.model
  equivalents : ∀ k ≠ o, s'.ledger.equivalentsOf k = s.ledger.equivalentsOf k
  exits : ∀ k x, s'.model.graph.Exits k x ↔
    s.model.graph.Exits k x ∨ k = o ∧ s.Gains o b w matching s'.model x
  copied : ∀ {id e a d}, s.ledger.isRecognised o b = false →
    s.model.graph.transitions.get? id = some e → e.source = b →
    Copies { s with ledger := s.ledger.recognise o b } w matching e a d →
    ∃ x, s'.model.actions.find? w a = some x
  explicit : ∀ {id e}, e.isImplicit = false → (s'.model.graph.transitions.get? id = some e ↔
    s.model.graph.transitions.get? id = some e ∧ ¬ s.Redirects o b e)

theorem register_equivalents {n : SnapshotId} (ok : s.register o b n matching = .ok s')
    (other : k ≠ o) : s'.ledger.equivalentsOf k = s.ledger.equivalentsOf k := by
  obtain ⟨-, rfl⟩ | ⟨-, plan, planned, entered, applied⟩ := register_cases ok
  · rfl
  · have book := (applyAll_keeps applied).book.trans (enter_aside entered).book
    have equivalents : s'.ledger.equivalents = s.ledger.equivalents.addTo o b :=
      (congrArg Ledger.equivalents book :)
    unfold Ledger.equivalentsOf
    rw [equivalents, OrderedMap.get?_addTo, if_neg other.symm]

theorem Begins.exits {mid : Session} (h : s.Begins o b matching mid planned plan) {so : State}
    (observed : s.model.graph.states.get? o = some so) (applied : planned.applyAll plan = .ok s')
    (exit : s'.model.graph.Exits k x) :
    s.model.graph.Exits k x ∨ k = o ∧
      ∃ id e a d, s.model.graph.transitions.get? id = some e ∧ e.source = b ∧
        Copies { s with ledger := s.ledger.recognise o b } so.window matching e a d ∧
        s'.model.actions.find? so.window a = some x := by
  have same : planned.model.graph = s.model.graph :=
    (plan_aside h.made).model.graph.trans h.graph
  rcases applyAll_exits applied exit with old | ⟨t, mem, source, named⟩
  · exact .inl (same ▸ old)
  rw [← h.graph] at observed
  rcases plan_exits h.sound.model.graph h.made observed mem with
    ⟨a, kept, old⟩ | ⟨starts, id, e, a, live, leaves, action, copies⟩
  · rw [kept] at named
    cases named
    rw [h.graph] at old
    exact .inl (source ▸ old)
  · rw [action] at named
    rw [h.graph] at live
    exact .inr ⟨source.trans starts, id, e, a, t.dest, live, leaves, h.copies.1 copies, named⟩

theorem Begins.copied {mid : Session} (h : s.Begins o b matching mid planned plan) {so : State}
    (observed : s.model.graph.states.get? o = some so) (applied : planned.applyAll plan = .ok s')
    {id : TransitionId} {e : Transition} {a : Action} {d : StateId}
    (live : s.model.graph.transitions.get? id = some e) (leaves : e.source = b)
    (copies : Copies { s with ledger := s.ledger.recognise o b } so.window matching e a d) :
    ∃ x, s'.model.actions.find? so.window a = some x ∧ s'.model.graph.Exits o x := by
  rw [← h.graph] at observed live
  obtain ⟨c, covered⟩ := OrderedMap.contains_iff.1
    ((h.sound.model.graph.coverages id).trans (Arena.contains_of_get? live))
  obtain ⟨-, id', e', c', live', source, action, -⟩ :=
    applyAll_copies h.sound h.made applied observed live leaves (h.copies.2 copies) covered
  exact ⟨e'.action, action, id', e', live', source, rfl⟩

theorem Sound.register_first (h : s.Sound) (traces : s.ledger.Traces s.model)
    (pair : s.Pairs o b w matching) (fresh : s.ledger.isRecognised o b = false) {n : SnapshotId}
    (registered : s.register o b n matching = .ok s') :
    (∀ k x, s'.model.graph.Exits k x ↔
      s.model.graph.Exits k x ∨ k = o ∧ s.Gains o b w matching s'.model x) ∧
    ∀ {id e a d}, s.model.graph.transitions.get? id = some e → e.source = b →
      Copies { s with ledger := s.ledger.recognise o b } w matching e a d →
      ∃ x, s'.model.actions.find? w a = some x := by
  obtain ⟨so, observed, running, rfl⟩ := pair.observed
  obtain ⟨sb, base, old⟩ := pair.base
  obtain ⟨_, mid, planned, plan, again, begins, applied⟩ :=
    h.register_begins traces observed running base (of_decide_eq_false fresh) pair.placed n
  cases registered.symm.trans again
  refine ⟨fun k x => ⟨?_, ?_⟩, ?_⟩
  · intro exit
    rcases begins.exits observed applied exit with old | ⟨rfl, gained⟩
    · exact .inl old
    · exact .inr ⟨rfl, fresh, gained⟩
  · rintro (exit | ⟨rfl, -, id, e, a, d, live, leaves, copies, named⟩)
    · exact (begins.migrates observed running base old applied).exits exit
    · obtain ⟨x', named', exit⟩ := begins.copied observed applied live leaves copies
      cases named.symm.trans named'
      exact exit
  · intro id e a d live leaves copies
    obtain ⟨x, named, -⟩ := begins.copied observed applied live leaves copies
    exact ⟨x, named⟩

theorem Sound.registers_pair (h : s.Sound) (traces : s.ledger.Traces s.model)
    (pair : s.Pairs o b w matching) (n : SnapshotId) :
    ∃ s', s.register o b n matching = .ok s' ∧ s.Registers s' o b w matching := by
  obtain ⟨so, observed, running, -⟩ := pair.observed
  obtain ⟨sb, base, -⟩ := pair.base
  have state := Arena.contains_of_get? observed
  have root := Arena.contains_of_get? base
  obtain ⟨s', registered⟩ := h.register_succeeds state root pair.placed n
  refine ⟨s', registered, h.register state root pair.placed registered,
    register_traces traces observed running root registered, register_keeps registered,
    fun k other => register_equivalents registered other, ?exits, ?copied, ?explicit⟩
  case exits =>
    cases entered : s.ledger.isRecognised o b with
    | true =>
      obtain ⟨-, rfl⟩ | ⟨fresh, -⟩ := register_cases registered
      · simp [Gains, entered]
      · exact absurd (entered.symm.trans fresh) nofun
    | false => exact (h.register_first traces pair entered registered).1
  case copied =>
    intro id e a d fresh
    exact (h.register_first traces pair fresh registered).2
  case explicit =>
    intro id e explicit
    have frames : s.model.graph.Frames s'.model.graph _ (fun _ _ => False) :=
      register_frames h.model.graph registered
    rw [frames.explicit explicit]
    refine and_congr_right fun live => not_congr ⟨?_, fun redirects => ⟨e, live, redirects⟩⟩
    rintro ⟨e', live', redirects⟩
    cases live.symm.trans live'
    exact redirects

def Labelled (s : Session) (k : StateId) (w : WindowId) (a : Action) : Prop :=
  ∃ x, s.model.actions.find? w a = some x ∧ s.model.graph.Exits k x

/-- An edge that was observed in the base version, from one base state to another, is open to every
run and acts on an element that shows no web page and that the matching has a partner for. Its copy
acts on the partner. -/
structure Connects (s : Session) (b₁ b₂ : StateId) (matching : Matching) (e : Transition)
    (a : Action) : Prop where
  source : e.source = b₁
  dest : e.dest = b₂
  version : e.version = .base
  explicit : e.isImplicit = false
  unguarded : e.guards = ∅
  action : ∃ entry v avm i, s.model.actions.entries.get? e.action = some entry ∧
    entry.action.target = some v ∧ s.model.avms.avms.get? v = some avm ∧ avm.isWebView = false ∧
    matching.image? v = some i ∧ a = { entry.action with target := some i }

theorem Connects.keeps {b₁ b₂ : StateId} {e : Transition} {a : Action}
    (h : s.Connects b₁ b₂ matching e a) (k : s.model.Keeps s'.model) :
    s'.Connects b₁ b₂ matching e a := by
  obtain ⟨entry, v, avm, i, hentry, target, havm, shown, image, rfl⟩ := h.action
  obtain ⟨entry', hentry', same⟩ := k.actions hentry
  refine { h with action := ⟨entry', v, avm, i, hentry', same ▸ target, ?_, shown, image, ?_⟩ }
  · rw [k.avms]
    exact havm
  · rw [same]

theorem Connects.copies {b₁ b₂ : StateId} {e : Transition} {a : Action}
    (h : s.Connects b₁ b₂ matching e a) (apart : b₁ ≠ b₂) (w : WindowId) :
    s.Copies w matching e a b₂ := by
  have forward : e.isNavigateBack = false := by
    rw [Transition.isNavigateBack, h.unguarded]
    exact decide_eq_false (OrderedSet.not_mem_empty _)
  refine ⟨h.explicit, ?_, h.version, h.action, ?_, .inl ⟨forward, h.dest.symm⟩, ?_⟩
  · rw [h.source, h.dest]
    exact apart
  · rw [h.unguarded]
    exact .inl rfl
  · intro back
    exact absurd (forward.symm.trans back) nofun

theorem Connects.redirects {b₁ b₂ : StateId} {e : Transition} {a : Action}
    (h : s.Connects b₁ b₂ matching e a) (apart : b₁ ≠ b₂) :
    s.Redirects o b₂ e ↔ s.ledger.isRecognised o b₂ = false ∧ b₁ ∉ s.ledger.observedBase := by
  have resolves : Resolves { s with ledger := s.ledger.recognise o b₂ } e.guards := by
    rw [h.unguarded]
    exact .inl rfl
  constructor
  · rintro ⟨fresh, -, ⟨-, -, unseen⟩, -⟩
    exact ⟨fresh, h.source ▸ unseen⟩
  · rintro ⟨fresh, unseen⟩
    refine ⟨fresh, h.dest, ⟨h.version, ?_, ?_⟩, resolves⟩
    · rw [h.source]
      exact apart
    · rw [h.source]
      exact unseen

theorem Registers.gains {t : Session} {o₁ o₂ b₁ b₂ : StateId} {w₁ w₂ : WindowId}
    {x₁ x₂ : Matching} {m : Model} (h : s.Registers t o₂ b₂ w₂ x₂) (apart : o₁ ≠ o₂) :
    t.Gains o₁ b₁ w₁ x₁ m x ↔ s.ledger.isRecognised o₁ b₁ = false ∧
      ∃ id e a d, (s.model.graph.transitions.get? id = some e ∧ ¬ s.Redirects o₂ b₂ e) ∧
        e.source = b₁ ∧ Copies { t with ledger := t.ledger.recognise o₁ b₁ } w₁ x₁ e a d ∧
        m.actions.find? w₁ a = some x := by
  unfold Gains Ledger.isRecognised
  rw [h.equivalents o₁ apart]
  refine and_congr_right fun _ => exists_congr fun id => exists_congr fun e => exists_congr fun a =>
    exists_congr fun d => ⟨?_, ?_⟩
  · rintro ⟨live, leaves, copies, named⟩
    exact ⟨(h.explicit copies.explicit).1 live, leaves, copies, named⟩
  · rintro ⟨stays, leaves, copies, named⟩
    exact ⟨(h.explicit copies.explicit).2 stays, leaves, copies, named⟩

theorem Registers.labelled {t : Session} {o₁ b₁ b₂ : StateId} {w₁ : WindowId} {x₁ : Matching}
    (h : s.Registers t o₁ b₁ w₁ x₁) (apart : b₁ ≠ b₂) (fresh : s.ledger.isRecognised o₁ b₁ = false)
    {id : TransitionId} {e : Transition} {a : Action}
    (live : s.model.graph.transitions.get? id = some e) (connects : s.Connects b₁ b₂ x₁ e a) :
    t.Labelled o₁ w₁ a := by
  have entered : Connects { s with ledger := s.ledger.recognise o₁ b₁ } b₁ b₂ x₁ e a :=
    connects.keeps (.refl s.model)
  have copies := entered.copies apart w₁
  obtain ⟨x, named⟩ := h.copied fresh live connects.source copies
  refine ⟨x, named, (h.exits o₁ x).2 (.inr ⟨rfl, fresh, ?_⟩)⟩
  exact ⟨id, e, a, b₂, live, connects.source, copies, named⟩

/-- Two pairs registered one after the other. If the pair of its source comes first, an edge from
the one base state to the other is copied and then moves. If the pair of its end comes first, the
edge moves, unless its source has been observed, and is not copied: to the actions that lead out of
the observed state only those of edges that stay are added. -/
theorem Used.register_either_order (used : s.Used) (wf : s.model.WellFormed)
    {o₁ o₂ b₁ b₂ : StateId} {w₁ w₂ : WindowId} {x₁ x₂ : Matching} (observed : o₁ ≠ o₂)
    (base : b₁ ≠ b₂) (pair₁ : s.Pairs o₁ b₁ w₁ x₁) (pair₂ : s.Pairs o₂ b₂ w₂ x₂)
    (n₁ n₂ : SnapshotId) :
    ∃ s₁ s₂ t₁ t₂,
      s.register o₁ b₁ n₁ x₁ = .ok s₁ ∧ s₁.register o₂ b₂ n₂ x₂ = .ok s₂ ∧
      s.register o₂ b₂ n₂ x₂ = .ok t₁ ∧ t₁.register o₁ b₁ n₁ x₁ = .ok t₂ ∧
      (∀ id e a, s.model.graph.transitions.get? id = some e → s.Connects b₁ b₂ x₁ e a →
        s.ledger.isRecognised o₁ b₁ = false → s₂.Labelled o₁ w₁ a ∧
          (s.ledger.isRecognised o₂ b₂ = true ∨ b₁ ∈ s.ledger.observedBase →
            t₂.Labelled o₁ w₁ a)) ∧
      (s.model.actions.Faithful → s₂.model.actions.Faithful ∧ t₂.model.actions.Faithful) ∧
      (∀ x, s₂.model.graph.Exits o₁ x ↔
        s.model.graph.Exits o₁ x ∨ s.Gains o₁ b₁ w₁ x₁ s₁.model x) ∧
      ∀ x, t₂.model.graph.Exits o₁ x ↔
        s.model.graph.Exits o₁ x ∨ s.ledger.isRecognised o₁ b₁ = false ∧
          ∃ id e a d, (s.model.graph.transitions.get? id = some e ∧ ¬ s.Redirects o₂ b₂ e) ∧
            e.source = b₁ ∧ Copies { t₁ with ledger := t₁.ledger.recognise o₁ b₁ } w₁ x₁ e a d ∧
            t₂.model.actions.find? w₁ a = some x := by
  have sound := used.sound wf
  obtain ⟨s₁, first, left⟩ := sound.registers_pair used.traces pair₁ n₁
  obtain ⟨s₂, then₂, left'⟩ := left.sound.registers_pair left.traces (pair₂.keeps left.keeps) n₂
  obtain ⟨t₁, second, right⟩ := sound.registers_pair used.traces pair₂ n₂
  obtain ⟨t₂, then₁, right'⟩ := right.sound.registers_pair right.traces (pair₁.keeps right.keeps) n₁
  have after : ∀ x, s₂.model.graph.Exits o₁ x ↔ s₁.model.graph.Exits o₁ x := by
    intro x
    simp [left'.exits, observed]
  have before : ∀ x, t₁.model.graph.Exits o₁ x ↔ s.model.graph.Exits o₁ x := by
    intro x
    simp [right.exits, observed]
  refine ⟨s₁, s₂, t₁, t₂, first, then₂, second, then₁, ?copied, ?faithful, ?_, ?_⟩
  case faithful =>
    intro faithful
    have first := left.keeps.faithful faithful
    have second := right.keeps.faithful faithful
    exact ⟨left'.keeps.faithful first, right'.keeps.faithful second⟩
  case copied =>
    intro id e a live connects fresh
    constructor
    · obtain ⟨x, named, exit⟩ := left.labelled base fresh live connects
      exact ⟨x, left'.keeps.interned named, (after x).2 exit⟩
    · intro stays
      have kept : ¬ s.Redirects o₂ b₂ e := by
        rw [connects.redirects base]
        rintro ⟨fresh, unseen⟩
        rcases stays with entered | seen
        · exact absurd (entered.symm.trans fresh) nofun
        · exact unseen seen
      have live := (right.explicit connects.explicit).2 ⟨live, kept⟩
      have fresh : t₁.ledger.isRecognised o₁ b₁ = false := by
        rw [Ledger.isRecognised, right.equivalents o₁ observed]
        exact fresh
      exact right'.labelled base fresh live (connects.keeps right.keeps)
  · intro x
    rw [after, left.exits]
    simp
  · intro x
    rw [right'.exits, before, ← right.gains observed]
    simp

def buttons : Matching := .ofPairs [(⟨1⟩, ⟨0⟩)]

theorem clicked_first : Pairs { model := .clicked } ⟨2⟩ ⟨0⟩ ⟨0⟩ buttons := by
  refine ⟨⟨_, rfl, rfl, rfl⟩, ⟨_, rfl, rfl⟩, places_pair ?_⟩
  rintro _ ⟨⟩
  rfl

theorem clicked_second : Pairs { model := .clicked } ⟨3⟩ ⟨1⟩ ⟨0⟩ {} :=
  ⟨⟨_, rfl, rfl, rfl⟩, ⟨_, rfl, rfl⟩, places_unmatched _ _⟩

theorem clicked_connects : Connects { model := .clicked } ⟨0⟩ ⟨1⟩ buttons
    { source := ⟨0⟩, action := ⟨0⟩, dest := ⟨1⟩, version := .base }
    { kind := .click, target := some ⟨1⟩ } :=
  ⟨rfl, rfl, rfl, rfl, rfl, ⟨_, ⟨0⟩, _, ⟨1⟩, rfl, rfl, rfl, rfl, rfl, rfl⟩⟩

theorem register_either_order_clicked : ∃ s₁ s₂ id e entry,
    Session.register { model := .clicked } ⟨2⟩ ⟨0⟩ ⟨0⟩ buttons = .ok s₁ ∧
      s₁.register ⟨3⟩ ⟨1⟩ ⟨0⟩ {} = .ok s₂ ∧
      s₂.model.graph.transitions.get? id = some e ∧ e.source = ⟨2⟩ ∧
      s₂.model.actions.entries.get? e.action = some entry ∧
      entry.action = { kind := .click, target := some ⟨1⟩ } := by
  obtain ⟨s₁, s₂, _, _, first, after, -, -, copies, faithful, -⟩ :=
    (Used.start .clicked).register_either_order built_clicked.sound.model (by decide) (by decide)
      clicked_first clicked_second ⟨0⟩ ⟨0⟩
  obtain ⟨⟨x, named, id, e, live, source, rfl⟩, -⟩ := copies ⟨0⟩ _ _ rfl clicked_connects rfl
  have started : ActionTable.Faithful {} := nofun
  obtain ⟨entry, interned, action⟩ := (faithful (started.intern _ _)).1 _ _ _ named
  exact ⟨s₁, s₂, id, e, entry, first, after, live, source, interned, action⟩

/-- It matters which of two pairs is registered first. -/
theorem not_either_order_clicked : ¬ ∀ (s : Session) (o₁ o₂ b₁ b₂ : StateId) (w₁ w₂ : WindowId)
    (x₁ x₂ : Matching) (n₁ n₂ : SnapshotId) (id : TransitionId) (e : Transition) (a : Action),
    s.Used → s.model.WellFormed → o₁ ≠ o₂ → b₁ ≠ b₂ → s.Pairs o₁ b₁ w₁ x₁ → s.Pairs o₂ b₂ w₂ x₂ →
    s.ledger.isRecognised o₁ b₁ = false → s.ledger.isRecognised o₂ b₂ = false →
    s.model.graph.transitions.get? id = some e → s.Connects b₁ b₂ x₁ e a →
    (∃ s₁ s₂, s.register o₁ b₁ n₁ x₁ = .ok s₁ ∧ s₁.register o₂ b₂ n₂ x₂ = .ok s₂ ∧
      s₂.Labelled o₁ w₁ a) ∧
    ∃ t₁ t₂, s.register o₂ b₂ n₂ x₂ = .ok t₁ ∧ t₁.register o₁ b₁ n₁ x₁ = .ok t₂ ∧
      t₂.Labelled o₁ w₁ a := by
  intro either
  obtain ⟨-, t₁, t₂, second, then₁, x, -, id, e, live, leaves, -⟩ :=
    either _ _ _ _ _ _ _ _ _ ⟨0⟩ ⟨0⟩ ⟨0⟩ _ _ (.start .clicked) built_clicked.sound.model (by decide)
      (by decide) clicked_first clicked_second rfl rfl rfl clicked_connects
  have sources : ((Session.register { model := .clicked } ⟨3⟩ ⟨1⟩ ⟨0⟩ {}).bind
      fun t => t.register ⟨2⟩ ⟨0⟩ ⟨0⟩ buttons).toOption.map
        (fun t => t.model.graph.transitions.entries.map fun p => p.2.source) = some [⟨0⟩] := by
    decide +kernel
  rw [second, Except.bind, then₁] at sources
  have sources : t₂.model.graph.transitions.entries.map (fun p => p.2.source) = [⟨0⟩] :=
    Option.some.inj sources
  have mem : e.source ∈ t₂.model.graph.transitions.entries.map (fun p => p.2.source) :=
    List.mem_map_of_mem (Arena.mem_entries.2 live)
  rw [sources, leaves] at mem
  exact absurd mem (by decide)

end Session

end ScreenGraph
