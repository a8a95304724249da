import ScreenGraph.Proofs.Superseding

/-!
A check that is repeated at once. Whatever the first one answers is on record afterwards, so the
second one reads its answer off the ledger and enters nothing. It prunes and deactivates before it
reads, though. It leaves the graph alone only if the first check has left no stale guess about the
observed edge and no active rival with a compatible guard.
-/

namespace ScreenGraph

def Classification.again : Classification → Classification
  | .equivalent base _ => .cached base
  | .new => .knownNew
  | c => c

def Ledger.note (l : Ledger) (k : StateId) (n : SnapshotId) : Classification → Ledger
  | .knownNew => l.markNewSnapshot n
  | .observedBase => l.markObservedBase k
  | _ => l

theorem find?_eq_some_of_unique {α : Type} {xs : List α} {p : α → Bool} {a : α}
    (mem : a ∈ xs) (passes : p a = true) (unique : ∀ x ∈ xs, p x = true → x = a) :
    xs.find? p = some a := by
  cases found : xs.find? p with
  | none => exact absurd passes (List.find?_eq_none.1 found a mem)
  | some x => rw [unique x (List.mem_of_find?_eq_some found) (List.find?_some found)]

namespace Session

open Classifier

variable {s s' : Session} {g : Sighting} {o : Observation} {k : StateId} {n : SnapshotId}
  {c : Classification}

def known? (s : Session) (k : StateId) (n : SnapshotId) : Option Classification :=
  (s.model.graph.states.get? k).bind fun st =>
    if st.isHome then some .homeScreen
    else if k ∈ s.ledger.newStates then some .knownNew
    else ((s.ledger.basesOf n).find? (s.ledger.isRecognised k)).map .cached <|>
      if st.version = .base then some .observedBase else none

theorem known?_congr (states : s.model.graph.SameStates s'.model.graph)
    (book : s'.ledger.book = s.ledger.book) : s'.known? k n = s.known? k n := by
  have new : s'.ledger.newStates = s.ledger.newStates := (congrArg Ledger.newStates book :)
  have bases : s'.ledger.snapshotBases = s.ledger.snapshotBases :=
    (congrArg Ledger.snapshotBases book :)
  have equivalents : s'.ledger.equivalents = s.ledger.equivalents :=
    (congrArg Ledger.equivalents book :)
  have same := states k
  unfold known? Ledger.isRecognised Ledger.equivalentsOf Ledger.basesOf
  rw [new, bases, equivalents]
  cases live : s.model.graph.states.get? k <;> cases live' : s'.model.graph.states.get? k <;>
    simp only [live, live', Option.map_some, Option.map_none, reduceCtorEq, Option.some.injEq]
      at same
  · rfl
  · next st st' =>
    have home : st'.isHome = st.isHome := (congrArg State.isHome same :)
    have version : st'.version = st.version := (congrArg State.version same :)
    simp only [Option.bind_some, home, version]

theorem firstOf_decided {f : Classifier} {cs : List Classifier} {d : Classification}
    (decides : f g s = .ok (some d, s')) : firstOf (f :: cs) g s = .ok (some d, s') := by
  rw [firstOf, decides]
  rfl

theorem firstOf_known? (cs : List Classifier) {st : State}
    (live : s.model.graph.states.get? g.state = some st) :
    firstOf (homeScreen :: knownNew :: Classifier.cached :: observedBase :: cs) g s =
      match s.known? g.state g.snapshot with
      | some c => .ok (some c, { s with ledger := s.ledger.note g.state g.snapshot c })
      | none => firstOf cs g s := by
  have state : s.model.graph.state g.state = .ok st := Arena.get_eq_ok_iff.2 live
  have homes : homeScreen g s = .ok (if st.isHome then some .homeScreen else none, s) := by
    rw [homeScreen, state]
    rfl
  by_cases home : st.isHome = true
  · rw [if_pos home] at homes
    simp [firstOf_decided homes, known?, live, home, Ledger.note]
  rw [if_neg home] at homes
  by_cases new : g.state ∈ s.ledger.newStates
  · have known : knownNew g s =
        .ok (some .knownNew, { s with ledger := s.ledger.markNewSnapshot g.snapshot }) := if_pos new
    simp [firstOf_cons homes, firstOf_decided known, known?, live, home, new, Ledger.note]
  have unknown : knownNew g s = .ok (none, s) := if_neg new
  cases found : (s.ledger.basesOf g.snapshot).find? (s.ledger.isRecognised g.state) with
  | some b =>
    have read : Classifier.cached g s = .ok (some (.cached b), s) := by
      rw [Classifier.cached, found]
      rfl
    simp [firstOf_cons homes, firstOf_cons unknown, firstOf_decided read, known?, live, home, new,
      found, Ledger.note]
  | none =>
    have unread : Classifier.cached g s = .ok (none, s) := by
      rw [Classifier.cached, found]
      rfl
    by_cases old : st.version = .base
    · have base : observedBase g s =
          .ok (some .observedBase, { s with ledger := s.ledger.markObservedBase g.state }) := by
        rw [observedBase, state]
        exact if_pos old
      simp [firstOf_cons homes, firstOf_cons unknown, firstOf_cons unread, firstOf_decided base,
        known?, live, home, new, found, old, Ledger.note]
    · have running : observedBase g s = .ok (none, s) := by
        rw [observedBase, state]
        exact if_neg old
      simp [firstOf_cons homes, firstOf_cons unknown, firstOf_cons unread, firstOf_cons running,
        known?, live, home, new, found, old]

theorem classify_of_known? (known : s.known? g.state g.snapshot = some c) :
    s.classify g = .ok (c, { s with ledger := s.ledger.note g.state g.snapshot c }) := by
  obtain ⟨st, live, -⟩ := Option.bind_eq_some_iff.1 known
  have decided := firstOf_known? [initialState, obsoleteDestination, windowScan] live
  rw [known] at decided
  exact Checked.bind_eq_ok.2 ⟨_, decided, rfl⟩

theorem undecided_of_known? {st : State} (live : s.model.graph.states.get? g.state = some st)
    (unknown : s.known? g.state g.snapshot = none) : s.Undecided g := by
  unfold known? at unknown
  rw [live, Option.bind_some] at unknown
  split at unknown
  · cases unknown
  next foreign =>
  split at unknown
  · cases unknown
  next new =>
  simp only [Option.orElse_eq_orElse, Option.orElse_eq_or, Option.or_eq_none_iff,
    Option.map_eq_none_iff, ite_eq_right_iff, reduceCtorEq, imp_false] at unknown
  refine ⟨⟨st, live, by simpa using foreign, ?_⟩, new, ?_⟩
  · cases version : st.version with
    | base => exact absurd version unknown.2
    | running => rfl
  · simpa using List.find?_eq_none.1 unknown.1

theorem classify_known? (ok : s.classify g = .ok (c, s')) :
    (s.known? g.state g.snapshot = some c ∧
      s' = { s with ledger := s.ledger.note g.state g.snapshot c }) ∨
    (s.Undecided g ∧ s.Answers g c s') := by
  cases known : s.known? g.state g.snapshot with
  | some d =>
    cases (classify_of_known? known).symm.trans ok
    exact .inl ⟨rfl, rfl⟩
  | none =>
    obtain ⟨⟨d, s₀⟩, decided, -⟩ := Checked.bind_eq_ok.1 ok
    obtain ⟨⟨d, s₁⟩, home, -⟩ := Checked.bind_eq_ok.1 decided
    obtain ⟨-, st, live, -⟩ := homeScreen_eq_ok home
    exact .inr ⟨undecided_of_known? live known, classify_cases ok⟩

theorem known?_eq_cached {st : State} {b : StateId} (live : s.model.graph.states.get? k = some st)
    (foreign : st.isHome = false) (unknown : k ∉ s.ledger.newStates)
    (base : b ∈ s.ledger.basesOf n) (entered : s.ledger.isRecognised k b = true)
    (unique : ∀ b' ∈ s.ledger.basesOf n, s.ledger.isRecognised k b' = true → b' = b) :
    s.known? k n = some (.cached b) := by
  simp [known?, live, foreign, unknown, find?_eq_some_of_unique base entered unique]

theorem Undecided.passed (h : s.Undecided g) (passed : Passed g s s') : s'.Undecided g := by
  obtain ⟨new, equivalents⟩ := passed.entries
  refine ⟨?_, ?_, ?_⟩
  · rw [passed.aside.graph]
    exact h.state
  · rw [new]
    exact h.unknown
  · unfold Ledger.isRecognised Ledger.equivalentsOf Ledger.basesOf
    rw [equivalents, passed.snapshots]
    exact h.uncached

theorem register_recognises {b : StateId} {x : Matching} (ok : s.register k b n x = .ok s')
    (b' : StateId) : s'.ledger.isRecognised k b' = true ↔
      s.ledger.isRecognised k b' = true ∨ b' = b := by
  simp only [Ledger.isRecognised, decide_eq_true_eq]
  obtain ⟨recognised, rfl⟩ | ⟨-, plan, planned, entered, applied⟩ := register_cases ok
  · constructor
    · exact .inl
    · rintro (old | rfl)
      · exact old
      · exact of_decide_eq_true recognised
  · have book := (applyAll_keeps applied).book.trans (enter_aside entered).book
    have equivalents : s'.ledger.equivalents = (s.ledger.recognise k b).equivalents :=
      (congrArg Ledger.equivalents book :)
    rw [Ledger.equivalentsOf, equivalents]
    exact Ledger.mem_equivalentsOf_recognise.trans (by simp)

theorem Undecided.register_known? (h : s.Undecided g) {b : StateId} {x : Matching}
    (ok : s.register g.state b g.snapshot x = .ok s') :
    s'.known? g.state g.snapshot = some (.cached b) := by
  obtain ⟨st, live, foreign, -⟩ := h.state
  obtain ⟨st', live', same⟩ := (register_keeps ok).state live
  have bases : ∀ b', b' ∈ s'.ledger.basesOf g.snapshot ↔
      b' ∈ s.ledger.basesOf g.snapshot ∨ b' = b := by
    intro b'
    rw [Ledger.basesOf, register_snapshots ok]
    exact Ledger.mem_basesOf_markSnapshot.trans (by simp)
  refine known?_eq_cached live' ?_ ?_ ((bases b).2 (.inr rfl))
    ((register_recognises ok b).2 (.inr rfl)) ?_
  · exact (congrArg State.isHome same :).trans foreign
  · rw [(register_entries ok).1]
    exact h.unknown
  · intro b' base entered
    -- the bases that the snapshot had before were not those of the state
    rcases (bases b').1 base with old | same
    · refine ((register_recognises ok b').1 entered).resolve_left fun recognised => ?_
      exact absurd (recognised.symm.trans (h.uncached b' old)) nofun
    · exact same

theorem again_of_known? (known : s.known? k n = some c) : c.again = c := by
  obtain ⟨st, -, known⟩ := Option.bind_eq_some_iff.1 known
  split at known
  · cases known
    rfl
  split at known
  · cases known
    rfl
  cases found : (s.ledger.basesOf n).find? (s.ledger.isRecognised k) with
  | some b =>
    rw [found] at known
    cases known
    rfl
  | none =>
    rw [found] at known
    obtain ⟨-, ⟨⟩⟩ := Option.ite_none_right_eq_some.1 known
    rfl

theorem note_note (l : Ledger) (c : Classification) : (l.note k n c).note k n c = l.note k n c := by
  cases c <;> simp [Ledger.note, Ledger.markNewSnapshot, Ledger.markObservedBase,
    OrderedSet.insert_of_mem]

theorem note_tally (l : Ledger) (c : Classification) (t : Tally) :
    Ledger.note { l with tally := t } k n c = { l.note k n c with tally := t } := by
  cases c <;> rfl

theorem Answers.settles (undecided : s.Undecided g) (answers : s.Answers g c s') :
    s'.known? g.state g.snapshot = some c.again ∧
      s'.ledger.note g.state g.snapshot c.again = s'.ledger := by
  obtain ⟨st, live, foreign, running⟩ := undecided.state
  cases answers with
  | homeScreen live' home =>
    cases live.symm.trans live'
    exact absurd (home.symm.trans foreign) nofun
  | knownNew known => exact absurd known undecided.unknown
  | cached base entered => exact absurd (entered.symm.trans (undecided.uncached _ base)) nofun
  | observedBase live' base =>
    cases live.symm.trans live'
    exact absurd (base.symm.trans running) nofun
  | equivalent _ found registered =>
    exact ⟨(undecided.passed found.passed).register_known? registered, rfl⟩
  | reproduces _ found registered =>
    have known := (undecided.passed found.passed).register_known? registered
    exact ⟨known, rfl⟩
  | new _ passed =>
    constructor
    · simp [known?, passed.aside.graph, live, foreign, Ledger.markNew, Classification.again]
    · simp [Ledger.note, Ledger.markNewSnapshot, Ledger.markNew, Classification.again,
        OrderedSet.insert_of_mem]

theorem classify_settles (ok : s.classify g = .ok (c, s')) :
    s'.known? g.state g.snapshot = some c.again ∧
      s'.ledger.note g.state g.snapshot c.again = s'.ledger := by
  obtain ⟨known, rfl⟩ | ⟨undecided, answers⟩ := classify_known? ok
  · rw [again_of_known? known]
    refine ⟨?_, note_note s.ledger c⟩
    rw [← known]
    cases c <;> rfl
  · exact answers.settles undecided

theorem sight_excludes {seen : Option Sighting} (ok : s.sight o = .ok (seen, s')) {e : Transition}
    {a : ActionEntry} (live : s.model.graph.transitions.get? o.transition = some e)
    (action : s.model.actions.entries.get? e.action = some a) :
    seen = none ↔ s.model.policy.isExcluded a.action.type = true := by
  obtain ⟨states, noted⟩ := s.noting_eq o
  have model : (s.model.attachSnapshot o.state o.snapshot).2 = _ := congrArg Session.model noted
  obtain ⟨e', live', ok⟩ := Arena.get_bind_eq_ok.1 ok
  obtain ⟨x, hx, ok⟩ := Checked.bind_eq_ok.1 ok
  obtain ⟨a', action', done⟩ := Arena.get_bind_eq_ok.1 hx
  cases done
  rw [model] at live' action' ok
  cases live.symm.trans live'
  cases action.symm.trans action'
  split at ok
  · next excluded =>
    cases ok
    exact iff_of_true rfl excluded
  · next decided =>
    obtain ⟨⟨keys, s₁⟩, -, ok⟩ := Checked.bind_eq_ok.1 ok
    obtain ⟨s₂, -, ok⟩ := Checked.bind_eq_ok.1 ok
    cases ok
    exact iff_of_false nofun decided

theorem check_keeps (ok : s.check o = .ok (.ok c, s')) : (s.noting o).model.Keeps s'.model := by
  obtain ⟨-, -, ⟨⟩, -⟩ | ⟨-, sighted, -⟩ | ⟨-, g, s₁, k, sighted, classified, -⟩ := check_eq_ok ok
  · exact (sight_keeps sighted).model
  · exact (sight_keeps sighted).model.trans (classify_cases classified).keeps

theorem Sound.check_live (h : s.Sound) (rooted : s.ledger.Rooted s.model) (live : o.Live s.model)
    (ok : s.check o = .ok (.ok c, s')) {e : Transition}
    (observed : s.model.graph.transitions.get? o.transition = some e) (leads : e.dest = o.state) :
    o.Live s'.model := by
  have keeps := check_keeps ok
  have grows := (s.model.attachSnapshot_grows o.state o.snapshot).trans keeps.grows
  obtain ⟨states, noted⟩ := s.noting_eq o
  refine ⟨?_, ?_, grows.contains live.state, fun p hp => grows.contains (live.previous p hp)⟩
  · rw [keeps.snapshots, noted]
    exact live.snapshot
  · obtain ⟨e', after, -⟩ := (h.check_observed rooted ok observed leads).edge
    exact Arena.contains_of_get? after

theorem Sound.sight_again (h : s.Sound) (rooted : s.ledger.Rooted s.model)
    (ok : s.check o = .ok (.ok c, s')) {e : Transition}
    (observed : s.model.graph.transitions.get? o.transition = some e) (leads : e.dest = o.state)
    {seen : Option Sighting} {s₂ : Session} (sighted : s'.sight o = .ok (seen, s₂)) :
    seen = none ↔ c = .ignored := by
  have keeps := check_keeps ok
  obtain ⟨states, noted⟩ := s.noting_eq o
  obtain ⟨e', after, endures⟩ := (h.check_observed rooted ok observed leads).edge
  obtain ⟨a, action⟩ := Arena.contains_iff.1 (h.model.edge observed).action
  obtain ⟨a', action', same⟩ := keeps.actions (a := e.action) (e := a) (by rw [noted]; exact action)
  rw [← endures.action] at action'
  have policy : s'.model.policy = s.model.policy := by
    rw [keeps.policy, noted]
  rw [sight_excludes sighted after action', policy, same]
  obtain ⟨-, -, ⟨⟩, -⟩ | ⟨-, before, done⟩ | ⟨-, g, s₁, k, before, classified, done⟩ :=
    check_eq_ok ok
  · cases done
    exact iff_of_true ((sight_excludes before observed action).1 rfl) rfl
  · cases done
    refine iff_of_false ?_ (classify_cases classified).decided
    exact fun excluded => absurd ((sight_excludes before observed action).2 excluded) nofun

theorem check_noted (live : o.Live s.model) (ok : s.check o = .ok (.ok c, s')) :
    s'.noting o = s' := by
  have shown : ∃ st, s'.model.graph.states.get? o.state = some st ∧ o.snapshot ∈ st.snapshots := by
    obtain ⟨-, -, ⟨⟩, -⟩ | ⟨-, sighted, -⟩ | ⟨-, g, s₁, k, sighted, classified, -⟩ := check_eq_ok ok
    · exact (sight_grows sighted live).2
    · obtain ⟨st, shown, mem⟩ := (sight_grows sighted live).2
      obtain ⟨st', shown', persists⟩ := (classify_cases classified).keeps.grows.state shown
      exact ⟨st', shown', persists.snapshots _ mem⟩
  obtain ⟨st, shown, mem⟩ := shown
  have snapshot : s'.model.snapshots.contains o.snapshot = true := by
    obtain ⟨states, noted⟩ := s.noting_eq o
    rw [(check_keeps ok).snapshots, noted]
    exact live.snapshot
  have attached : State.attach o.snapshot st = st := by
    rw [State.attach, OrderedSet.insert_of_mem mem]
  rw [noting, Model.attachSnapshot_eq snapshot (Arena.contains_of_get? shown),
    Arena.modify_of_fixed shown attached]

theorem check_of_ignored (live : o.Live s.model) (sighted : s.sight o = .ok (none, s')) :
    s.check o = .ok (.ok .ignored, s') := by
  rw [check, refusal?_eq_none.2 live]
  exact Checked.bind_eq_ok.2 ⟨_, sighted, rfl⟩

theorem check_of_known? {s₁ : Session} (live : o.Live s.model)
    (sighted : s.sight o = .ok (some g, s₁)) (known : s₁.known? g.state g.snapshot = some c) :
    s.check o = .ok (.ok c, { s₁ with ledger := s₁.ledger.note g.state g.snapshot c }) := by
  rw [check, refusal?_eq_none.2 live]
  exact Checked.bind_eq_ok.2 ⟨_, sighted, Checked.bind_eq_ok.2 ⟨_, classify_of_known? known, rfl⟩⟩

theorem Sound.check_again (h : s.Sound) (rooted : s.ledger.Rooted s.model)
    (ok : s.check o = .ok (.ok c, s')) (decided : c ≠ .ignored) {e : Transition}
    (observed : s.model.graph.transitions.get? o.transition = some e) (leads : e.dest = o.state) :
    ∃ g s₂, s'.sight o = .ok (some g, s₂) ∧ s'.check o = .ok (.ok c.again,
      { s₂ with ledger := { s'.ledger with tally := s₂.ledger.tally } }) := by
  obtain ⟨-, -, ⟨⟩, -⟩ | ⟨-, -, ⟨⟩⟩ | ⟨live, g, s₁, k, before, classified, ⟨⟩⟩ := check_eq_ok ok
  · exact absurd rfl decided
  have after := h.check_live rooted live ok observed leads
  obtain ⟨⟨seen, s₂⟩, sighted⟩ := (h.check ok).sight_succeeds after
  obtain ⟨g₂, rfl⟩ : ∃ g₂, seen = some g₂ := by
    refine Option.ne_none_iff_exists'.1 fun excluded => decided ?_
    exact (h.sight_again rooted ok observed leads sighted).1 excluded
  refine ⟨g₂, s₂, sighted, ?_⟩
  obtain ⟨snapshot, state⟩ := (sight_book before).2 g rfl
  obtain ⟨snapshot₂, state₂⟩ := (sight_book sighted).2 g₂ rfl
  obtain ⟨known, settled⟩ := classify_settles classified
  have keeps := sight_keeps sighted
  rw [check_noted live ok] at keeps
  rw [snapshot, state, ← known?_congr keeps.model.states keeps.book, ← snapshot₂, ← state₂] at known
  rw [snapshot, state] at settled
  have ledger : s₂.ledger.note o.state o.snapshot c.again =
      { s'.ledger with tally := s₂.ledger.tally } := by
    obtain ⟨n, ledger⟩ := sight_ledger sighted
    rw [ledger, note_tally, settled]
  rw [check_of_known? after sighted known, snapshot₂, state₂, ledger]

/-- What a check answers is settled. The same check made again at once gives the answer off the
ledger and enters nothing. -/
theorem Used.check_settles (used : s.Used) (wf : s.model.WellFormed)
    (leads : ∀ e, s.model.graph.transitions.get? o.transition = some e → e.dest = o.state) :
    ∃ c s' s'', s.check o = .ok (c, s') ∧ s'.check o = .ok (c.map Classification.again, s'') ∧
      s''.ledger = { s'.ledger with tally := s''.ledger.tally } := by
  have sound := used.sound wf
  obtain ⟨c, s', checked⟩ := sound.check_goes o
  refine ⟨c, s', ?_⟩
  obtain ⟨r, -, rfl, rfl⟩ | ⟨live, -, rfl⟩ | ⟨live, g, s₁, k, -, classified, rfl⟩ :=
    check_eq_ok checked
  · exact ⟨s', checked, checked, rfl⟩
  · obtain ⟨e, observed⟩ := Arena.contains_iff.1 live.transition
    have after := sound.check_live used.rooted live checked observed (leads e observed)
    obtain ⟨⟨seen, s₂⟩, sighted⟩ := (sound.check checked).sight_succeeds after
    cases (sound.sight_again used.rooted checked observed (leads e observed) sighted).2 rfl
    obtain ⟨n, ledger⟩ := sight_ledger sighted
    refine ⟨s₂, checked, check_of_ignored after sighted, ?_⟩
    rw [ledger]
  · obtain ⟨e, observed⟩ := Arena.contains_iff.1 live.transition
    obtain ⟨g₂, s₂, -, again⟩ := sound.check_again used.rooted checked
      (classify_cases classified).decided observed (leads e observed)
    exact ⟨_, checked, again, rfl⟩

theorem check_settles_launched : ∃ s' s'',
    check { model := .launched } ⟨⟨0⟩, ⟨2⟩, ⟨1⟩, none⟩ =
      .ok (.ok (.equivalent ⟨0⟩ .avmMatch), s') ∧
    s'.check ⟨⟨0⟩, ⟨2⟩, ⟨1⟩, none⟩ = .ok (.ok (.cached ⟨0⟩), s'') ∧
    s''.ledger = { s'.ledger with tally := s''.ledger.tally } := by
  obtain ⟨s', checked⟩ := ok_of_answer (c := .equivalent ⟨0⟩ .avmMatch)
    (by decide +kernel : (check { model := .launched } ⟨⟨0⟩, ⟨2⟩, ⟨1⟩, none⟩).toOption.map
      (fun r => r.1.toOption) = _)
  obtain ⟨c, _, s'', same, again, settled⟩ := (Used.start .launched).check_settles
    built_launched.sound.model (o := ⟨⟨0⟩, ⟨2⟩, ⟨1⟩, none⟩) (by rintro e ⟨⟩; rfl)
  cases checked.symm.trans same
  exact ⟨s', s'', checked, again, settled⟩

end Session

def Transition.isEntered (e : Transition) (predecessors : List StateId) : Bool :=
  !predecessors.isEmpty && e.guards.accepts predecessors

namespace Graph

variable {g g' : Graph} {t id : TransitionId} {u e : Transition} {ps : List StateId}
  {ids : List TransitionId}

theorem isEntered_eq_ok (live : g.transitions.get? id = some e) :
    g.isEntered id ps = .ok (e.isEntered ps) := by
  unfold isEntered Transition.isEntered
  cases ps with
  | nil => rfl
  | cons p ps => exact Arena.get_bind_eq_ok.2 ⟨e, live, rfl⟩

theorem Consistent.mem_obsolete (h : g.Consistent) (observed : g.transitions.get? t = some u)
    (ok : g.obsolete t ps = .ok ids) : id ∈ ids ↔ ∃ e, g.Rival t id u e ∧
      e.isObsolete u.dest = true ∧ (e.isEntered ps = true ∨
        ∀ id' e', g.Rival t id' u e' → e'.isObsolete u.dest = true → e'.isEntered ps = false) := by
  obtain ⟨u', observed', ok⟩ := Arena.get_bind_eq_ok.1 ok
  cases observed.symm.trans observed'
  obtain ⟨rivals, hrivals, ok⟩ := Checked.bind_eq_ok.1 ok
  obtain ⟨stale, hstale, ok⟩ := Checked.bind_eq_ok.1 ok
  obtain ⟨entered, hentered, done⟩ := Checked.bind_eq_ok.1 ok
  cases done
  have mem_stale : ∀ {id}, id ∈ stale ↔ ∃ e, g.Rival t id u e ∧ e.isObsolete u.dest = true := by
    intro id
    rw [mem_filterChecked hstale, h.mem_rivals hrivals observed]
    constructor
    · rintro ⟨⟨e, rival⟩, test⟩
      obtain ⟨e', live, test⟩ := Arena.get_bind_eq_ok.1 test
      cases rival.live.symm.trans live
      exact ⟨e, rival, pure_eq_ok.1 test⟩
    · rintro ⟨e, rival, obsolete⟩
      exact ⟨⟨e, rival⟩, Arena.get_bind_eq_ok.2 ⟨e, rival.live, pure_eq_ok.2 obsolete⟩⟩
  have mem_entered : ∀ {id}, id ∈ entered ↔
      ∃ e, g.Rival t id u e ∧ e.isObsolete u.dest = true ∧ e.isEntered ps = true := by
    intro id
    rw [mem_filterChecked hentered, mem_stale]
    constructor
    · rintro ⟨⟨e, rival, obsolete⟩, test⟩
      rw [isEntered_eq_ok rival.live] at test
      exact ⟨e, rival, obsolete, Except.ok.inj test⟩
    · rintro ⟨e, rival, obsolete, enters⟩
      refine ⟨⟨e, rival, obsolete⟩, ?_⟩
      rw [isEntered_eq_ok rival.live, enters]
  split
  · next none =>
    have none : ∀ id, id ∉ entered := by simp [List.isEmpty_iff.1 none]
    rw [mem_stale]
    constructor
    · rintro ⟨e, rival, obsolete⟩
      refine ⟨e, rival, obsolete, .inr fun id' e' rival' obsolete' => ?_⟩
      refine Bool.eq_false_iff.2 fun enters => ?_
      exact none id' (mem_entered.2 ⟨e', rival', obsolete', enters⟩)
    · rintro ⟨e, rival, obsolete, -⟩
      exact ⟨e, rival, obsolete⟩
  · next some =>
    rw [mem_entered]
    constructor
    · rintro ⟨e, rival, obsolete, enters⟩
      exact ⟨e, rival, obsolete, .inl enters⟩
    · rintro ⟨e, rival, obsolete, enters | none⟩
      · exact ⟨e, rival, obsolete, enters⟩
      · obtain ⟨id', mem⟩ := List.exists_mem_of_ne_nil entered (by simpa using some)
        obtain ⟨e', rival', obsolete', enters⟩ := mem_entered.1 mem
        exact absurd (enters.symm.trans (none id' e' rival' obsolete')) nofun

theorem Consistent.exists_obsolete (h : g.Consistent) (observed : g.transitions.get? t = some u)
    (ok : g.obsolete t ps = .ok ids) (rival : g.Rival t id u e)
    (stale : e.isObsolete u.dest = true) : ∃ id' ∈ ids, g.transitions.contains id' = true := by
  by_cases entered : ∃ id' e', g.Rival t id' u e' ∧ e'.isObsolete u.dest = true ∧
      e'.isEntered ps = true
  · obtain ⟨id', e', rival', stale', enters⟩ := entered
    exact ⟨id', (h.mem_obsolete observed ok).2 ⟨e', rival', stale', .inl enters⟩,
      Arena.contains_of_get? rival'.live⟩
  · refine ⟨id, (h.mem_obsolete observed ok).2 ⟨e, rival, stale, .inr ?_⟩,
      Arena.contains_of_get? rival.live⟩
    intro id' e' rival' stale'
    exact Bool.eq_false_iff.2 fun enters => entered ⟨id', e', rival', stale', enters⟩

/-- There is nothing left to prune or to deactivate for an observed edge. -/
def Cleared (g : Graph) (t : TransitionId) (u : Transition) : Prop :=
  ∀ id e, g.Rival t id u e → e.isObsolete u.dest = false ∧
    (e.isActive = true → e.guards.isCompatible u.guards = false)

theorem Cleared.obsolete (cleared : g.Cleared t u) (h : g.Consistent)
    (observed : g.transitions.get? t = some u) (ok : g.obsolete t ps = .ok ids) : ids = [] := by
  refine List.eq_nil_iff_forall_not_mem.2 fun id mem => ?_
  obtain ⟨e, rival, obsolete, -⟩ := (h.mem_obsolete observed ok).1 mem
  exact absurd (obsolete.symm.trans (cleared id e rival).1) nofun

theorem Cleared.supersede (cleared : g.Cleared t u) (h : g.Consistent)
    (observed : g.transitions.get? t = some u) (ok : g.supersede t = .ok g') : g' = g := by
  obtain ⟨ids, deactivated, mem_ids⟩ := h.supersede_eq_ok ok observed
  have none : ids = [] := by
    refine List.eq_nil_iff_forall_not_mem.2 fun id mem => ?_
    obtain ⟨e, rival, active, compatible⟩ := (mem_ids id).1 mem
    exact absurd (compatible.symm.trans ((cleared id e rival).2 active)) nofun
  subst none
  cases deactivated
  rfl

end Graph

namespace Session

variable {s s' : Session} {g : Sighting} {o : Observation} {u : Transition}

theorem Sound.sight_still (h : s.Sound) (noted : s.noting o = s)
    (observed : s.model.graph.transitions.get? o.transition = some u)
    (cleared : s.model.graph.Cleared o.transition u) (ok : s.sight o = .ok (some g, s')) :
    s' = s := by
  obtain ⟨-, ids, between, obsolete, removed, superseded, -, -, done⟩ :=
    sight_steps h.model.graph ok
  rw [noted] at obsolete removed done
  cases cleared.obsolete h.model.graph observed obsolete
  obtain ⟨pruned, rfl⟩ := Prod.mk.inj (Except.ok.inj removed)
  rw [← pruned, cleared.supersede h.model.graph observed superseded] at done
  exact done

theorem Sound.cleared_of_sight (h : s.Sound) (noted : s.noting o = s)
    (observed : s.model.graph.transitions.get? o.transition = some u)
    (ok : s.sight o = .ok (some g, s'))
    (kept : ∀ id, s'.model.graph.transitions.get? id = s.model.graph.transitions.get? id) :
    s.model.graph.Cleared o.transition u := by
  obtain ⟨-, ids, between, obsolete, removed, superseded, consistent, same, -⟩ :=
    sight_steps h.model.graph ok
  rw [noted] at obsolete removed
  have observed' := same.trans observed
  intro id e rival
  constructor
  · refine Bool.eq_false_iff.2 fun stale => ?_
    obtain ⟨id', mem, live⟩ := h.model.graph.exists_obsolete observed obsolete rival stale
    obtain ⟨ids', deactivated, -⟩ := consistent.supersede_eq_ok superseded observed'
    have gone : s'.model.graph.transitions.get? id' = none := by
      rw [Graph.deactivateAll_get? deactivated, Graph.prune_get? removed, if_pos mem]
      simp
    rw [Arena.contains, ← kept id', gone] at live
    cases live
  · intro active
    have after : s'.model.graph.Rival o.transition id u e :=
      ⟨rival.other, (kept _).trans observed, (kept _).trans rival.live, rival.source, rival.action⟩
    exact ((consistent.supersede_rival superseded observed').2 after active).2

theorem register_origin (consistent : s.model.graph.Consistent) {k b : StateId} {n : SnapshotId}
    {x : Matching} (ok : s.register k b n x = .ok s') {id : TransitionId} {e' : Transition}
    (live : s'.model.graph.transitions.get? id = some e') :
    (∃ e, s.model.graph.transitions.get? id = some e ∧ ¬ s.Redirects k b e) ∨
      e'.source = k ∨ e'.dest = k := by
  obtain ⟨entered, rfl⟩ | ⟨fresh, plan, planned, entered, applied⟩ := register_cases ok
  · refine .inl ⟨e', live, fun redirects => ?_⟩
    exact absurd (entered.symm.trans redirects.1) nofun
  obtain ⟨graph, arranges⟩ := enter_arranges consistent fresh entered
  obtain ⟨⟨e, before, -⟩, stays⟩ | ⟨t, mem, source, dest⟩ := applyAll_origin applied live
  · rw [graph] at before
    refine .inl ⟨e, before, fun redirects => ?_⟩
    obtain ⟨t, mem, incoming, same⟩ := (arranges.takes before).2 redirects
    exact stays t mem incoming same
  · rcases arranges.made t mem with leaves | ⟨into, -⟩
    · exact .inr (.inl (source.trans leaves))
    · exact .inr (.inr (dest.trans into))

theorem Answers.origin (answers : s.Answers g c s') (consistent : s.model.graph.Consistent)
    {id : TransitionId} {e' : Transition} (live : s'.model.graph.transitions.get? id = some e') :
    (∃ e, s.model.graph.transitions.get? id = some e ∧
      ∀ b r, c = .equivalent b r → ¬ s.Redirects g.state b e) ∨
      e'.source = g.state ∨ e'.dest = g.state := by
  obtain ⟨⟨_, same⟩, -, other⟩ | ⟨b, r, x, mid, after, rfl, found, registered, model, -⟩ :=
    answers.registers
  · rw [same] at live
    exact .inl ⟨e', live, fun b r answer => absurd answer (other b r)⟩
  have graph := found.passed.aside.graph
  rw [model] at live
  refine (register_origin (graph ▸ consistent) registered live).imp_left ?_
  rintro ⟨e, before, stays⟩
  rw [graph] at before
  rw [found.passed.redirects] at stays
  refine ⟨e, before, ?_⟩
  rintro _ _ ⟨⟩
  exact stays

end Session

/-- A stale guess that is spared: it cannot have been taken with these states before, while another
one can. -/
structure Graph.Spared (g : Graph) (t : TransitionId) (u : Transition) (ps : List StateId)
    (id : TransitionId) (e : Transition) : Prop where
  rival : g.Rival t id u e
  stale : e.isObsolete u.dest = true
  unentered : e.isEntered ps = false
  other : ∃ id' e', g.Rival t id' u e' ∧ e'.isObsolete u.dest = true ∧ e'.isEntered ps = true

theorem Graph.Rival.congr {g g' : Graph} (same : g'.transitions = g.transitions)
    {t id : TransitionId} {u e : Transition} (h : g'.Rival t id u e) : g.Rival t id u e :=
  ⟨h.other, same ▸ h.observed, same ▸ h.live, h.source, h.action⟩

theorem Graph.Spared.congr {g g' : Graph} (same : g'.transitions = g.transitions)
    {t id : TransitionId} {u e : Transition} {ps : List StateId} (h : g'.Spared t u ps id e) :
    g.Spared t u ps id e := by
  obtain ⟨id', e', rival, entered⟩ := h.other
  exact ⟨h.rival.congr same, h.stale, h.unentered, id', e', rival.congr same, entered⟩

theorem Transition.Endures.isObsolete {p : Prop} {e e' : Transition} (h : e.Endures p e')
    (d : StateId) : e'.isObsolete d = e.isObsolete d := by
  rw [Transition.isObsolete, h.version, h.isExercisedIn, h.dest, Transition.isObsolete]

theorem Graph.Consistent.spared {g : Graph} (h : g.Consistent) {t id : TransitionId}
    {u e : Transition} {ps : List StateId} {ids : List TransitionId} (rival : g.Rival t id u e)
    (ok : g.obsolete t ps = .ok ids) (stays : id ∉ ids) (stale : e.isObsolete u.dest = true) :
    g.Spared t u ps id e := by
  have kept := fun cause => stays ((h.mem_obsolete rival.observed ok).2 ⟨e, rival, stale, cause⟩)
  obtain ⟨unentered, others⟩ := not_or.1 kept
  refine ⟨rival, stale, Bool.eq_false_iff.2 unentered, ?_⟩
  simpa using others

namespace Session

variable {s s' : Session} {o : Observation} {c : Classification}

theorem Sound.sight_spared (h : s.Sound) {g : Sighting} (ok : s.sight o = .ok (some g, s'))
    {id : TransitionId} {u e' : Transition}
    (observed : s.model.graph.transitions.get? o.transition = some u)
    (rival : s'.model.graph.Rival o.transition id u e') (stale : e'.isObsolete u.dest = true) :
    ∃ e, s.model.graph.Spared o.transition u (s.ledger.predecessors o.previous) id e := by
  have edges := s.noting_transitions o
  obtain ⟨-, ids, obsolete, before, -⟩ := sight_frames h.model.graph ok
  obtain ⟨kept, e, live, change⟩ := before rival.live
  have source : e.source = u.source := by
    rw [← rival.source, change]
  have action : e.action = u.action := by
    rw [← rival.action, change]
  rw [change] at stale
  exact ⟨e, .congr edges ((noting_consistent h.model.graph o).spared
    ⟨rival.other, edges ▸ observed, edges ▸ live, source, action⟩ obsolete kept stale)⟩

theorem Sound.check_stale (h : s.Sound) (rooted : s.ledger.Rooted s.model)
    (ok : s.check o = .ok (.ok c, s')) (decided : c ≠ .ignored) {e e' : Transition}
    (observed : s.model.graph.transitions.get? o.transition = some e) (leads : e.dest = o.state)
    {id : TransitionId} {f' : Transition} (rival : s'.model.graph.Rival o.transition id e' f')
    (stale : f'.isObsolete o.state = true) :
    (∃ f, s.model.graph.Spared o.transition e (s.ledger.predecessors o.previous) id f) ∨
      e.source = o.state ∧ f'.Inferred := by
  obtain ⟨e₁, live₁, endures⟩ := (h.check_observed rooted ok observed leads).edge
  cases rival.observed.symm.trans live₁
  obtain ⟨-, -, ⟨⟩, -⟩ | ⟨-, -, ⟨⟩⟩ | ⟨known, g, s₁, k, sighted, classified, ⟨⟩⟩ := check_eq_ok ok
  · exact absurd rfl decided
  have answers := classify_cases classified
  have state := ((sight_book sighted).2 g rfl).2
  have consistent := (h.sight known sighted).1.model.graph
  have after : s₁.model.graph.Frames s'.model.graph _ (fun _ _ => False) :=
    answers.frames consistent
  -- an edge that was there after the sighting was spared by it
  have spared : ∀ {f₁}, s₁.model.graph.transitions.get? id = some f₁ →
      (∀ b r, c = .equivalent b r → ¬ s₁.Redirects g.state b f₁) →
      ∃ f, s.model.graph.Spared o.transition e (s.ledger.predecessors o.previous) id f := by
    intro f₁ live stays
    obtain ⟨f₂, live₂, same⟩ := (after.stays live fun ⟨f₂, b, r, live₂, answer, redirects⟩ => by
      cases live.symm.trans live₂
      exact stays b r answer redirects).edge
    cases rival.live.symm.trans live₂
    refine h.sight_spared sighted observed ⟨rival.other, ?_, live, ?_, ?_⟩ ?_
    · exact (h.sight_rival sighted observed).1
    · exact same.source.symm.trans (rival.source.trans endures.source)
    · exact same.action.symm.trans (rival.action.trans endures.action)
    · rw [leads, ← same.isObsolete]
      exact stale
  rcases after.origin rival.live with ⟨f₁, live, stays⟩ | new
  · refine .inl (spared live fun b r answer redirects => ?_)
    exact stays ⟨f₁, b, r, live, answer, redirects⟩
  rcases answers.origin consistent rival.live with ⟨f₁, live, stays⟩ | leaves | into
  · exact .inl (spared live stays)
  · refine .inr ⟨?_, new.inferred⟩
    rw [← endures.source, ← rival.source, leaves, state]
  · rw [Transition.isObsolete, into, state] at stale
    simp at stale

/-- After a state was recognised, the same check made again at once gives the base state off the
ledger. If the graph is cleared nothing changes at all, and if not some edge does. Left to prune are
guesses that the first check spared, or that were inferred beside a loop. Left to deactivate are
edges that the registration has made compatible. -/
theorem Used.check_repeats (used : s.Used) (wf : s.model.WellFormed) {e : Transition}
    (observed : s.model.graph.transitions.get? o.transition = some e) (leads : e.dest = o.state)
    {b : StateId} {r : Rule} (ok : s.check o = .ok (.ok (.equivalent b r), s')) :
    ∃ e' s'', s'.model.graph.transitions.get? o.transition = some e' ∧
      s'.check o = .ok (.ok (.cached b), s'') ∧
      (s'.model.graph.Cleared o.transition e' → s'' = s') ∧
      (s''.model.graph.transitions = s'.model.graph.transitions →
        s'.model.graph.Cleared o.transition e') ∧
      ∀ id f', s'.model.graph.Rival o.transition id e' f' →
        (f'.isObsolete o.state = true →
          (∃ f, s.model.graph.Spared o.transition e (s.ledger.predecessors o.previous) id f) ∨
            e.source = o.state ∧ f'.Inferred) ∧
        (f'.isActive = true → f'.guards.isCompatible e'.guards = true →
          (s.noting o).Absorbs o.state b e.source e.action) := by
  have sound := used.sound wf
  obtain ⟨e', live, -⟩ := (sound.check_observed used.rooted ok observed leads).edge
  obtain ⟨g, s₂, sighted, again⟩ := sound.check_again used.rooted ok nofun observed leads
  have noted : s'.noting o = s' := by
    obtain ⟨-, -, ⟨⟩, -⟩ | ⟨-, -, ⟨⟩⟩ | ⟨known, -⟩ := check_eq_ok ok
    exact check_noted known ok
  refine ⟨e', _, live, again, fun cleared => ?_, fun unchanged => ?_, fun id f' rival => ⟨?_, ?_⟩⟩
  · rw [(sound.check ok).sight_still noted live cleared sighted]
  · exact (sound.check ok).cleared_of_sight noted live sighted fun id => by rw [← unchanged]
  · exact sound.check_stale used.rooted ok nofun observed leads rival
  · intro active compatible
    obtain ⟨f, -, -, -, widened⟩ :=
      sound.check_rival used.rooted ok nofun observed leads live rival active
    obtain ⟨_, _, ⟨⟩, absorbs, -⟩ := widened compatible
    exact absorbs

end Session

def Model.guessed : Model where
  catalog := (Catalog.openWindow {} "Main" "main" .activity .base).2
  actions := (ActionTable.intern {} ⟨0⟩ { kind := .launchApp }).2
  graph := Graph.withEdge
    (Graph.withEdge
      (Graph.withEdge
        { states := (((Arena.add ∅
            { window := ⟨0⟩, version := .base, isInitial := true }).2.add
            { window := ⟨0⟩, version := .base }).2.add
            { window := ⟨0⟩, version := .running }).2 }
        { source := ⟨1⟩, action := ⟨0⟩, dest := ⟨0⟩, version := .base, guards := .ofList [⟨0⟩] } ∅)
      { source := ⟨1⟩, action := ⟨0⟩, dest := ⟨1⟩, version := .base, guards := .ofList [⟨1⟩] } ∅)
    { source := ⟨1⟩, action := ⟨0⟩, dest := ⟨2⟩, version := .running } ∅
  snapshots := (Arena.add ∅ { windowClass := "Main", elements := [{}] }).2

namespace Session

theorem built_guessed : Built { model := .guessed } := by
  have window := (Built.start {} hash).edit (.openWindow "Main" "main" .activity .base)
  have home := window.addState ⟨0⟩ .base [.isInitial true] rfl
  have away := home.addState ⟨0⟩ .base [] rfl
  have seen := away.addState ⟨0⟩ .running [] rfl
  have launch := seen.edit (@Model.Edit.internAction _ ⟨0⟩ { kind := .launchApp } _ _ rfl)
  have snapshot := launch.edit (.addSnapshot { windowClass := "Main", elements := [{}] })
  have first := snapshot.withEdge
    { source := ⟨1⟩, action := ⟨0⟩, dest := ⟨0⟩, version := .base, guards := .ofList [⟨0⟩] } ∅
    rfl rfl (.of_all rfl rfl)
  have second := first.withEdge
    { source := ⟨1⟩, action := ⟨0⟩, dest := ⟨1⟩, version := .base, guards := .ofList [⟨1⟩] } ∅
    rfl rfl (.of_all rfl rfl)
  exact second.withEdge { source := ⟨1⟩, action := ⟨0⟩, dest := ⟨2⟩, version := .running } ∅
    rfl rfl (.of_all rfl rfl)

theorem check_guessed : ∃ s' s'' e' f' c,
    check { model := .guessed } ⟨⟨0⟩, ⟨2⟩, ⟨2⟩, some ⟨0⟩⟩ =
      .ok (.ok (.equivalent ⟨0⟩ .avmMatch), s') ∧
    s'.model.graph.Rival ⟨2⟩ ⟨1⟩ e' f' ∧ f'.isObsolete ⟨2⟩ = true ∧
    s'.check ⟨⟨0⟩, ⟨2⟩, ⟨2⟩, some ⟨0⟩⟩ = .ok (c, s'') ∧
    s''.model.graph.transitions.get? ⟨1⟩ = none := by
  obtain ⟨s', checked⟩ := ok_of_answer (c := .equivalent ⟨0⟩ .avmMatch)
    (by decide +kernel : (check { model := .guessed } ⟨⟨0⟩, ⟨2⟩, ⟨2⟩, some ⟨0⟩⟩).toOption.map
      (fun r => r.1.toOption) = _)
  have rival : (check { model := .guessed } ⟨⟨0⟩, ⟨2⟩, ⟨2⟩, some ⟨0⟩⟩).toOption.bind (fun r =>
      (r.2.model.graph.transitions.get? ⟨2⟩).bind fun e' =>
        (r.2.model.graph.transitions.get? ⟨1⟩).map fun f' => decide (f'.source = e'.source ∧
          f'.action = e'.action ∧ f'.isObsolete ⟨2⟩ = true)) = some true := by decide +kernel
  have gone : (check { model := .guessed } ⟨⟨0⟩, ⟨2⟩, ⟨2⟩, some ⟨0⟩⟩ >>= fun r =>
      r.2.check ⟨⟨0⟩, ⟨2⟩, ⟨2⟩, some ⟨0⟩⟩).toOption.map
      (fun r => r.2.model.graph.transitions.contains ⟨1⟩) = some false := by decide +kernel
  rw [checked] at rival gone
  simp only [Except.toOption, Option.bind_some, Option.bind_eq_some_iff, Option.map_eq_some_iff,
    decide_eq_true_eq] at rival
  obtain ⟨e', live, f', live', source, action, stale⟩ := rival
  obtain ⟨⟨c, s''⟩, again, gone⟩ := Option.map_eq_some_iff.1 gone
  refine ⟨s', s'', e', f', c, checked, ⟨by decide, live, live', source, action⟩, stale,
    toOption_eq_some.1 again, ?_⟩
  simpa [Arena.contains] using gone

theorem check_repeats_guessed : ∃ s' s'' e f,
    check { model := .guessed } ⟨⟨0⟩, ⟨2⟩, ⟨2⟩, some ⟨0⟩⟩ =
      .ok (.ok (.equivalent ⟨0⟩ .avmMatch), s') ∧
    s'.check ⟨⟨0⟩, ⟨2⟩, ⟨2⟩, some ⟨0⟩⟩ = .ok (.ok (.cached ⟨0⟩), s'') ∧ s'' ≠ s' ∧
    Model.guessed.graph.Spared ⟨2⟩ e [⟨0⟩] ⟨1⟩ f := by
  obtain ⟨s', s'', e', f', c, checked, rival, stale, both, gone⟩ := check_guessed
  obtain ⟨_, _, live, again, -, -, left⟩ := (Used.start .guessed).check_repeats
    built_guessed.sound.model (o := ⟨⟨0⟩, ⟨2⟩, ⟨2⟩, some ⟨0⟩⟩) rfl rfl checked
  cases rival.observed.symm.trans live
  cases both.symm.trans again
  obtain ⟨f, spared⟩ := ((left ⟨1⟩ f' rival).1 stale).resolve_right nofun
  refine ⟨s', s'', _, f, checked, again, ?_, spared⟩
  rintro rfl
  exact absurd (gone.symm.trans rival.live) nofun

/-- A check that is repeated after a state was recognised may change the graph. -/
theorem not_still_guessed : ¬ ∀ s o e b r s', Used s → s.model.WellFormed →
    s.model.graph.transitions.get? o.transition = some e → e.dest = o.state →
    s.check o = .ok (.ok (.equivalent b r), s') →
    ∃ c s'', s'.check o = .ok (c, s'') ∧
      s''.model.graph.transitions = s'.model.graph.transitions ∧
      s''.model.graph.activation = s'.model.graph.activation ∧
      s''.model.graph.coverages = s'.model.graph.coverages ∧
      s''.ledger.tally = s'.ledger.tally := by
  intro still
  obtain ⟨s', s'', e', f', c, checked, rival, -, both, gone⟩ := check_guessed
  obtain ⟨_, _, again, same, -⟩ := still _ ⟨⟨0⟩, ⟨2⟩, ⟨2⟩, some ⟨0⟩⟩ _ _ _ s' (.start .guessed)
    built_guessed.sound.model rfl rfl checked
  cases both.symm.trans again
  rw [same] at gone
  exact absurd (gone.symm.trans rival.live) nofun

end Session

end ScreenGraph
