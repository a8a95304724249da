import ScreenGraph.Proofs.Repeating

namespace ScreenGraph

inductive Observation.Unknown (o : Observation) (m : Model) : Refusal → Prop
  | snapshot (absent : m.snapshots.contains o.snapshot = false) :
      Unknown o m (.unknownSnapshot o.snapshot)
  | transition (snapshot : m.snapshots.contains o.snapshot = true)
      (absent : m.graph.transitions.contains o.transition = false) :
      Unknown o m (.unknownTransition o.transition)
  | state (snapshot : m.snapshots.contains o.snapshot = true)
      (transition : m.graph.transitions.contains o.transition = true)
      (absent : m.graph.states.contains o.state = false) : Unknown o m (.unknownState o.state)
  | previous {p} (given : o.previous = some p)
      (snapshot : m.snapshots.contains o.snapshot = true)
      (transition : m.graph.transitions.contains o.transition = true)
      (state : m.graph.states.contains o.state = true)
      (absent : m.graph.states.contains p = false) : Unknown o m (.unknownState p)

def Observation.Excluded (o : Observation) (m : Model) : Prop :=
  ∃ e a, m.graph.transitions.get? o.transition = some e ∧
    m.actions.entries.get? e.action = some a ∧ m.policy.isExcluded a.action.type = true

namespace Model

theorem addSnapshot_refuses (m : Model) (g : Snapshot) (r : Refusal) :
    ((m.addSnapshot g).1 = .error r ↔
      r = .emptySnapshot ∧ (g.elements = [] ∨ Text.isBlankText g.windowClass = true)) ∧
    ((m.addSnapshot g).1 = .error r → (m.addSnapshot g).2 = m) := by
  unfold addSnapshot Snapshot.validate
  by_cases empty : (g.elements.isEmpty || Text.isBlankText g.windowClass) = true
  · rw [if_pos empty]
    simp only [Bool.or_eq_true, List.isEmpty_iff] at empty
    simp [empty, @eq_comm _ r]
  · rw [if_neg empty]
    simp only [Bool.or_eq_true, List.isEmpty_iff] at empty
    simp [empty]

theorem attachSnapshot_refuses (m : Model) (k : StateId) (n : SnapshotId) (r : Refusal) :
    ((m.attachSnapshot k n).1 = .error r ↔
      m.snapshots.contains n = false ∧ r = .unknownSnapshot n ∨
      m.snapshots.contains n = true ∧ m.graph.states.contains k = false ∧ r = .unknownState k) ∧
    ((m.attachSnapshot k n).1 = .error r → (m.attachSnapshot k n).2 = m) := by
  unfold attachSnapshot
  cases m.snapshots.contains n <;> cases m.graph.states.contains k <;> simp [@eq_comm _ r]

end Model

namespace Session

variable {s s' : Session} {o : Observation} {m : Model} {r : Refusal}

theorem refusal?_eq_some : refusal? m o = some r ↔ o.Unknown m r := by
  constructor
  · intro refused
    unfold refusal? at refused
    split at refused
    · next absent =>
      cases refused
      exact .snapshot (by simpa using absent)
    split at refused
    · next snapshot absent =>
      cases refused
      exact .transition (by simpa using snapshot) (by simpa using absent)
    next snapshot transition =>
    simp only [Bool.not_eq_true', Bool.not_eq_false] at snapshot transition
    obtain ⟨k, found, rfl⟩ := Option.map_eq_some_iff.1 refused
    have absent : m.graph.states.contains k = false := by simpa using List.find?_some found
    rw [List.find?_cons] at found
    split at found
    · cases found
      exact .state snapshot transition absent
    · next state =>
      have given := Option.mem_toList.1 (List.mem_of_find?_eq_some found)
      exact .previous given snapshot transition (by simpa using state) absent
  · intro unknown
    cases unknown <;> simp [refusal?, *]

theorem not_unknown_of_live (live : o.Live m) : ¬ o.Unknown m r := by
  intro unknown
  cases (refusal?_eq_none.2 live).symm.trans (refusal?_eq_some.2 unknown)

/-- Refusals and ignored actions, with all that they leave behind. -/
structure Declines (s : Session) (o : Observation) (c : Except Refusal Classification)
    (s' : Session) : Prop where
  refused : ∀ r, c = .error r ↔ o.Unknown s.model r
  unchanged : ∀ r, c = .error r → s' = s
  ignored : c = .ok .ignored ↔ o.Live s.model ∧ o.Excluded s.model
  attached : c = .ok .ignored → s' = { s with model := { s.model with graph :=
    { s.model.graph with
      states := s.model.graph.states.modify o.state (State.attach o.snapshot) } } }

theorem sight_none_iff {seen : Option Sighting} (ok : s.sight o = .ok (seen, s')) :
    seen = none ↔ o.Excluded s.model := by
  obtain ⟨states, noted⟩ := s.noting_eq o
  have model : (s.model.attachSnapshot o.state o.snapshot).2 = _ := congrArg Session.model noted
  obtain ⟨e, a, live, action, -⟩ := sight_eq_ok ok
  rw [model] at live action
  rw [sight_excludes ok live action]
  constructor
  · exact fun excluded => ⟨e, a, live, action, excluded⟩
  · rintro ⟨e', a', live', action', excluded⟩
    cases live.symm.trans live'
    cases action.symm.trans action'
    exact excluded

theorem check_declines {c : Except Refusal Classification} (ok : s.check o = .ok (c, s')) :
    s.Declines o c s' := by
  obtain ⟨r, refused, rfl, rfl⟩ | ⟨live, sighted, rfl⟩ |
      ⟨live, g, s₁, k, sighted, classified, rfl⟩ := check_eq_ok ok
  · refine ⟨fun r' => ?_, fun _ _ => rfl, iff_of_false nofun ?_, nofun⟩
    · rw [← refusal?_eq_some, refused, Except.error.injEq, Option.some.injEq]
    · rintro ⟨live, -⟩
      exact not_unknown_of_live live (refusal?_eq_some.1 refused)
  · refine ⟨fun r => iff_of_false nofun (not_unknown_of_live live), nofun,
      iff_of_true rfl ⟨live, (sight_none_iff sighted).1 rfl⟩, fun _ => ?_⟩
    obtain ⟨-, -, -, -, ⟨-, rfl⟩ | ⟨_, _, -, -, ⟨⟩⟩⟩ := sight_eq_ok sighted
    rw [Model.attachSnapshot_eq live.snapshot live.state]
  · have answered : k ≠ .ignored := by
      rintro rfl
      cases classify_cases classified
    have decided : ¬ o.Excluded s.model := fun excluded => by
      cases (sight_none_iff sighted).2 excluded
    refine ⟨fun r => iff_of_false nofun (not_unknown_of_live live), nofun, ?_, ?_⟩
    · exact iff_of_false (fun same => answered (Except.ok.inj same)) fun both => decided both.2
    · exact fun same => absurd (Except.ok.inj same) answered

/-- A check always answers. If it refuses what it does not know, or ignores what is excluded, it
leaves nothing behind but that the state shows the snapshot. Snapshots are refused without a trace
as well. -/
theorem Used.check_refuses (used : s.Used) (wf : s.model.WellFormed) (o : Observation) :
    (∃ c s', s.check o = .ok (c, s') ∧ s.Declines o c s') ∧
    (∀ g r, ((s.model.addSnapshot g).1 = .error r ↔
        r = .emptySnapshot ∧ (g.elements = [] ∨ Text.isBlankText g.windowClass = true)) ∧
      ((s.model.addSnapshot g).1 = .error r → (s.model.addSnapshot g).2 = s.model)) ∧
    ∀ k n r, ((s.model.attachSnapshot k n).1 = .error r ↔
        s.model.snapshots.contains n = false ∧ r = .unknownSnapshot n ∨
        s.model.snapshots.contains n = true ∧ s.model.graph.states.contains k = false ∧
          r = .unknownState k) ∧
      ((s.model.attachSnapshot k n).1 = .error r → (s.model.attachSnapshot k n).2 = s.model) := by
  obtain ⟨c, s', ok⟩ := (used.sound wf).check_goes o
  exact ⟨⟨c, s', ok, check_declines ok⟩, s.model.addSnapshot_refuses,
    s.model.attachSnapshot_refuses⟩

theorem check_refuses_launched :
    check { model := .launched } ⟨⟨0⟩, ⟨2⟩, ⟨1⟩, some ⟨7⟩⟩ =
      .ok (.error (.unknownState ⟨7⟩), { model := .launched }) ∧
    ∃ s', check { model := { Model.launched with policy := { excluded := [.launchApp] } } }
        ⟨⟨0⟩, ⟨2⟩, ⟨1⟩, none⟩ = .ok (.ok .ignored, s') ∧
      s'.model.graph.transitions = Model.launched.graph.transitions ∧
      (s'.model.graph.states.get? ⟨2⟩).map State.snapshots = some (.ofList [⟨0⟩]) := by
  have wf := built_launched.sound.model
  have excluding := (built_launched.edit (.policy { excluded := [.launchApp] })).sound.model
  obtain ⟨⟨c, s', checked, declines⟩, -⟩ :=
    (Used.start .launched).check_refuses wf ⟨⟨0⟩, ⟨2⟩, ⟨1⟩, some ⟨7⟩⟩
  obtain ⟨⟨c', s'', checked', declines'⟩, -⟩ :=
    (Used.start { Model.launched with policy := { excluded := [.launchApp] } }).check_refuses
      excluding ⟨⟨0⟩, ⟨2⟩, ⟨1⟩, none⟩
  have refused := (declines.refused _).2 (.previous rfl rfl rfl rfl rfl)
  have ignored := declines'.ignored.2 ⟨⟨rfl, rfl, rfl, nofun⟩, ⟨_, _, rfl, rfl, rfl⟩⟩
  refine ⟨?_, s'', ?_, ?_⟩
  · rw [checked, refused, declines.unchanged _ refused]
  · rw [checked', ignored]
  · rw [declines'.attached ignored]
    exact ⟨rfl, by decide +kernel⟩

end Session

end ScreenGraph
