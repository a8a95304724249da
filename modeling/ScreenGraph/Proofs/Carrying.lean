import ScreenGraph.Proofs.Superseding

namespace ScreenGraph

structure Model.Readies (m m' : Model) : Prop where
  actions : m'.actions = m.actions
  inputs : ∀ {i x}, m.catalog.inputs.get? i = some x →
    ∃ x', m'.catalog.inputs.get? i = some x' ∧ x'.navigateBack = x.navigateBack
  edges : ∀ {id e'}, m'.graph.transitions.get? id = some e' →
    ∃ e, m.graph.transitions.get? id = some e ∧ e' = { e with isActive := e'.isActive }

namespace Model.Readies

variable {m m' m'' : Model}

theorem of_eq (actions : m'.actions = m.actions) (inputs : m'.catalog.inputs = m.catalog.inputs)
    (edges : m'.graph.transitions = m.graph.transitions) : m.Readies m' :=
  ⟨actions, fun live => ⟨_, inputs ▸ live, rfl⟩, fun live => ⟨_, edges ▸ live, rfl⟩⟩

theorem refl (m : Model) : m.Readies m := .of_eq rfl rfl rfl

theorem trans (h : m.Readies m') (h' : m'.Readies m'') : m.Readies m'' where
  actions := h'.actions.trans h.actions
  inputs live := by
    obtain ⟨x', live', same⟩ := h.inputs live
    obtain ⟨x'', live'', same'⟩ := h'.inputs live'
    exact ⟨x'', live'', same'.trans same⟩
  edges live'' := by
    obtain ⟨e', live', same'⟩ := h'.edges live''
    obtain ⟨e, live, same⟩ := h.edges live'
    exact ⟨e, live, by rw [same', same]⟩

end Model.Readies

namespace Session

variable {s s' : Session} {o : Observation} {g : Sighting} {k b : StateId}

theorem noting_readies (s : Session) (o : Observation) : s.model.Readies (s.noting o).model := by
  obtain ⟨states, noted⟩ := s.noting_eq o
  rw [noted]
  exact .of_eq rfl rfl rfl

theorem Sound.sight_readies (h : s.Sound) (ok : s.sight o = .ok (some g, s')) :
    s.model.Readies s'.model := by
  obtain ⟨-, _, _, -, -, -, -, -, same⟩ := sight_steps h.model.graph ok
  obtain ⟨-, _, -, edges, -⟩ := sight_frames h.model.graph ok
  refine ⟨?actions, fun {i x} live => ?inputs, fun live => (edges live).2⟩
  case actions =>
    rw [same]
    exact (noting_readies s o).actions
  case inputs =>
    rw [same]
    exact (noting_readies s o).inputs live

theorem replacements_ready {m m' : Model}
    (same : ∃ r, m' = { m with catalog := { m.catalog with replacements := r } }) :
    m.Readies m' := by
  obtain ⟨r, rfl⟩ := same
  exact .of_eq rfl rfl rfl

theorem migrateInput_readies {w : WindowId} {x : Matching} {i : InputId}
    (ok : migrateInput w x s i = .ok s') : s.model.Readies s'.model := by
  obtain ⟨-, rfl⟩ | ⟨-, rfl | ⟨y, j, z, -, -, -, rfl⟩⟩ := migrateInput_cases ok
  · exact .refl _
  · exact .refl _
  · refine ⟨rfl, fun live => ?_, fun live => ⟨_, live, rfl⟩⟩
    rcases Arena.get?_modify_of_get? j _ live with kept | changed
    · exact ⟨_, kept, rfl⟩
    · exact ⟨_, changed, rfl⟩

theorem migrateInputs_readies {x : Matching} (ok : s.migrateInputs k b x = .ok s') :
    s.model.Readies s'.model := by
  refine migrateInputs_induct (fun s' => s.model.Readies s'.model) ok (.refl _) ?_
  exact fun before ok => before.trans (migrateInput_readies ok)

theorem enter_readies {x : Matching} {plan : List Transfer} (ok : s.enter k b x = .ok (plan, s')) :
    s.model.Readies s'.model := by
  obtain ⟨s₁, migrated, planned⟩ := Checked.bind_eq_ok.1 ok
  obtain ⟨fs, -, done⟩ := Checked.bind_eq_ok.1 planned
  cases done
  have ready := migrateInputs_readies migrated
  exact ready

theorem Sound.check_parts (h : s.Sound) {c : Except Refusal Classification}
    (ok : s.check o = .ok (c, s')) :
    (s.model.Readies s'.model ∧
        ∀ b r, c = .ok (.equivalent b r) → s.ledger.isRecognised o.state b = true) ∨
      ∃ b r plan planned after, c = .ok (.equivalent b r) ∧
        s.ledger.isRecognised o.state b = false ∧ s.Plans o b plan planned ∧
        s.model.Readies planned.model ∧ planned.applyAll plan = .ok after ∧
        s'.model = after.model := by
  obtain ⟨r, -, rfl, rfl⟩ | ⟨-, sighted, rfl⟩ | ⟨-, g, s₁, k, sighted, classified, rfl⟩ :=
    check_eq_ok ok
  · exact .inl ⟨.refl _, nofun⟩
  · obtain ⟨-, -, -, -, ⟨-, rfl⟩ | ⟨-, -, -, -, ⟨⟩⟩⟩ := sight_eq_ok sighted
    exact .inl ⟨noting_readies s o, nofun⟩
  have before := h.sight_readies sighted
  obtain ⟨same, -, other⟩ | ⟨b, r, x, mid, after, rfl, found, registered, model, -⟩ :=
    (classify_cases classified).registers
  · refine .inl ⟨before.trans (replacements_ready same), ?_⟩
    rintro b r ⟨⟩
    exact absurd rfl (other b r)
  have before := before.trans (replacements_ready found.passed.1.2)
  obtain ⟨book, named⟩ := sight_book sighted
  have same : mid.ledger.isRecognised g.state b = s.ledger.isRecognised o.state b := by
    have equivalents : s₁.ledger.equivalents = s.ledger.equivalents :=
      (congrArg Ledger.equivalents book :)
    rw [found.isRecognised, (named g rfl).2, Ledger.isRecognised, Ledger.equivalentsOf, equivalents]
    rfl
  obtain ⟨entered, rfl⟩ | ⟨fresh, plan, planned, entered, applied⟩ := register_cases registered
  · refine .inl ⟨model ▸ before, ?_⟩
    rintro b r ⟨⟩
    exact same ▸ entered
  · have planning := enter_readies entered
    exact .inr ⟨b, r, plan, planned, after, rfl, same ▸ fresh, .intro sighted found entered,
      before.trans planning, applied, model⟩

/-- What holds of a transfer of a plan and the session in which its turn comes. -/
def AtTurn (s : Session) (plan : List Transfer) (p : Session → Transfer → Prop) : Prop :=
  ∃ done t rest now, plan = done ++ t :: rest ∧ s.applyAll done = .ok now ∧ p now t

variable {p : Session → Transfer → Prop} {t : Transfer} {plan : List Transfer}

theorem not_atTurn_nil : ¬ s.AtTurn [] p := by
  rintro ⟨done, t, rest, -, split, -, -⟩
  simp at split

theorem atTurn_cons (ok : s.applyTransfer t = .ok s') :
    s.AtTurn (t :: plan) p ↔ p s t ∨ s'.AtTurn plan p := by
  constructor
  · rintro ⟨_ | ⟨u, done⟩, t', rest, now, split, applied, holds⟩
    · cases split
      cases applied
      exact .inl holds
    · cases split
      obtain ⟨s₁, first, applied⟩ := Checked.bind_eq_ok.1 applied
      cases ok.symm.trans first
      exact .inr ⟨done, t', rest, now, rfl, applied, holds⟩
  · rintro (holds | ⟨done, t', rest, now, rfl, applied, holds⟩)
    · exact ⟨[], t, plan, s, rfl, rfl, holds⟩
    · exact ⟨t :: done, t', rest, now, rfl, Checked.bind_eq_ok.2 ⟨s', ok, applied⟩, holds⟩

theorem atTurn_iff (ok : s.applyAll plan = .ok s') : s.AtTurn plan p ↔
    ∃ done t rest now next, plan = done ++ t :: rest ∧ s.applyAll done = .ok now ∧ p now t ∧
      now.applyTransfer t = .ok next ∧ next.applyAll rest = .ok s' := by
  constructor
  · rintro ⟨done, t, rest, now, rfl, applied, holds⟩
    obtain ⟨now', applied', ok⟩ := Checked.bind_eq_ok.1 (foldChecked_append.symm.trans ok)
    cases applied.symm.trans applied'
    obtain ⟨next, first, ok⟩ := Checked.bind_eq_ok.1 ok
    exact ⟨done, t, rest, now, next, rfl, applied, holds, first, ok⟩
  · rintro ⟨done, t, rest, now, next, split, applied, holds, -, -⟩
    exact ⟨done, t, rest, now, split, applied, holds⟩

end Session

end ScreenGraph
