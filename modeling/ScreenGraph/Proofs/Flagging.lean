import ScreenGraph.Proofs.Carrying

namespace ScreenGraph

def Catalog.Flagged (c : Catalog) (i : InputId) : Prop :=
  ∃ x, c.inputs.get? i = some x ∧ x.navigateBack = true

theorem Catalog.Flagged.updateInput {f : Input → Input} {c c' : Catalog} {k : InputId}
    (ok : c.updateInput k f = .ok c')
    (keeps : ∀ x, x.navigateBack = true → (f x).navigateBack = true) {i : InputId}
    (flagged : c.Flagged i) : c'.Flagged i := by
  obtain ⟨x, live, flagged⟩ := flagged
  obtain ⟨-, rfl⟩ := updateInput_eq_ok.1 ok
  rcases Arena.get?_modify_of_get? k f live with kept | changed
  · exact ⟨x, kept, flagged⟩
  · exact ⟨f x, changed, keeps x flagged⟩

theorem Catalog.Flagged.updateInputs {f : Input → Input} {c c' : Catalog} {ids : List InputId}
    (ok : foldChecked (fun c i => c.updateInput i f) c ids = .ok c')
    (keeps : ∀ x, x.navigateBack = true → (f x).navigateBack = true) {i : InputId}
    (flagged : c.Flagged i) : c'.Flagged i :=
  foldChecked_induct (fun c : Catalog => c.Flagged i) ok flagged
    fun _ _ _ _ flagged ok => flagged.updateInput ok keeps

theorem Catalog.flagged_of_mem {c c' : Catalog} {ids : List InputId}
    (ok : foldChecked (fun c i => c.updateInput i fun x => { x with navigateBack := true }) c ids =
      .ok c') {i : InputId} (mem : i ∈ ids) : c'.Flagged i := by
  induction ids generalizing c with
  | nil => cases mem
  | cons k rest ih =>
    obtain ⟨c₁, first, ok⟩ := Checked.bind_eq_ok.1 ok
    cases mem with
    | tail _ mem => exact ih ok mem
    | head =>
      obtain ⟨live, rfl⟩ := updateInput_eq_ok.1 first
      obtain ⟨x, hx⟩ := Arena.contains_iff.1 live
      refine .updateInputs ok (fun _ _ => rfl) ⟨{ x with navigateBack := true }, ?_, rfl⟩
      simp [Arena.get?_modify, hx]

namespace Model

variable {m m' m'' : Model} {new new' : ActionId → InputId → Prop}

def NavigatesBack (m : Model) (a : ActionId) : Prop :=
  ∃ e, m.actions.entries.get? a = some e ∧ e.navigateBack = true

def Binds (m : Model) (a : ActionId) (i : InputId) : Prop :=
  ∃ e, m.actions.entries.get? a = some e ∧ i ∈ e.inputs

/-- Every input that is bound to an action that navigates back is flagged. -/
def FlagsAgree (m : Model) : Prop := ∀ a i, m.NavigatesBack a → m.Binds a i → m.catalog.Flagged i

structure FlagsGrow (m m' : Model) (new : ActionId → InputId → Prop) : Prop where
  navigates : ∀ {a}, m.NavigatesBack a → m'.NavigatesBack a
  flagged : ∀ {i}, m.catalog.Flagged i → m'.catalog.Flagged i
  binds : ∀ {a i}, m'.Binds a i ↔ m.Binds a i ∨ new a i
  marks : ∀ {a i}, m'.NavigatesBack a → m.Binds a i → m.NavigatesBack a ∨ m'.catalog.Flagged i

namespace FlagsGrow

theorem refl (m : Model) : m.FlagsGrow m fun _ _ => False :=
  ⟨id, id, (or_iff_left not_false).symm, fun back _ => .inl back⟩

theorem trans (h : m.FlagsGrow m' new) (h' : m'.FlagsGrow m'' new') :
    m.FlagsGrow m'' fun a i => new a i ∨ new' a i where
  navigates back := h'.navigates (h.navigates back)
  flagged flagged := h'.flagged (h.flagged flagged)
  binds {a i} := by rw [h'.binds, h.binds, or_assoc]
  marks back binds := by
    rcases h'.marks back (h.binds.2 (.inl binds)) with before | flagged
    · exact (h.marks before binds).imp_right h'.flagged
    · exact .inr flagged

theorem congr (h : m.FlagsGrow m' new) (same : ∀ {a i}, new a i ↔ new' a i) :
    m.FlagsGrow m' new' where
  navigates := h.navigates
  flagged := h.flagged
  binds {a i} := by rw [h.binds, same]
  marks := h.marks

theorem agree_iff (h : m.FlagsGrow m' new) (agree : m.FlagsAgree) :
    m'.FlagsAgree ↔ ∀ a i, new a i → m'.NavigatesBack a → m'.catalog.Flagged i := by
  constructor
  · exact fun agree' a i bound back => agree' a i back (h.binds.2 (.inr bound))
  · intro bound a i back binds
    rcases h.binds.1 binds with binds | fresh
    · rcases h.marks back binds with before | flagged
      · exact h.flagged (agree a i before binds)
      · exact flagged
    · exact bound a i fresh back

theorem agree (h : m.FlagsGrow m' fun _ _ => False) (agree : m.FlagsAgree) : m'.FlagsAgree :=
  (h.agree_iff agree).2 nofun

end FlagsGrow

theorem Readies.flags (h : m.Readies m') : m.FlagsGrow m' fun _ _ => False where
  navigates back := by rwa [NavigatesBack, h.actions]
  flagged flagged := by
    obtain ⟨x, live, flagged⟩ := flagged
    obtain ⟨x', live', same⟩ := h.inputs live
    exact ⟨x', live', same.trans flagged⟩
  binds := by simp [Binds, h.actions]
  marks back _ := .inl (by rwa [NavigatesBack, h.actions] at back)

theorem binds_of_modify {b : ActionId} {f : ActionEntry → ActionEntry}
    (entries : m'.actions.entries = m.actions.entries.modify b f)
    (inputs : ∀ e, (f e).inputs = e.inputs) {a : ActionId} {i : InputId} :
    m'.Binds a i ↔ m.Binds a i := by
  have same := Arena.map_get?_modify inputs a (a := m.actions.entries) (h := b)
  rw [← entries] at same
  constructor
  · rintro ⟨e', live', mem⟩
    obtain ⟨e, live, inputs⟩ := Arena.get?_of_map same live'
    exact ⟨e, live, inputs ▸ mem⟩
  · rintro ⟨e, live, mem⟩
    obtain ⟨e', live', inputs⟩ := Arena.get?_of_map same.symm live
    exact ⟨e', live', inputs ▸ mem⟩

variable {a old : ActionId}

theorem markNavigateBack_flags (ok : m.markNavigateBack a = .ok m') :
    m.FlagsGrow m' fun _ _ => False := by
  obtain ⟨actions, marked, ok⟩ := Checked.bind_eq_ok.1 ok
  obtain ⟨inputs, listed, ok⟩ := Checked.bind_eq_ok.1 ok
  obtain ⟨catalog, flagged, done⟩ := Checked.bind_eq_ok.1 ok
  cases done
  obtain ⟨-, rfl⟩ := ActionTable.update_eq_ok.1 marked
  obtain ⟨entry, live, same⟩ := Arena.get_bind_eq_ok.1 listed
  cases same
  have same : ∀ x i, Binds { m with catalog, actions := { m.actions with
      entries := m.actions.entries.modify a fun e => { e with navigateBack := true } } } x i ↔
      m.Binds x i := by
    intro x i
    refine binds_of_modify rfl ?_
    exact fun _ => rfl
  refine ⟨?navigates, ?flagged, ?binds, ?marks⟩
  case navigates =>
    rintro x ⟨e, live, back⟩
    rcases Arena.get?_modify_of_get? a _ live with kept | changed
    · exact ⟨e, kept, back⟩
    · exact ⟨_, changed, rfl⟩
  case flagged => exact .updateInputs flagged fun _ _ => rfl
  case binds =>
    intro x i
    rw [or_false]
    exact same x i
  case marks =>
    rintro x i ⟨e, live', back⟩ binds
    rcases Arena.of_get?_modify live' with ⟨-, before⟩ | ⟨rfl, -, -, -⟩
    · exact .inl ⟨e, before, back⟩
    · obtain ⟨e', live'', mem⟩ := (same a i).2 binds
      cases live.symm.trans live''
      exact .inr (Catalog.flagged_of_mem flagged mem)

theorem markTransfer_flags {t : Transfer} (ok : m.markTransfer t old a = .ok m') :
    m.FlagsGrow m' fun _ _ => False := by
  unfold markTransfer at ok
  split at ok
  · obtain ⟨m₁, first, ok⟩ := Checked.bind_eq_ok.1 ok
    refine ((markNavigateBack_flags first).trans (markNavigateBack_flags ok)).congr ?_
    simp
  · cases ok
    exact .refl _

theorem of_get?_intern {t : ActionTable} {window : WindowId} {x : Action} {b : ActionId}
    {e : ActionEntry} (live : (t.intern window x).2.entries.get? b = some e) :
    t.entries.get? b = some e ∨ e = { action := x } := by
  unfold ActionTable.intern at live
  split at live
  · exact .inl live
  · exact (Arena.of_get?_add live).imp_right fun new => new.2.symm

theorem internAction_navigates {window : WindowId} {x : Action} {b : ActionId}
    (ok : m.internAction window x = .ok (a, m')) (back : m'.NavigatesBack b) :
    m.NavigatesBack b := by
  obtain ⟨-, -, rfl⟩ := internAction_eq_ok ok
  obtain ⟨e, live, back⟩ := back
  rcases of_get?_intern live with before | rfl
  · exact ⟨e, before, back⟩
  · cases back

theorem internAction_flags {window : WindowId} {x : Action}
    (ok : m.internAction window x = .ok (a, m')) : m.FlagsGrow m' fun _ _ => False := by
  have back := fun {b} => internAction_navigates (b := b) ok
  obtain ⟨-, -, rfl⟩ := internAction_eq_ok ok
  refine ⟨?navigates, id, fun {b i} => ?binds, fun now _ => .inl (back now)⟩
  case navigates =>
    rintro b ⟨e, live, flag⟩
    exact ⟨e, ActionTable.intern_persists window x live, flag⟩
  case binds =>
    rw [or_false]
    constructor
    · rintro ⟨e, live, mem⟩
      rcases of_get?_intern live with before | rfl
      · exact ⟨e, before, mem⟩
      · exact absurd mem (OrderedSet.not_mem_empty i)
    · rintro ⟨e, live, mem⟩
      exact ⟨e, ActionTable.intern_persists window x live, mem⟩

theorem resolveAction_flags {x : TransferAction} (ok : m.resolveAction x = .ok (a, m')) :
    m.FlagsGrow m' fun _ _ => False := by
  cases x with
  | kept id =>
    cases ok
    exact .refl _
  | retargeted w x => exact internAction_flags ok

theorem bindInput_flags {i : InputId} {actions : ActionTable}
    (ok : m.actions.bindInput a i = .ok actions) :
    m.FlagsGrow { m with actions } fun x j => x = a ∧ j = i := by
  obtain ⟨live, rfl⟩ := ActionTable.update_eq_ok.1 ok
  obtain ⟨entry, live⟩ := Arena.contains_iff.1 live
  refine ⟨?navigates, id, fun {x j} => ?binds, ?marks⟩
  case navigates =>
    rintro x ⟨e, live, back⟩
    rcases Arena.get?_modify_of_get? a _ live with kept | changed
    · exact ⟨e, kept, back⟩
    · exact ⟨_, changed, back⟩
  case binds =>
    constructor
    · rintro ⟨e', live', mem⟩
      rcases Arena.of_get?_modify live' with ⟨-, before⟩ | ⟨rfl, e, before, rfl⟩
      · exact .inl ⟨e', before, mem⟩
      · exact (OrderedSet.mem_insert.1 mem).imp (⟨e, before, ·⟩) (⟨rfl, ·⟩)
    · rintro (⟨e, before, mem⟩ | ⟨rfl, rfl⟩)
      · rcases Arena.get?_modify_of_get? a _ before with kept | changed
        · exact ⟨e, kept, mem⟩
        · exact ⟨_, changed, OrderedSet.mem_insert.2 (.inl mem)⟩
      · refine ⟨{ entry with inputs := entry.inputs.insert j }, ?_,
          OrderedSet.mem_insert.2 (.inr rfl)⟩
        simp [Arena.get?_modify, live]
  case marks =>
    rintro x j ⟨e', live', back⟩ -
    rcases Arena.of_get?_modify live' with ⟨-, before⟩ | ⟨rfl, e, before, rfl⟩
    · exact .inl ⟨e', before, back⟩
    · exact .inl ⟨e, before, back⟩

theorem bindInputs_flags {ids : List InputId} {actions : ActionTable}
    (ok : foldChecked (fun t i => t.bindInput a i) m.actions ids = .ok actions) :
    m.FlagsGrow { m with actions } fun x i => x = a ∧ i ∈ ids := by
  induction ids generalizing m with
  | nil =>
    cases ok
    exact (FlagsGrow.refl m).congr (by simp)
  | cons i rest ih =>
    obtain ⟨t₁, first, ok⟩ := Checked.bind_eq_ok.1 ok
    have grow := ih (m := { m with actions := t₁ }) ok
    refine ((bindInput_flags first).trans grow).congr ?_
    simp [and_or_left]

theorem bindImages_flags {images : OrderedMap InputId InputId}
    (ok : m.bindImages images old a = .ok m') : m.FlagsGrow m' fun x i =>
      x = a ∧ ∃ k, m.Binds old k ∧ images.get? k = some i := by
  obtain ⟨inputs, listed, ok⟩ := Checked.bind_eq_ok.1 ok
  obtain ⟨actions, bound, done⟩ := Checked.bind_eq_ok.1 ok
  cases done
  obtain ⟨entry, live, same⟩ := Arena.get_bind_eq_ok.1 listed
  cases same
  refine (bindInputs_flags bound).congr fun {x i} => and_congr_right fun _ => ?_
  rw [List.mem_filterMap]
  constructor
  · rintro ⟨k, mem, image⟩
    exact ⟨k, ⟨entry, live, mem⟩, image⟩
  · rintro ⟨k, ⟨e, live', mem⟩, image⟩
    cases live.symm.trans live'
    exact ⟨k, mem, image⟩

end Model

namespace Session

variable {s s' : Session} {o : Observation}

inductive Attaches (s : Session) (t : Transfer) (a : ActionId) (i : InputId) : Prop
  | intro {old mid k} (edge : s.model.graph.transitions.get? t.baseEdge = some old)
      (prepared : s.transferAction t old = .ok (a, mid)) (bound : s.model.Binds old.action k)
      (image : s.ledger.inputImages.get? k = some i) : Attaches s t a i

def AttachesIn (s : Session) (plan : List Transfer) (a : ActionId) (i : InputId) : Prop :=
  s.AtTurn plan fun now t => now.Attaches t a i

theorem transferAction_flags {t : Transfer} {old : Transition} {a : ActionId}
    (ok : s.transferAction t old = .ok (a, s')) : s.model.FlagsGrow s'.model fun x i =>
      x = a ∧ ∃ k, s.model.Binds old.action k ∧ s.ledger.inputImages.get? k = some i := by
  obtain ⟨m₁, m₂, m₃, resolved, marked, bound, rfl⟩ := transferAction_eq_ok ok
  have before := (Model.resolveAction_flags resolved).trans (Model.markTransfer_flags marked)
  refine (before.trans (Model.bindImages_flags bound)).congr ?_
  simp [before.binds]

theorem applyTransfer_flags {t : Transfer} (ok : s.applyTransfer t = .ok s') :
    s.model.FlagsGrow s'.model (s.Attaches t) := by
  obtain ⟨old, a, s₁, g, live, prepared, -, model, -, -⟩ := applyTransfer_eq_ok ok
  have grow := transferAction_flags prepared
  -- what follows is done to the graph, where no flags are
  rw [model]
  refine Model.FlagsGrow.congr ⟨grow.navigates, grow.flagged, grow.binds, grow.marks⟩ ?_
  intro x i
  constructor
  · rintro ⟨rfl, k, bound, image⟩
    exact .intro live prepared bound image
  · rintro ⟨live', prepared', bound, image⟩
    cases live.symm.trans live'
    cases prepared.symm.trans prepared'
    exact ⟨rfl, _, bound, image⟩

theorem applyAll_flags {plan : List Transfer} (ok : s.applyAll plan = .ok s') :
    s.model.FlagsGrow s'.model (s.AttachesIn plan) := by
  induction plan generalizing s with
  | nil =>
    cases ok
    exact (Model.FlagsGrow.refl s'.model).congr (iff_of_false not_false not_atTurn_nil)
  | cons t rest ih =>
    obtain ⟨s₁, first, ok⟩ := Checked.bind_eq_ok.1 ok
    refine ((applyTransfer_flags first).trans (ih ok)).congr ?_
    exact (atTurn_cons (p := fun now t => now.Attaches t _ _) first).symm

/-- A transfer of the plan binds an image to its action when its turn comes, and the action
navigates back already. -/
def AttachesLate (s : Session) (plan : List Transfer) (a : ActionId) (i : InputId) : Prop :=
  s.AtTurn plan fun now t => now.Attaches t a i ∧
    ∃ next, now.applyTransfer t = .ok next ∧ next.model.NavigatesBack a

theorem applyAll_agree_iff {plan : List Transfer} (agree : s.model.FlagsAgree)
    (ok : s.applyAll plan = .ok s') : s'.model.FlagsAgree ↔
      ∀ a i, s.AttachesLate plan a i → s'.model.catalog.Flagged i := by
  rw [(applyAll_flags ok).agree_iff agree]
  refine forall₂_congr fun a i => ⟨fun flagged late => ?_, fun flagged attached back => ?_⟩
  · obtain ⟨done, t, rest, now, next, split, applied, ⟨attaches, next', first', back⟩, first,
      ok'⟩ := (atTurn_iff ok).1 late
    cases first.symm.trans first'
    exact flagged ⟨done, t, rest, now, split, applied, attaches⟩
      ((applyAll_flags ok').navigates back)
  · obtain ⟨done, t, rest, now, next, split, applied, attaches, first, ok'⟩ :=
      (atTurn_iff ok).1 attached
    have bound : next.model.Binds a i := (applyTransfer_flags first).binds.2 (.inr attaches)
    rcases (applyAll_flags ok').marks back bound with already | marked
    · exact flagged ⟨done, t, rest, now, split, applied, attaches, next, first, already⟩
    · exact marked

/-- Flags that agree still do after a check that enters no new pair. If it enters one, they do
exactly if each image that the plan binds to an action that navigates back already is flagged
somehow. -/
theorem Used.check_flags (used : s.Used) (wf : s.model.WellFormed) (agree : s.model.FlagsAgree)
    (o : Observation) : ∃ c s', s.check o = .ok (c, s') ∧
      ((∀ b r, c = .ok (.equivalent b r) → s.ledger.isRecognised o.state b = true) →
        s'.model.FlagsAgree) ∧
      ∀ b r, c = .ok (.equivalent b r) → s.ledger.isRecognised o.state b = false →
        ∃ plan planned after, s.Plans o b plan planned ∧ planned.applyAll plan = .ok after ∧
          s'.model = after.model ∧ (s'.model.FlagsAgree ↔
            ∀ a i, planned.AttachesLate plan a i → s'.model.catalog.Flagged i) := by
  have sound := used.sound wf
  obtain ⟨c, s', checked⟩ := sound.check_goes o
  refine ⟨c, s', checked, ?_⟩
  rcases sound.check_parts checked with
    ⟨ready, known⟩ | ⟨b, r, plan, planned, after, rfl, fresh, plans, ready, applied, model⟩
  · refine ⟨fun _ => ready.flags.agree agree, fun b r answer fresh => ?_⟩
    cases fresh.symm.trans (known b r answer)
  · constructor
    · exact fun known => absurd (fresh.symm.trans (known b r rfl)) nofun
    · rintro _ _ ⟨⟩ -
      refine ⟨plan, planned, after, plans, applied, model, ?_⟩
      rw [model]
      exact applyAll_agree_iff (ready.flags.agree agree) applied

end Session

def Model.dismissed : Model where
  catalog :=
    { windows := (Arena.add ∅
        { className := "Main", identifier := "main", kind := .activity, version := .base,
          inputs := .ofList [⟨0⟩, ⟨1⟩] }).2
      inputs := ((Arena.add ∅ { event := .click, window := ⟨0⟩, version := .base }).2.add
        { event := .click, window := ⟨0⟩, version := .running }).2
      index := OrderedMap.insert ∅ ("Main", "main") ⟨0⟩ }
  avms := ((AvmStore.add { signature := Attributes.spelling } ⟨0⟩ { resourceId := "ok" }).2.add
    ⟨2⟩ { resourceId := "ok" }).2
  actions :=
    { entries := ((Arena.add ∅
        { action := { kind := .click, target := some ⟨0⟩ }, inputs := .ofList [⟨0⟩] }).2.add
        { action := { kind := .launchApp } }).2
      index := (OrderedMap.insert ∅ (⟨0⟩, { kind := .click, target := some ⟨0⟩ }) ⟨0⟩).insert
        (⟨0⟩, { kind := .launchApp }) ⟨1⟩ }
  graph := Graph.withEdge
    (Graph.withEdge
      { states := (((Arena.add ∅
          { window := ⟨0⟩, version := .base, isInitial := true, avms := .ofList [⟨0⟩] }).2.add
          { window := ⟨0⟩, version := .base, snapshots := .ofList [⟨0⟩] }).2.add
          { window := ⟨0⟩, version := .running, avms := .ofList [⟨1⟩] }).2 }
      { source := ⟨0⟩, action := ⟨0⟩, dest := ⟨1⟩, version := .base, guards := .ofList [⟨1⟩] } ∅)
    { source := ⟨1⟩, action := ⟨1⟩, dest := ⟨2⟩, version := .running } ∅
  snapshots := ((Arena.add ∅ { windowClass := "Main", elements := [{}] }).2.add
    { windowClass := "Main", elements := [{}] }).2

namespace Session

theorem built_dismissed : Built { model := .dismissed } := by
  have window :=
    (Built.start {} Attributes.spelling).edit (.openWindow "Main" "main" .activity .base)
  have old := window.edit
    (@Model.Edit.addInput _ { event := .click, window := ⟨0⟩, version := .base } _ _ rfl)
  have new := old.edit
    (@Model.Edit.addInput _ { event := .click, window := ⟨0⟩, version := .running } _ _ rfl)
  have first := new.addState ⟨0⟩ .base [.isInitial true] rfl
  have second := first.addState ⟨0⟩ .base [.snapshots (.ofList [⟨0⟩])] rfl
  have running := second.addState ⟨0⟩ .running [] rfl
  have button := running.edit (@Model.Edit.addAvm _ ⟨0⟩ { resourceId := "ok" } none _ _ rfl)
  have again := button.edit (@Model.Edit.addAvm _ ⟨2⟩ { resourceId := "ok" } none _ _ rfl)
  have click := again.edit
    (@Model.Edit.internAction _ ⟨0⟩ { kind := .click, target := some ⟨0⟩ } _ _ rfl)
  have launch := click.edit (@Model.Edit.internAction _ ⟨0⟩ { kind := .launchApp } _ _ rfl)
  have bound := launch.edit (@Model.Edit.bindInput _ ⟨0⟩ ⟨0⟩ _ rfl rfl)
  have snapshot := bound.edit (.addSnapshot { windowClass := "Main", elements := [{}] })
  have another := snapshot.edit (.addSnapshot { windowClass := "Main", elements := [{}] })
  have back := another.withEdge
    { source := ⟨0⟩, action := ⟨0⟩, dest := ⟨1⟩, version := .base, guards := .ofList [⟨1⟩] } ∅ rfl
    rfl (.of_all rfl rfl)
  exact back.withEdge
    { source := ⟨1⟩, action := ⟨1⟩, dest := ⟨2⟩, version := .running } ∅ rfl rfl (.of_all rfl rfl)

theorem dismissed_agrees : Model.dismissed.FlagsAgree := by
  rintro ⟨a⟩ i ⟨e, live, back⟩ -
  have none : Model.dismissed.actions.entries.entries.all (fun p => !p.2.navigateBack) = true := by
    decide
  have := List.all_eq_true.1 none _ (Arena.mem_entries.2 live)
  simp [back] at this

theorem check_dismissed : ∃ s',
    check { model := .dismissed } ⟨⟨1⟩, ⟨2⟩, ⟨1⟩, none⟩ =
      .ok (.ok (.equivalent ⟨0⟩ .avmMatch), s') ∧ ¬ s'.model.FlagsAgree := by
  obtain ⟨s', checked⟩ := ok_of_answer (c := .equivalent ⟨0⟩ .avmMatch)
    (by decide +kernel : (check { model := .dismissed } ⟨⟨1⟩, ⟨2⟩, ⟨1⟩, none⟩).toOption.map
      (fun r => r.1.toOption) = _)
  have entry : (check { model := .dismissed } ⟨⟨1⟩, ⟨2⟩, ⟨1⟩, none⟩).toOption.bind (fun r =>
      (r.2.model.actions.entries.get? ⟨2⟩).bind fun e =>
        (r.2.model.catalog.inputs.get? ⟨1⟩).map fun x =>
          (e.navigateBack, e.inputs.toList, x.navigateBack)) =
      some (true, [⟨1⟩], false) := by decide +kernel
  rw [checked] at entry
  simp only [Except.toOption, Option.bind_some, Option.bind_eq_some_iff, Option.map_eq_some_iff,
    Prod.mk.injEq] at entry
  obtain ⟨e, live, x, live', back, inputs, unflagged⟩ := entry
  refine ⟨s', checked, fun agree => ?_⟩
  have mem : ⟨1⟩ ∈ e.inputs := by
    rw [OrderedSet.mem_def, inputs]
    exact List.mem_singleton_self _
  obtain ⟨y, live'', flagged⟩ := agree ⟨2⟩ ⟨1⟩ ⟨e, live, back⟩ ⟨e, live, mem⟩
  cases live'.symm.trans live''
  cases unflagged.symm.trans flagged

theorem check_flags_dismissed : ∃ s' plan planned a i,
    check { model := .dismissed } ⟨⟨1⟩, ⟨2⟩, ⟨1⟩, none⟩ =
      .ok (.ok (.equivalent ⟨0⟩ .avmMatch), s') ∧
    Plans { model := .dismissed } ⟨⟨1⟩, ⟨2⟩, ⟨1⟩, none⟩ ⟨0⟩ plan planned ∧
    planned.AttachesLate plan a i ∧ ¬ s'.model.catalog.Flagged i := by
  obtain ⟨s', checked, differ⟩ := check_dismissed
  obtain ⟨c, _, again, -, fresh⟩ := (Used.start .dismissed).check_flags built_dismissed.sound.model
    dismissed_agrees ⟨⟨1⟩, ⟨2⟩, ⟨1⟩, none⟩
  cases checked.symm.trans again
  obtain ⟨plan, planned, -, plans, -, -, agree⟩ := fresh _ _ rfl rfl
  rw [agree] at differ
  simp only [not_forall] at differ
  obtain ⟨a, i, late, unflagged⟩ := differ
  exact ⟨s', plan, planned, a, i, checked, plans, late, unflagged⟩

/-- Flags that agree need not do so after a check. -/
theorem not_flags_agree_dismissed : ¬ ∀ s o c s', Used s → s.model.WellFormed →
    s.model.FlagsAgree → s.check o = .ok (c, s') → s'.model.FlagsAgree := by
  intro agree
  obtain ⟨s', checked, differ⟩ := check_dismissed
  exact differ (agree _ _ _ s' (.start .dismissed) built_dismissed.sound.model dismissed_agrees
    checked)

end Session

end ScreenGraph
