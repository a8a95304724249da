import ScreenGraph.Proofs.Comparing
import ScreenGraph.Proofs.Planning

namespace ScreenGraph

namespace Model

variable {m m' : Model}

theorem ActionsKnown.modify (h : m.ActionsKnown) {a : ActionId} {f : ActionEntry → ActionEntry}
    (same : ∀ e, (f e).action = e.action)
    (inputs : ∀ e i, i ∈ (f e).inputs → i ∈ e.inputs ∨ m.catalog.inputs.contains i = true) :
    ActionsKnown { m with
      actions := { m.actions with entries := m.actions.entries.modify a f } } where
  target he v hv := by
    rcases Arena.of_get?_modify he with ⟨-, old⟩ | ⟨-, e, before, rfl⟩
    · exact h.target old v hv
    · exact h.target before v (same e ▸ hv)
  input he i hi := by
    rcases Arena.of_get?_modify he with ⟨-, old⟩ | ⟨-, e, before, rfl⟩
    · exact h.input old i hi
    · rcases inputs e i hi with listed | live
      · exact h.input before i listed
      · exact live
  interned ha := (Arena.contains_modify ..).trans (h.interned ha)

theorem ActionsKnown.intern (h : m.ActionsKnown) (w : WindowId) {x : Action}
    (target : ∀ v, x.target = some v → m.avms.avms.contains v = true) :
    ActionsKnown { m with actions := (m.actions.intern w x).2 } := by
  unfold ActionTable.intern
  split
  · exact h
  refine ⟨?_, ?_, ?_⟩
  · intro a e he v hv
    rcases Arena.of_get?_add he with old | ⟨-, rfl⟩
    · exact h.target old v hv
    · exact target v hv
  · intro a e he i hi
    rcases Arena.of_get?_add he with old | ⟨-, rfl⟩
    · exact h.input old i hi
    · exact absurd hi (OrderedSet.not_mem_empty i)
  · intro k a ha
    rcases OrderedMap.of_get?_insert ha with old | rfl
    · exact Arena.contains_add (h.interned old) _
    · exact Arena.contains_next ..

theorem ActionsKnown.contains_intern (h : m.ActionsKnown) (w : WindowId) (x : Action) :
    (m.actions.intern w x).2.entries.contains (m.actions.intern w x).1 = true := by
  unfold ActionTable.intern
  split
  · next found => exact h.interned found
  · simp [Arena.contains, Arena.get?_add]

theorem avm_of_windowOfAvm {a : AvmId} {w : WindowId} (ok : m.windowOfAvm a = .ok w) :
    m.avms.avms.contains a = true := by
  obtain ⟨v, -, hv, -⟩ := windowOfAvm_eq_ok.1 ok
  exact Arena.contains_of_get? hv

theorem internAction_succeeds {w : WindowId} {x : Action}
    (target : ∀ v, x.target = some v → m.windowOfAvm v = .ok w) :
    Succeeds (m.internAction w x) := by
  unfold internAction
  cases some : x.target with
  | none => exact succeeds_pure _
  | some v =>
    refine .after (target v some) ?_
    exact (succeeds_require (decide_eq_true rfl)).bind fun _ _ => succeeds_pure _

theorem WellFormed.internAction (wf : m.WellFormed) {w : WindowId} {x : Action} {a : ActionId}
    (ok : m.internAction w x = .ok (a, m')) :
    m'.WellFormed ∧ m'.actions.entries.contains a = true := by
  have aside := internAction_aside ok
  obtain ⟨target, rfl, rfl⟩ := internAction_eq_ok ok
  refine ⟨wf.aside aside (wf.actions.intern w fun v hv => ?_), wf.actions.contains_intern w x⟩
  exact avm_of_windowOfAvm (target v hv)

theorem WellFormed.markNavigateBack_succeeds (wf : m.WellFormed) {a : ActionId}
    (live : m.actions.entries.contains a = true) : Succeeds (m.markNavigateBack a) := by
  obtain ⟨e, he⟩ := Arena.contains_iff.1 live
  have marked : (m.actions.entries.modify a fun e => { e with navigateBack := true }).get? a =
      some { e with navigateBack := true } := by
    simp [Arena.get?_modify, he]
  refine .after (ActionTable.update_eq_ok.2 ⟨live, rfl⟩) ?_
  refine .after (Arena.get_bind_eq_ok.2 ⟨_, marked, rfl⟩) ?_
  exact (Catalog.updateInputs_succeeds (wf.actions.input he)).bind fun _ _ => succeeds_pure _

theorem WellFormed.markNavigateBack (wf : m.WellFormed) {a : ActionId}
    (ok : m.markNavigateBack a = .ok m') : m'.WellFormed := by
  have aside := markNavigateBack_aside ok
  obtain ⟨actions, marked, ok⟩ := Checked.bind_eq_ok.1 ok
  obtain ⟨inputs, -, ok⟩ := Checked.bind_eq_ok.1 ok
  obtain ⟨catalog, -, done⟩ := Checked.bind_eq_ok.1 ok
  cases done
  obtain ⟨-, rfl⟩ := ActionTable.update_eq_ok.1 marked
  have marked := wf.actions.modify (a := a) (f := fun e => { e with navigateBack := true })
    (fun _ => rfl) fun _ _ => .inl
  refine wf.aside aside ⟨marked.target, ?_, marked.interned⟩
  intro x e he i hi
  exact (aside.inputs i).trans (marked.input he i hi)

theorem WellFormed.markTransfer_succeeds (wf : m.WellFormed) (t : Transfer) {old a : ActionId}
    (hold : m.actions.entries.contains old = true) (ha : m.actions.entries.contains a = true) :
    Succeeds (m.markTransfer t old a) := by
  unfold Model.markTransfer
  split
  · refine (wf.markNavigateBack_succeeds hold).bind fun m₁ marked => ?_
    have aside := markNavigateBack_aside marked
    exact (wf.markNavigateBack marked).markNavigateBack_succeeds (aside.contains_action ha)
  · exact succeeds_ok _

theorem WellFormed.markTransfer (wf : m.WellFormed) {t : Transfer} {old a : ActionId}
    (ok : m.markTransfer t old a = .ok m') : m'.WellFormed := by
  unfold Model.markTransfer at ok
  split at ok
  · obtain ⟨m₁, first, ok⟩ := Checked.bind_eq_ok.1 ok
    exact (wf.markNavigateBack first).markNavigateBack ok
  · cases ok
    exact wf

theorem bindImages_succeeds (images : OrderedMap InputId InputId)
    {old a : ActionId} (hold : m.actions.entries.contains old = true)
    (ha : m.actions.entries.contains a = true) : Succeeds (m.bindImages images old a) := by
  obtain ⟨e, he⟩ := Arena.contains_iff.1 hold
  refine .after (Arena.get_bind_eq_ok.2 ⟨e, he, rfl⟩) ?_
  refine Succeeds.bind ?_ fun _ _ => succeeds_pure _
  refine foldChecked_succeeds (fun t : ActionTable => t.entries.contains a = true) ha ?_ ?_
  · exact fun t i _ live => ⟨_, ActionTable.update_eq_ok.2 ⟨live, rfl⟩⟩
  · intro t i _ t' live ok
    obtain ⟨-, rfl⟩ := ActionTable.update_eq_ok.1 ok
    exact (Arena.contains_modify ..).trans live

theorem WellFormed.bindImages (wf : m.WellFormed) {images : OrderedMap InputId InputId}
    (live : ∀ {i j}, images.get? i = some j → m.catalog.inputs.contains j = true)
    {old a : ActionId} (ok : m.bindImages images old a = .ok m') : m'.WellFormed := by
  have aside := bindImages_aside ok
  simp only [Model.bindImages, Checked.bind_eq_ok, pure_eq_ok] at ok
  obtain ⟨inputs, -, actions, ok, rfl⟩ := ok
  refine wf.aside aside ?_
  refine foldChecked_induct (fun t : ActionTable => ActionsKnown { m with actions := t }) ok
    wf.actions ?_
  intro t j mem t' known ok
  obtain ⟨-, rfl⟩ := ActionTable.update_eq_ok.1 ok
  obtain ⟨i, -, image⟩ := List.mem_filterMap.1 mem
  refine known.modify (fun _ => rfl) fun e k hk => ?_
  rcases OrderedSet.mem_insert.1 hk with old | rfl
  · exact .inl old
  · exact .inr (live image)

theorem WellFormed.carried (wf : m.WellFormed) {t : Transfer} (known : m.KnowsTransfer t)
    {a : ActionId} (ha : m.actions.entries.contains a = true) {old : Transition} {c : Coverage}
    {g : Graph} (carried : m.graph.Carried t a old c g) : { m with graph := g }.WellFormed := by
  refine wf.withGraph (carried.consistent wf.graph) carried.sameStates ?_
  intro id e' live
  cases carried with
  | copied =>
    rcases Graph.of_get?_withEdge live with old | ⟨-, rfl⟩
    · exact wf.edge old
    · exact ⟨ha, known.guards⟩
  | folded =>
    rcases Arena.of_get?_modify live with ⟨-, old⟩ | ⟨-, e, he, rfl⟩
    · exact wf.edge old
    · refine (wf.edge he).unguarded (unguarded_widen t e) fun s hs => ?_
      exact (Model.mem_widen hs).elim ((wf.edge he).guards s) (known.guards s)

end Model

namespace Session

variable {s s' : Session} {t : Transfer} {old : Transition} {a : ActionId} {c : Coverage}

theorem transferAction_ledger (ok : s.transferAction t old = .ok (a, s')) :
    s'.ledger = s.ledger := by
  obtain ⟨m₁, m₂, m₃, -, -, -, rfl⟩ := transferAction_eq_ok ok
  rfl

theorem resolveAction_succeeds (known : s.model.KnowsTransfer t) :
    Succeeds (s.model.resolveAction t.action) := by
  cases action : t.action with
  | kept id => exact succeeds_ok _
  | retargeted w x => exact Model.internAction_succeeds fun v hv => known.retargeted action hv

theorem Sound.resolveAction (h : s.Sound) (known : s.model.KnowsTransfer t) {m : Model}
    (ok : s.model.resolveAction t.action = .ok (a, m)) :
    m.WellFormed ∧ m.actions.entries.contains a = true := by
  cases action : t.action with
  | kept id =>
    rw [action] at ok
    cases ok
    exact ⟨h.model, known.kept action⟩
  | retargeted w x =>
    rw [action] at ok
    exact h.model.internAction ok

theorem Sound.transferAction_succeeds (h : s.Sound) (known : s.model.KnowsTransfer t)
    (hold : s.model.actions.entries.contains old.action = true) :
    Succeeds (s.transferAction t old) := by
  refine (resolveAction_succeeds known).bind fun ⟨a, m₁⟩ resolved => ?_
  obtain ⟨wf, ha⟩ := h.resolveAction known resolved
  have hold := (Model.resolveAction_aside resolved).contains_action hold
  refine (wf.markTransfer_succeeds t hold ha).bind fun m₂ marked => ?_
  have aside := Model.markTransfer_aside marked
  refine Succeeds.bind ?_ fun _ _ => succeeds_pure _
  exact Model.bindImages_succeeds _ (aside.contains_action hold) (aside.contains_action ha)

theorem Sound.transferAction (h : s.Sound) (known : s.model.KnowsTransfer t)
    (ok : s.transferAction t old = .ok (a, s')) :
    s'.Sound ∧ s'.model.actions.entries.contains a = true := by
  have aside := (transferAction_aside ok).model
  obtain ⟨m₁, m₂, m₃, resolved, marked, bound, rfl⟩ := transferAction_eq_ok ok
  obtain ⟨wf, ha⟩ := h.resolveAction known resolved
  have second := Model.markTransfer_aside marked
  refine ⟨⟨?_, h.ledger.keeps aside.toKeeps⟩, ?_⟩
  · refine (wf.markTransfer marked).bindImages (fun image => ?_) bound
    rw [second.inputs, (Model.resolveAction_aside resolved).inputs]
    exact h.ledger.input image
  · exact (Model.bindImages_aside bound).contains_action (second.contains_action ha)

theorem Sound.mergeTarget_succeeds (h : s.Sound) (known : s.model.KnowsTransfer t) :
    Succeeds (s.model.mergeTarget t a) := by
  refine (h.model.graph.outgoingBy_succeeds a known.source).bind fun ids hids => ?_
  refine findChecked_succeeds fun id mem => ?_
  obtain ⟨st, e, -, -, he, -⟩ := (Graph.mem_outgoingBy hids).1 mem
  exact .get he (succeeds_pure _)

theorem Sound.transferEdge_succeeds (h : s.Sound) (known : s.model.KnowsTransfer t) :
    Succeeds (s.transferEdge t old c a) := by
  refine (h.mergeTarget_succeeds known).bind fun target found => ?_
  cases target with
  | none =>
    have added := (Graph.addTransition_eq_ok (t := Model.transferred t a old) (c := c)).2
      ⟨known.source, known.dest, rfl, rfl⟩
    refine Succeeds.bind ?_ fun _ _ => succeeds_pure _
    exact .after added (succeeds_pure _)
  | some into =>
    obtain ⟨ids, hids, found⟩ := Checked.bind_eq_ok.1 found
    obtain ⟨st, e, -, -, he, -⟩ := (Graph.mem_outgoingBy hids).1 (findChecked_eq_some found).1
    have live := Arena.contains_of_get? he
    have covered := (h.model.graph.coverages into).trans live
    obtain ⟨before, hbefore⟩ := OrderedMap.contains_iff.1 covered
    refine Succeeds.bind ?_ fun _ _ => succeeds_pure _
    refine .after (Graph.mergeCoverage_eq_ok.2 ⟨before, hbefore, rfl⟩) ?_
    exact .after (Graph.updateTransition_eq_ok.2 ⟨live, rfl⟩) (succeeds_pure _)

theorem Sound.applyTransfer_succeeds (h : s.Sound) (known : s.model.KnowsTransfer t)
    (live : s.model.graph.transitions.contains t.baseEdge = true) :
    Succeeds (s.applyTransfer t) := by
  obtain ⟨e, he⟩ := Arena.contains_iff.1 live
  refine .get he ?_
  have hold := (h.model.edge he).action
  refine (h.transferAction_succeeds known hold).bind fun ⟨a, s₁⟩ prepared => ?_
  obtain ⟨sound, ha⟩ := h.transferAction known prepared
  have known := known.keeps (transferAction_aside prepared).model.toKeeps
  refine (sound.transferEdge_succeeds known).bind fun s₂ carried => ?_
  obtain ⟨g, carried, model, -⟩ := transferEdge_eq_ok carried
  split
  · exact succeeds_pure _
  · rw [model]
    refine (Graph.Consistent.removeTransition_succeeds ?_ _).bind fun _ _ => succeeds_pure _
    exact carried.consistent sound.model.graph

theorem Sound.applyTransfer (h : s.Sound) (known : s.model.KnowsTransfer t)
    (ok : s.applyTransfer t = .ok s') : s'.Sound := by
  obtain ⟨old, a, s₁, g, -, prepared, carried, model, book, images⟩ := applyTransfer_eq_ok ok
  have keeps := (applyTransfer_keeps ok).model
  obtain ⟨sound, ha⟩ := h.transferAction known prepared
  have aside := (transferAction_aside prepared).model
  rw [← aside.graph] at carried
  have wf := sound.model.carried (known.keeps aside.toKeeps) ha carried
  constructor
  · have after := applyTransfer_consistent h.model.graph ok
    rw [model] at after ⊢
    split
    · next incoming =>
      simp only [incoming, if_true] at after
      refine wf.withGraph after (Graph.withoutEdge_sameStates _ _) ?_
      exact fun live => wf.edge (Graph.of_get?_withoutEdge live).1
    · exact wf
  · refine (h.ledger.keeps keeps).book book fun image => ?_
    rw [images, transferAction_ledger prepared] at image
    rw [keeps.inputs]
    exact h.ledger.input image

variable {base : StateId} {plan : List Transfer}

theorem Sound.applyAll_succeeds (h : s.Sound) (awaits : s.model.graph.Awaits base plan)
    (known : ∀ t ∈ plan, s.model.KnowsTransfer t) : Succeeds (s.applyAll plan) := by
  induction plan generalizing s with
  | nil => exact succeeds_ok _
  | cons t rest ih =>
    obtain ⟨e, live, -⟩ := awaits.live t (by simp)
    have known_t := known t (by simp)
    refine (h.applyTransfer_succeeds known_t (Arena.contains_of_get? live)).bind ?_
    intro s₁ first
    refine ih (h.applyTransfer known_t first) (applyTransfer_awaits awaits first) ?_
    exact fun u hu => (known u (by simp [hu])).keeps (applyTransfer_keeps first).model

theorem Sound.applyAll (h : s.Sound) (known : ∀ t ∈ plan, s.model.KnowsTransfer t)
    (ok : s.applyAll plan = .ok s') : s'.Sound := by
  induction plan generalizing s with
  | nil =>
    cases ok
    exact h
  | cons t rest ih =>
    obtain ⟨s₁, first, ok⟩ := Checked.bind_eq_ok.1 ok
    refine ih (h.applyTransfer (known t (by simp)) first) ?_ ok
    exact fun u hu => (known u (by simp [hu])).keeps (applyTransfer_keeps first).model

theorem findInput_succeeds (h : s.Sound) {st : StateId} {so : State}
    (live : s.model.graph.states.get? st = some so) (event : ActionType) (data : String)
    (widget : Option WidgetId) (v : Version) :
    Succeeds (s.model.catalog.findInput so.window event data widget v) := by
  obtain ⟨w, hw⟩ := Arena.contains_iff.1 (h.model.states.window live)
  refine .get hw ?_
  refine findChecked_succeeds fun i mem => ?_
  obtain ⟨x, hx⟩ := Arena.contains_iff.1 (h.model.states.input hw i mem)
  exact .get hx (succeeds_pure _)

theorem findInput_live (h : s.Sound) {w : WindowId} {event : ActionType} {data : String}
    {widget : Option WidgetId} {v : Version} {i : InputId}
    (ok : s.model.catalog.findInput w event data widget v = .ok (some i)) :
    s.model.catalog.inputs.contains i = true := by
  obtain ⟨win, hwin, ok⟩ := Arena.get_bind_eq_ok.1 ok
  exact h.model.states.input hwin i (findChecked_eq_some ok).1

variable {o b : StateId} {so : State} {matching : Matching} {i : InputId}

theorem Sound.imageInput (h : s.Sound) {x : Input} {w : WindowId}
    (ok : s.model.findInputImage x w matching = .ok (some i)) :
    s.model.catalog.inputs.contains i = true := by
  unfold Model.findInputImage at ok
  split at ok
  · exact findInput_live h ok
  · obtain ⟨w, -, ok⟩ := findMapChecked_eq_some ok
    exact findInput_live h ok

theorem Sound.migrateInput_succeeds (h : s.Sound) (ho : s.model.graph.states.get? o = some so)
    (live : s.model.catalog.inputs.contains i = true) :
    Succeeds (migrateInput so.window matching s i) := by
  unfold migrateInput
  split
  · exact succeeds_pure _
  obtain ⟨x, hx⟩ := Arena.contains_iff.1 live
  refine .get hx ?_
  refine Succeeds.bind ?_ fun image found => ?_
  · unfold Model.findInputImage
    split
    · exact findInput_succeeds h ho ..
    · exact findMapChecked_succeeds fun w _ => findInput_succeeds h ho ..
  cases image with
  | none => exact succeeds_pure _
  | some j =>
    have image := h.imageInput found
    obtain ⟨y, hy⟩ := Arena.contains_iff.1 image
    refine .get hy ?_
    exact .after (Catalog.updateInput_eq_ok.2 ⟨image, rfl⟩) (succeeds_pure _)

theorem Sound.migrateInput (h : s.Sound) {w : WindowId}
    (ok : migrateInput w matching s i = .ok s') : s'.Sound := by
  have aside := migrateInput_aside ok
  have known := h.ledger.keeps aside.keeps.model
  obtain ⟨-, rfl⟩ | ⟨-, rfl | ⟨x, j, y, -, -, image, rfl⟩⟩ := migrateInput_cases ok
  · exact h
  · exact ⟨h.model, known.book rfl known.input⟩
  · refine ⟨h.model.aside aside.model (h.model.actions.keeps aside.keeps.model rfl), ?_⟩
    refine known.book rfl fun {k l} hl => ?_
    rcases OrderedMap.of_get?_insert hl with old | rfl
    · exact known.input old
    · exact (aside.model.inputs _).trans (Arena.contains_of_get? image)

theorem Sound.migrateInputs_succeeds (h : s.Sound) (ho : s.model.graph.states.get? o = some so)
    (hb : s.model.graph.states.contains b = true) : Succeeds (s.migrateInputs o b matching) := by
  obtain ⟨sb, hsb⟩ := Arena.contains_iff.1 hb
  obtain ⟨w, hw⟩ := Arena.contains_iff.1 (h.model.states.window hsb)
  have reads := h.model.states.input hw
  refine .get hsb ?_
  refine .get ho ?_
  refine Succeeds.bind ?_ fun ids hids => ?_
  · refine .get hw ?_
    refine filterChecked_succeeds fun i mem => ?_
    obtain ⟨x, hx⟩ := Arena.contains_iff.1 (reads i mem)
    exact .get hx (succeeds_pure _)
  have live : ∀ i ∈ ids, s.model.catalog.inputs.contains i = true := by
    obtain ⟨w, hw', found⟩ := Arena.get_bind_eq_ok.1 hids
    cases hw.symm.trans hw'
    exact fun i mem => reads i ((mem_filterChecked found).1 mem).1
  refine foldChecked_succeeds (fun s' => s'.Sound ∧ s.Aside s') ⟨h, .refl s⟩ ?_ ?_
  · rintro s₁ i mem ⟨sound, aside⟩
    refine sound.migrateInput_succeeds (aside.model.graph ▸ ho) ?_
    exact (aside.model.inputs i).trans (live i mem)
  · rintro s₁ i - s₂ ⟨sound, aside⟩ ok
    exact ⟨sound.migrateInput ok, aside.trans (migrateInput_aside ok)⟩

theorem Sound.migrateInputs (h : s.Sound) (ok : s.migrateInputs o b matching = .ok s') :
    s'.Sound :=
  migrateInputs_induct Sound ok h fun sound ok => sound.migrateInput ok

def Places (s : Session) (o : StateId) (matching : Matching) : Prop :=
  ∀ so v i, s.model.graph.states.get? o = some so → matching.image? v = some i →
    s.model.windowOfAvm i = .ok so.window

theorem places_unmatched (s : Session) (o : StateId) : s.Places o {} := by
  intro so v i _ image
  cases image

theorem places_pair {i v : AvmId} (placed : ∀ so, s.model.graph.states.get? o = some so →
    s.model.windowOfAvm i = .ok so.window) : s.Places o (.ofPairs [(i, v)]) := by
  intro so v' i' ho image
  obtain ⟨partners, found, first⟩ := Option.bind_eq_some_iff.1 image
  rw [Matching.ofPairs, List.foldl_cons, List.foldl_nil, Matching.register,
    OrderedMap.get?_addTo] at found
  split at found
  · cases found
    cases first
    exact placed so ho
  · cases found

theorem Sound.places (h : s.Sound) (ho : s.model.graph.states.get? o = some so)
    {expected : OrderedSet AvmId} (within : matching.Within so.comparableAvms expected) :
    s.Places o matching := by
  intro so' v i ho' image
  cases ho.symm.trans ho'
  obtain ⟨os, partners, first⟩ := Option.bind_eq_some_iff.1 image
  exact h.model.states.placed ho i (.inr (within.partner partners i (List.mem_of_head? first)))

theorem Places.keeps (h : s.Places o matching) (k : s.model.Keeps s'.model) :
    s'.Places o matching := by
  intro so' v i ho' image
  obtain ⟨so, ho, same⟩ := k.state' ho'
  rw [k.windowOfAvm, State.window_eq same]
  exact h so v i ho image

theorem Sound.recognise (h : s.Sound) (ho : s.model.graph.states.contains o = true)
    (b : StateId) : Sound { s with ledger := s.ledger.recognise o b } :=
  ⟨h.model, h.ledger.recognise ho⟩

theorem Sound.markSnapshot (h : s.Sound) (hb : s.model.graph.states.contains b = true)
    (g : SnapshotId) : Sound { s with ledger := s.ledger.markSnapshot g b } :=
  ⟨h.model, h.ledger.markSnapshot hb⟩

theorem Sound.enter_succeeds (h : s.Sound) (ho : s.model.graph.states.contains o = true)
    (hb : s.model.graph.states.contains b = true) : Succeeds (s.enter o b matching) := by
  obtain ⟨so, hso⟩ := Arena.contains_iff.1 ho
  have entered := h.recognise ho b
  refine (entered.migrateInputs_succeeds hso hb).bind fun s₁ migrated => ?_
  have same := (migrateInputs_aside migrated).model.graph
  refine plan_succeeds (entered.migrateInputs migrated) ?_ ?_
  · rw [same]
    exact ho
  · rw [same]
    exact hb

theorem Sound.enter (h : s.Sound) (ho : s.model.graph.states.contains o = true)
    (placed : s.Places o matching) (ok : s.enter o b matching = .ok (plan, s')) :
    s'.Sound ∧ s'.model.graph.Awaits b plan ∧ ∀ t ∈ plan, s'.model.KnowsTransfer t := by
  obtain ⟨s₁, migrated, planned⟩ := Checked.bind_eq_ok.1 ok
  have aside := migrateInputs_aside migrated
  have sound := (h.recognise ho b).migrateInputs migrated
  have awaits := plan_awaits sound.model.graph planned
  have known := fun t mem => plan_knows (t := t) sound (aside.model.graph ▸ ho)
    (placed.keeps aside.keeps.model _ _ _) planned mem
  obtain ⟨-, -, -, -, -, -, -, -, -, n, rfl⟩ := plan_eq_ok planned
  exact ⟨⟨sound.model, sound.ledger.book rfl sound.ledger.input⟩, awaits, known⟩

theorem register_cases {g : SnapshotId} (ok : s.register o b g matching = .ok s') :
    (s.ledger.isRecognised o b = true ∧ s' = { s with ledger := s.ledger.markSnapshot g b }) ∨
      (s.ledger.isRecognised o b = false ∧ ∃ plan planned,
        enter { s with ledger := s.ledger.markSnapshot g b } o b matching = .ok (plan, planned) ∧
          planned.applyAll plan = .ok s') := by
  unfold register at ok
  dsimp only at ok
  split at ok
  · next entered =>
    cases ok
    exact .inl ⟨entered, rfl⟩
  · next fresh =>
    obtain ⟨⟨plan, planned⟩, entered, applied⟩ := Checked.bind_eq_ok.1 ok
    exact .inr ⟨Bool.eq_false_iff.2 fresh, plan, planned, entered, applied⟩

theorem Sound.register_succeeds (h : s.Sound) (ho : s.model.graph.states.contains o = true)
    (hb : s.model.graph.states.contains b = true) (placed : s.Places o matching) (g : SnapshotId) :
    Succeeds (s.register o b g matching) := by
  have marked := h.markSnapshot hb g
  unfold Session.register
  dsimp only
  split
  · exact succeeds_pure _
  refine (marked.enter_succeeds ho hb).bind fun ⟨plan, s₁⟩ entered => ?_
  obtain ⟨sound, awaits, known⟩ := marked.enter ho placed entered
  exact sound.applyAll_succeeds awaits known

theorem Sound.register (h : s.Sound) (ho : s.model.graph.states.contains o = true)
    (hb : s.model.graph.states.contains b = true) (placed : s.Places o matching) {g : SnapshotId}
    (ok : s.register o b g matching = .ok s') : s'.Sound := by
  have marked := h.markSnapshot hb g
  obtain ⟨-, rfl⟩ | ⟨-, plan, planned, entered, applied⟩ := register_cases ok
  · exact marked
  · obtain ⟨sound, -, known⟩ := marked.enter ho placed entered
    exact sound.applyAll known applied

end Session

end ScreenGraph
