import ScreenGraph.Proofs.Deciding
import ScreenGraph.Proofs.Recording
import ScreenGraph.Proofs.Recycling

namespace ScreenGraph

theorem Flags.Joins.within {m n : Flags} {ms : List Flags} (h : m.Joins ms) (mem : n ∈ ms) :
    n.Within m := by
  intro k v held
  obtain ⟨w, found⟩ := OrderedMap.contains_iff.1
    ((h.methods k).2 ⟨n, mem, OrderedMap.contains_of_get? held⟩)
  refine ⟨w, found, ?_⟩
  rintro rfl
  have covered := (h.covered k).2 ⟨n, mem, held⟩
  exact Option.some.inj (found.symm.trans covered)

namespace Input

def identity (x : Input) : Version × ActionType × String × Option WidgetId :=
  (x.version, x.event, x.data, x.widget)

structure Rises (x x' : Input) : Prop where
  modified : Flags.Within x.modifiedMethods x'.modifiedMethods
  target : x.isTarget = true → x'.isTarget = true
  back : x.navigateBack = true → x'.navigateBack = true

theorem Rises.refl (x : Input) : x.Rises x := ⟨.refl _, id, id⟩

theorem Rises.trans {x x' x'' : Input} (h : x.Rises x') (h' : x'.Rises x'') : x.Rises x'' :=
  ⟨h.modified.trans h'.modified, h'.target ∘ h.target, h'.back ∘ h.back⟩

structure Mirrors (y x : Input) : Prop where
  old : x.version = .base
  new : y.version = .running
  event : y.event = x.event
  data : y.data = x.data
  widget : y.widget.isSome = x.widget.isSome

theorem Mirrors.congr {x x' y y' : Input} (h : y.Mirrors x) (same : x'.identity = x.identity)
    (same' : y'.identity = y.identity) : y'.Mirrors x' := by
  simp only [identity, Prod.mk.injEq] at same same'
  obtain ⟨version, event, data, widget⟩ := same
  obtain ⟨version', event', data', widget'⟩ := same'
  constructor
  · rw [version, h.old]
  · rw [version', h.new]
  · rw [event, event', h.event]
  · rw [data, data', h.data]
  · rw [widget, widget', h.widget]

structure Absorbs (y x : Input) (changed : OrderedSet String) (y' : Input) : Prop where
  methods : Flags.Joins y'.modifiedMethods [y.modifiedMethods, x.modifiedMethods]
  target : y'.isTarget = true ↔ y.isTarget = true ∨ ∃ h, h ∈ y.handlers ∧ h ∈ changed
  rest : y' = { y with modifiedMethods := y'.modifiedMethods, isTarget := y'.isTarget }

theorem absorb_absorbs (y x : Input) (c : Catalog) : y.Absorbs x c.changedMethods
    (y.absorb x.modifiedMethods (y.handlers.toList.any c.isChanged)) where
  methods := (Flags.joins_singleton _).merge _
  target := by simp [absorb, Catalog.isChanged, OrderedSet.mem_def]
  rest := rfl

theorem Absorbs.identity {x y y' : Input} {changed : OrderedSet String}
    (h : y.Absorbs x changed y') : y'.identity = y.identity := by
  rw [h.rest]
  rfl

theorem Absorbs.rises {x y y' : Input} {changed : OrderedSet String}
    (h : y.Absorbs x changed y') : y.Rises y' where
  modified := h.methods.within (by simp)
  target isTarget := h.target.2 (.inl isTarget)
  back flagged := by
    rw [h.rest]
    exact flagged

def mark (back : Bool) (x : Input) : Input := { x with navigateBack := x.navigateBack || back }

theorem mark_false : mark false = id := funext fun x => by simp [mark]

theorem mark_comp (b b' : Bool) : mark b' ∘ mark b = mark (b || b') :=
  funext fun x => by simp [mark, Bool.or_assoc]

theorem mark_rises (x : Input) (back : Bool) : x.Rises (x.mark back) :=
  ⟨.refl _, id, fun flagged => by simp [mark, flagged]⟩

end Input

namespace Catalog

variable {c c' c'' : Catalog} {i j : InputId} {v w : WindowId}

def Lists (c : Catalog) (w : WindowId) (i : InputId) : Prop :=
  ∃ win, c.windows.get? w = some win ∧ i ∈ win.inputs

/-- Windows list their own inputs only. -/
def Filed (c : Catalog) : Prop :=
  ∀ w i x, c.Lists w i → c.inputs.get? i = some x → x.window = w

def Corresponds (c : Catalog) (i j : InputId) : Prop :=
  ∃ x y v w, c.inputs.get? i = some x ∧ c.inputs.get? j = some y ∧ y.Mirrors x ∧
    c.Lists v i ∧ c.Lists w j ∧ c.Compatible w v

theorem Corresponds.windows (h : c.Corresponds i j) (filed : c.Filed) :
    ∃ x y, c.inputs.get? i = some x ∧ c.inputs.get? j = some y ∧
      c.Compatible y.window x.window := by
  obtain ⟨x, y, v, w, hx, hy, -, ofX, ofY, compatible⟩ := h
  refine ⟨x, y, hx, hy, ?_⟩
  rwa [filed v i x ofX hx, filed w j y ofY hy]

structure Retains (c c' : Catalog) : Prop where
  input : ∀ {i x}, c.inputs.get? i = some x →
    ∃ x', c'.inputs.get? i = some x' ∧ x'.identity = x.identity
  window : ∀ {w win}, c.windows.get? w = some win →
    ∃ win', c'.windows.get? w = some win' ∧ win'.kind = win.kind ∧
      ∀ i, i ∈ win.inputs → i ∈ win'.inputs

namespace Retains

theorem lists (h : c.Retains c') (listed : c.Lists w i) : c'.Lists w i := by
  obtain ⟨win, live, mem⟩ := listed
  obtain ⟨win', live', -, lists⟩ := h.window live
  exact ⟨win', live', lists i mem⟩

theorem compatible (h : c.Retains c') (compatible : c.Compatible v w) : c'.Compatible v w := by
  rcases compatible with same | ⟨a, b, owner, ha, hb, ofA, ofB⟩
  · exact .inl same
  · obtain ⟨a', ha', kind, -⟩ := h.window ha
    obtain ⟨b', hb', kind', -⟩ := h.window hb
    exact .inr ⟨a', b', owner, ha', hb', kind.trans ofA, kind'.trans ofB⟩

theorem corresponds (h : c.Retains c') (corresponds : c.Corresponds i j) :
    c'.Corresponds i j := by
  obtain ⟨x, y, v, w, hx, hy, mirrors, ofX, ofY, compatible⟩ := corresponds
  obtain ⟨x', hx', same⟩ := h.input hx
  obtain ⟨y', hy', same'⟩ := h.input hy
  exact ⟨x', y', v, w, hx', hy', mirrors.congr same same', h.lists ofX, h.lists ofY,
    h.compatible compatible⟩

end Retains

structure Raises (c c' : Catalog) : Prop where
  windows : c'.windows = c.windows
  inputs : ∀ {i x}, c.inputs.get? i = some x →
    ∃ x', c'.inputs.get? i = some x' ∧ x'.identity = x.identity ∧ x.Rises x'

theorem Raises.trans (h : c.Raises c') (h' : c'.Raises c'') : c.Raises c'' where
  windows := h'.windows.trans h.windows
  inputs live := by
    obtain ⟨x', live', same, rises⟩ := h.inputs live
    obtain ⟨x'', live'', same', rises'⟩ := h'.inputs live'
    exact ⟨x'', live'', same'.trans same, rises.trans rises'⟩

theorem Raises.retains (h : c.Raises c') : c.Retains c' where
  input live := by
    obtain ⟨x', live', same, -⟩ := h.inputs live
    exact ⟨x', live', same⟩
  window live := ⟨_, h.windows ▸ live, rfl, fun _ mem => mem⟩

structure Marks (c c' : Catalog) : Prop where
  windows : c'.windows = c.windows
  inputs : ∀ i, ∃ back, c'.inputs.get? i = (c.inputs.get? i).map (Input.mark back)
  changed : c'.changedMethods = c.changedMethods

namespace Marks

theorem of_eq (windows : c'.windows = c.windows) (inputs : c'.inputs = c.inputs)
    (changed : c'.changedMethods = c.changedMethods) : c.Marks c' :=
  ⟨windows, fun i => ⟨false, by simp [inputs, Input.mark_false]⟩, changed⟩

theorem refl (c : Catalog) : c.Marks c := of_eq rfl rfl rfl

theorem trans (h : c.Marks c') (h' : c'.Marks c'') : c.Marks c'' where
  windows := h'.windows.trans h.windows
  inputs i := by
    obtain ⟨b, same⟩ := h.inputs i
    obtain ⟨b', same'⟩ := h'.inputs i
    refine ⟨b || b', ?_⟩
    rw [same', same, Option.map_map, Input.mark_comp]
  changed := h'.changed.trans h.changed

theorem raises (h : c.Marks c') : c.Raises c' where
  windows := h.windows
  inputs {i x} live := by
    obtain ⟨back, same⟩ := h.inputs i
    rw [live] at same
    exact ⟨x.mark back, same, rfl, x.mark_rises back⟩

theorem updateInput (ok : c.updateInput i (fun x => { x with navigateBack := true }) = .ok c') :
    c.Marks c' := by
  obtain ⟨-, rfl⟩ := updateInput_eq_ok.1 ok
  refine ⟨rfl, fun k => ⟨decide (i = k), ?_⟩, rfl⟩
  rw [Arena.get?_modify]
  by_cases same : i = k
  · rw [if_pos same, decide_eq_true same]
    exact congrFun (congrArg Option.map (funext fun x => by simp [Input.mark])) _
  · simp [same, Input.mark_false]

theorem updateInputs {ids : List InputId} (ok : foldChecked
      (fun c i => c.updateInput i fun x => { x with navigateBack := true }) c ids = .ok c') :
    c.Marks c' :=
  foldChecked_induct c.Marks ok (refl c) fun _ _ _ _ before step => before.trans (updateInput step)

end Marks

end Catalog

namespace Catalog

variable {c : Catalog} {w : WindowId} {i j : InputId}

theorem mem_inputsOf {v : Version} {ids : List InputId} (ok : c.inputsOf w v = .ok ids)
    (mem : i ∈ ids) : c.Lists w i ∧ ∃ x, c.inputs.get? i = some x ∧ x.version = v := by
  obtain ⟨win, live, filtered⟩ := Arena.get_bind_eq_ok.1 ok
  obtain ⟨listed, test⟩ := (mem_filterChecked filtered).1 mem
  obtain ⟨x, hx, test⟩ := Arena.get_bind_eq_ok.1 test
  exact ⟨⟨win, live, listed⟩, x, hx, of_decide_eq_true (pure_eq_ok.1 test)⟩

theorem findInput_eq_some {event : ActionType} {data : String} {widget : Option WidgetId}
    {v : Version} (ok : c.findInput w event data widget v = .ok (some j)) : c.Lists w j ∧
      ∃ y, c.inputs.get? j = some y ∧ y.identity = (v, event, data, widget) := by
  obtain ⟨win, live, found⟩ := Arena.get_bind_eq_ok.1 ok
  obtain ⟨listed, test⟩ := findChecked_eq_some found
  obtain ⟨y, hy, test⟩ := Arena.get_bind_eq_ok.1 test
  refine ⟨⟨win, live, listed⟩, y, hy, ?_⟩
  have answers := pure_eq_ok.1 test
  simp only [Input.answers, Bool.and_eq_true, decide_eq_true_eq, beq_iff_eq] at answers
  obtain ⟨⟨⟨version, event⟩, data⟩, widget⟩ := answers
  rw [Input.identity, version, event, data, widget]

end Catalog

namespace Model

variable {m m' : Model} {a old : ActionId}

theorem findInputImage_eq_some {x : Input} (base : x.version = .base) {w : WindowId}
    {matching : Matching} {j : InputId} (ok : m.findInputImage x w matching = .ok (some j)) :
    m.catalog.Lists w j ∧ ∃ y, m.catalog.inputs.get? j = some y ∧ y.Mirrors x := by
  have found : ∃ widget, m.catalog.findInput w x.event x.data widget .running = .ok (some j) ∧
      widget.isSome = x.widget.isSome := by
    unfold findInputImage at ok
    split at ok
    · next free => exact ⟨none, ok, by rw [free]⟩
    · next wx bound =>
      obtain ⟨wy, -, found⟩ := findMapChecked_eq_some ok
      exact ⟨some wy, found, by rw [bound]; rfl⟩
  obtain ⟨widget, found, bound⟩ := found
  obtain ⟨listed, y, hy, same⟩ := Catalog.findInput_eq_some found
  simp only [Input.identity, Prod.mk.injEq] at same
  obtain ⟨version, event, data, rfl⟩ := same
  exact ⟨listed, y, hy, base, version, event, data, bound⟩

theorem markNavigateBack_marks (ok : m.markNavigateBack a = .ok m') :
    m.catalog.Marks m'.catalog := by
  obtain ⟨actions, -, ok⟩ := Checked.bind_eq_ok.1 ok
  obtain ⟨inputs, -, ok⟩ := Checked.bind_eq_ok.1 ok
  obtain ⟨catalog, flagged, done⟩ := Checked.bind_eq_ok.1 ok
  cases done
  exact .updateInputs flagged

theorem markTransfer_marks {t : Transfer} (ok : m.markTransfer t old a = .ok m') :
    m.catalog.Marks m'.catalog := by
  unfold markTransfer at ok
  split at ok
  · obtain ⟨m₁, first, ok⟩ := Checked.bind_eq_ok.1 ok
    exact (markNavigateBack_marks first).trans (markNavigateBack_marks ok)
  · cases ok
    exact .refl _

theorem resolveAction_catalog {x : TransferAction} (ok : m.resolveAction x = .ok (a, m')) :
    m'.catalog = m.catalog := by
  cases x with
  | kept id =>
    cases ok
    rfl
  | retargeted w x =>
    obtain ⟨-, -, rfl⟩ := internAction_eq_ok ok
    rfl

theorem bindImages_catalog {images : OrderedMap InputId InputId}
    (ok : m.bindImages images old a = .ok m') : m'.catalog = m.catalog := by
  obtain ⟨inputs, -, ok⟩ := Checked.bind_eq_ok.1 ok
  obtain ⟨actions, -, done⟩ := Checked.bind_eq_ok.1 ok
  cases done
  rfl

end Model

namespace Session

variable {s s' s'' : Session} {o : Observation} {g : Sighting} {k b : StateId}
  {i j : InputId} {new new' : List (InputId × InputId)} {matching : Matching}

structure Quiet (s s' : Session) : Prop where
  images : s'.ledger.inputImages = s.ledger.inputImages
  marks : s.model.catalog.Marks s'.model.catalog

theorem Quiet.of_eq (images : s'.ledger.inputImages = s.ledger.inputImages)
    (catalog : s'.model.catalog = s.model.catalog) : s.Quiet s' :=
  ⟨images, catalog ▸ .refl _⟩

theorem Quiet.trans (h : s.Quiet s') (h' : s'.Quiet s'') : s.Quiet s'' :=
  ⟨h'.images.trans h.images, h.marks.trans h'.marks⟩

/-- A base input is merged into its image. Every other input stays what it was. -/
structure MergesInput (s : Session) (i j : InputId) (s' : Session) : Prop where
  fresh : s.ledger.inputImages.contains i = false
  entered : s'.ledger.inputImages.entries = s.ledger.inputImages.entries ++ [(i, j)]
  corresponds : s.model.catalog.Corresponds i j
  windows : s'.model.catalog.windows = s.model.catalog.windows
  absorbs : ∃ x y y', s.model.catalog.inputs.get? i = some x ∧
    s.model.catalog.inputs.get? j = some y ∧ s'.model.catalog.inputs.get? j = some y' ∧
    y.Absorbs x s.model.catalog.changedMethods y'
  others : ∀ l, l ≠ j → s'.model.catalog.inputs.get? l = s.model.catalog.inputs.get? l

theorem MergesInput.raises (h : s.MergesInput i j s') :
    s.model.catalog.Raises s'.model.catalog where
  windows := h.windows
  inputs {l z} live := by
    obtain ⟨x, y, y', -, hy, hy', absorbs⟩ := h.absorbs
    by_cases same : l = j
    · subst same
      cases live.symm.trans hy
      exact ⟨y', hy', absorbs.identity, absorbs.rises⟩
    · exact ⟨z, (h.others l same).trans live, rfl, .refl z⟩

inductive MergesInputs : Session → List (InputId × InputId) → Session → Prop
  | rest {s s' : Session} (quiet : s.Quiet s') : MergesInputs s [] s'
  | merge {s s₁ s₂ s' : Session} {i j : InputId} {new : List (InputId × InputId)}
      (quiet : s.Quiet s₁) (merges : s₁.MergesInput i j s₂) (others : MergesInputs s₂ new s') :
      MergesInputs s ((i, j) :: new) s'

namespace MergesInputs

theorem refl (s : Session) : s.MergesInputs [] s := .rest (.of_eq rfl rfl)

theorem single (h : s.MergesInput i j s') : s.MergesInputs [(i, j)] s' :=
  .merge (.of_eq rfl rfl) h (.refl s')

theorem after (h : s.Quiet s') (merges : s'.MergesInputs new s'') : s.MergesInputs new s'' := by
  cases merges with
  | rest quiet => exact .rest (h.trans quiet)
  | merge quiet merges others => exact .merge (h.trans quiet) merges others

theorem trans (h : s.MergesInputs new s') (h' : s'.MergesInputs new' s'') :
    s.MergesInputs (new ++ new') s'' := by
  induction h with
  | rest quiet => exact .after quiet h'
  | merge quiet merges _ ih => exact .merge quiet merges (ih h')

theorem before (h : s.MergesInputs new s') (quiet : s'.Quiet s'') : s.MergesInputs new s'' := by
  have both := h.trans (.rest quiet)
  rwa [List.append_nil] at both

theorem entries (h : s.MergesInputs new s') :
    s'.ledger.inputImages.entries = s.ledger.inputImages.entries ++ new := by
  induction h with
  | rest quiet => rw [quiet.images, List.append_nil]
  | merge quiet merges _ ih =>
    rw [ih, merges.entered, quiet.images, List.append_assoc]
    rfl

theorem raises (h : s.MergesInputs new s') : s.model.catalog.Raises s'.model.catalog := by
  induction h with
  | rest quiet => exact quiet.marks.raises
  | merge quiet merges _ ih => exact (quiet.marks.raises.trans merges.raises).trans ih

theorem corresponds (h : s.MergesInputs new s') :
    ∀ p ∈ new, s'.model.catalog.Corresponds p.1 p.2 := by
  induction h with
  | rest => nofun
  | merge quiet merges others ih =>
    intro p mem
    rcases List.mem_cons.1 mem with rfl | mem
    · exact (merges.raises.trans others.raises).retains.corresponds merges.corresponds
    · exact ih p mem

end MergesInputs

theorem migrateInput_merging {v w : WindowId} {x : Input}
    (ok : migrateInput w matching s i = .ok s') (listed : s.model.catalog.Lists v i)
    (live : s.model.catalog.inputs.get? i = some x) (base : x.version = .base)
    (compatible : s.model.catalog.Compatible w v) : ∃ new, s.MergesInputs new s' := by
  obtain ⟨-, rfl⟩ | ⟨fresh, rfl | ⟨x', j, y, hx, found, hy, rfl⟩⟩ := migrateInput_cases ok
  · exact ⟨[], .refl s'⟩
  · exact ⟨[], .rest (.of_eq rfl rfl)⟩
  · cases live.symm.trans hx
    obtain ⟨ofY, y', hy', mirrors⟩ := Model.findInputImage_eq_some base found
    cases hy.symm.trans hy'
    refine ⟨[(i, j)], .single ⟨fresh, ?_, ?_, rfl, ?_, ?_⟩⟩
    · exact OrderedMap.entries_insert fresh j
    · exact ⟨x, y, v, w, hx, hy, mirrors, listed, ofY, compatible⟩
    · refine ⟨x, y, _, hx, hy, ?_, y.absorb_absorbs x s.model.catalog⟩
      simp [Arena.get?_modify, hy]
    · intro l other
      rw [Arena.get?_modify, if_neg other.symm]

theorem migrateInputs_merging (ok : s.migrateInputs k b matching = .ok s') {sk sb : State}
    (observed : s.model.graph.states.get? k = some sk)
    (root : s.model.graph.states.get? b = some sb)
    (compatible : s.model.catalog.Compatible sk.window sb.window) :
    ∃ new, s.MergesInputs new s' := by
  obtain ⟨sb', root', ok⟩ := Arena.get_bind_eq_ok.1 ok
  cases root.symm.trans root'
  obtain ⟨sk', observed', ok⟩ := Arena.get_bind_eq_ok.1 ok
  cases observed.symm.trans observed'
  obtain ⟨ids, listed, ok⟩ := Checked.bind_eq_ok.1 ok
  refine foldChecked_induct (fun s' => ∃ new, s.MergesInputs new s') ok ⟨[], .refl s⟩ ?_
  rintro s₁ i mem s₂ ⟨new, before⟩ step
  obtain ⟨ofX, x, hx, base⟩ := Catalog.mem_inputsOf listed mem
  have retains := before.raises.retains
  obtain ⟨x', hx', same⟩ := retains.input hx
  obtain ⟨new', merges⟩ := migrateInput_merging step (retains.lists ofX) hx'
    ((congrArg Prod.fst same).trans base) (retains.compatible compatible)
  exact ⟨new ++ new', before.trans merges⟩

theorem applyTransfer_quiet {t : Transfer} (ok : s.applyTransfer t = .ok s') : s.Quiet s' := by
  obtain ⟨old, a, s₁, g, -, action, -, model, -, images⟩ := applyTransfer_eq_ok ok
  obtain ⟨m₁, m₂, m₃, resolved, marked, bound, rfl⟩ := transferAction_eq_ok action
  refine ⟨images, ?_⟩
  rw [model]
  have marks := Model.markTransfer_marks marked
  rw [Model.resolveAction_catalog resolved, ← Model.bindImages_catalog bound] at marks
  exact marks

theorem applyAll_quiet {plan : List Transfer} (ok : s.applyAll plan = .ok s') : s.Quiet s' :=
  foldChecked_induct s.Quiet ok (.of_eq rfl rfl) fun _ _ _ _ before step =>
    before.trans (applyTransfer_quiet step)

theorem register_merging {n : SnapshotId} (ok : s.register k b n matching = .ok s')
    {sk sb : State} (observed : s.model.graph.states.get? k = some sk)
    (root : s.model.graph.states.get? b = some sb)
    (compatible : s.model.catalog.Compatible sk.window sb.window) :
    ∃ new, s.MergesInputs new s' := by
  obtain ⟨-, rfl⟩ | ⟨-, plan, planned, entered, applied⟩ := register_cases ok
  · exact ⟨[], .rest (.of_eq rfl rfl)⟩
  obtain ⟨mid, migrated, made⟩ := Checked.bind_eq_ok.1 entered
  obtain ⟨-, -, -, -, -, -, -, -, -, missing, rfl⟩ := plan_eq_ok made
  obtain ⟨new, merges⟩ := migrateInputs_merging migrated observed root compatible
  have marked : s.Quiet { s with ledger := (s.ledger.markSnapshot n b).recognise k b } :=
    .of_eq rfl rfl
  have before := MergesInputs.after marked merges
  have quiet : mid.Quiet { mid with ledger := mid.ledger.addUnresolved missing } := .of_eq rfl rfl
  exact ⟨new, before.before (quiet.trans (applyAll_quiet applied))⟩

theorem Passed.quiet (h : Passed g s s') : s.Quiet s' := by
  obtain ⟨⟨-, r, model⟩, same⟩ := h
  constructor
  · rcases same with same | same
    · rw [same]
    · rw [same]
      rfl
  · change s'.model = _ at model
    rw [model]
    exact .of_eq rfl rfl rfl

theorem Finds.quiet {r : Rule} {mid : Session} (found : s.Finds g b r matching mid) :
    s.Quiet mid :=
  found.passed.quiet

theorem Finds.compatible {r : Rule} {mid : Session} (found : s.Finds g b r matching mid) :
    ∃ so sb, mid.model.graph.states.get? g.state = some so ∧
      mid.model.graph.states.get? b = some sb ∧
      mid.model.catalog.Compatible so.window sb.window := by
  obtain ⟨-, -, searched⟩ := found
  obtain ⟨-, -, s₀, c, -, compared, accepted⟩ := search_some searched
  obtain ⟨-, so, sb, observed, root, windows, -⟩ := Model.compare_accepted compared accepted
  obtain ⟨r, same⟩ := Model.compare_eq_ok compared
  rw [same]
  exact ⟨so, sb, observed, root, (Catalog.compatible_eq_ok windows).1 rfl⟩

theorem Answers.merging {c : Classification} (answers : s.Answers g c s') :
    ∃ new, s.MergesInputs new s' := by
  obtain ⟨⟨r, same⟩, account, -⟩ | ⟨b, r, x, mid, after, -, found, registered, model, account⟩ :=
    answers.registers
  · refine ⟨[], .rest ⟨congrArg Prod.snd account, ?_⟩⟩
    rw [same]
    exact .of_eq rfl rfl rfl
  · obtain ⟨so, sb, observed, root, compatible⟩ := found.compatible
    obtain ⟨new, merges⟩ := register_merging registered observed root compatible
    have quiet : after.Quiet s' := .of_eq (congrArg Prod.snd account) (by rw [model])
    exact ⟨new, (MergesInputs.after found.quiet merges).before quiet⟩

theorem sight_quiet {seen : Option Sighting} (ok : s.sight o = .ok (seen, s')) : s.Quiet s' := by
  obtain ⟨n, ledger⟩ := sight_ledger ok
  refine .of_eq (by rw [ledger]) ?_
  obtain ⟨states, noted⟩ := s.noting_eq o
  have same : (s.noting o).model.catalog = s.model.catalog := by rw [noted]
  obtain ⟨-, -, -, -, ⟨-, rfl⟩ | ⟨keys, s₁, pruned, superseded, -⟩⟩ := sight_eq_ok ok
  · exact same
  obtain ⟨_, _, -, -, rfl⟩ := pruneObsolete_eq_ok pruned
  obtain ⟨_, -, rfl⟩ := supersede_eq_ok superseded
  exact same

theorem check_merging {c : Except Refusal Classification} (ok : s.check o = .ok (c, s')) :
    ∃ new, s.MergesInputs new s' := by
  obtain ⟨r, -, -, rfl⟩ | ⟨live, sighted, -⟩ | ⟨live, g, s₁, k, sighted, classified, -⟩ :=
    check_eq_ok ok
  · exact ⟨[], .refl s'⟩
  · exact ⟨[], .rest (sight_quiet sighted)⟩
  · obtain ⟨new, merges⟩ := (classify_cases classified).merging
    exact ⟨new, .after (sight_quiet sighted) merges⟩

/-- Runs of checks and the inputs that are merged in them, while the model may grow. The adapter
starts with nothing on record. -/
inductive Absorbed : List (InputId × InputId) → Session → Prop
  | start (m : Model) : Absorbed [] { model := m }
  | grow {done s m} (run : Absorbed done s) (grows : s.model.Grows m)
      (retains : s.model.catalog.Retains m.catalog) : Absorbed done { s with model := m }
  | check {done new s o c s'} (run : Absorbed done s) (ok : Session.check s o = .ok (c, s'))
      (merges : s.MergesInputs new s') : Absorbed (done ++ new) s'

theorem Absorbed.used (run : Absorbed new s) : s.Used := by
  induction run with
  | start m => exact .start m
  | grow _ grows retains ih =>
    refine ih.grow grows fun {i} live => ?_
    obtain ⟨x, hx⟩ := Arena.contains_iff.1 live
    obtain ⟨x', hx', -⟩ := retains.input hx
    exact Arena.contains_of_get? hx'
  | check _ ok _ ih => exact ih.check ok

theorem Absorbed.entries (run : Absorbed new s) : s.ledger.inputImages.entries = new := by
  induction run with
  | start => rfl
  | grow _ _ _ ih => exact ih
  | check _ _ merges ih => rw [merges.entries, ih]

theorem Absorbed.corresponds (run : Absorbed new s) :
    ∀ p ∈ new, s.model.catalog.Corresponds p.1 p.2 := by
  induction run with
  | start => nofun
  | grow _ _ retains ih => exact fun p mem => retains.corresponds (ih p mem)
  | check _ _ merges ih =>
    intro p mem
    rcases List.mem_append.1 mem with before | new
    · exact merges.raises.retains.corresponds (ih p before)
    · exact merges.corresponds p new

/-- In a run each base input is merged at most once, into its counterpart, and a check takes no flag
of an input back. -/
theorem Absorbed.merges_once (run : Absorbed new s) :
    s.ledger.inputImages.entries = new ∧ (new.map Prod.fst).Nodup ∧
    (∀ i j, s.ledger.inputImages.get? i = some j → s.model.catalog.Corresponds i j ∧
      (s.model.catalog.Filed → ∃ x y, s.model.catalog.inputs.get? i = some x ∧
        s.model.catalog.inputs.get? j = some y ∧
        s.model.catalog.Compatible y.window x.window)) ∧
    (s.model.WellFormed → ∀ o, ∃ c s', s.check o = .ok (c, s')) ∧
    ∀ o c s', s.check o = .ok (c, s') → ∃ more, s.MergesInputs more s' ∧
      s'.ledger.inputImages.entries = new ++ more ∧
      ∀ i x, s.model.catalog.inputs.get? i = some x →
        ∃ x', s'.model.catalog.inputs.get? i = some x' ∧ x.Rises x' := by
  have entries := run.entries
  refine ⟨entries, entries ▸ s.ledger.inputImages.nodup, ?_, ?_, ?_⟩
  · intro i j held
    rw [← OrderedMap.mem_entries, entries] at held
    have corresponds := run.corresponds (i, j) held
    exact ⟨corresponds, corresponds.windows⟩
  · exact fun wf o => (run.used.sound wf).check_goes o
  · intro o c s' ok
    obtain ⟨more, merges⟩ := check_merging ok
    refine ⟨more, merges, by rw [merges.entries, entries], fun i x live => ?_⟩
    obtain ⟨x', live', -, rises⟩ := merges.raises.inputs live
    exact ⟨x', live', rises⟩

end Session

def Model.covered : Model :=
  { launched with catalog := { launched.catalog with
      windows := launched.catalog.windows.modify ⟨0⟩ fun w =>
        { w with inputs := .ofList [⟨0⟩, ⟨1⟩, ⟨2⟩] }
      inputs := ((Arena.add ∅
        { event := .click, window := ⟨0⟩, version := .base,
          modifiedMethods := .ofList [("onClick", false), ("open", true)] }).2.add
        { event := .click, window := ⟨0⟩, version := .base,
          modifiedMethods := .ofList [("onClick", true)] }).2.add
        { event := .click, window := ⟨0⟩, version := .running,
          handlers := .ofList ["onClick"] } |>.2
      changedMethods := .ofList ["onClick"] } }

namespace Session

theorem merges_once_covered : ∃ s' x y, Absorbed [(⟨0⟩, ⟨2⟩), (⟨1⟩, ⟨2⟩)] s' ∧
    s'.model.catalog.inputs.get? ⟨1⟩ = some x ∧ s'.model.catalog.inputs.get? ⟨2⟩ = some y ∧
    y.Mirrors x ∧ y.isTarget = true ∧
    y.modifiedMethods.entries = [("onClick", true), ("open", true)] := by
  have evaluated : (check { model := .covered } ⟨⟨0⟩, ⟨2⟩, ⟨1⟩, none⟩).toOption.map (fun r =>
      (r.2.ledger.inputImages.entries, (r.2.model.catalog.inputs.get? ⟨2⟩).map fun y =>
        (y.isTarget, y.modifiedMethods.entries))) =
      some ([(⟨0⟩, ⟨2⟩), (⟨1⟩, ⟨2⟩)], some (true, [("onClick", true), ("open", true)])) := by
    decide +kernel
  obtain ⟨⟨c, s'⟩, checked, evaluated⟩ := Option.map_eq_some_iff.1 evaluated
  obtain ⟨entries, image⟩ := Prod.mk.inj evaluated
  obtain ⟨-, -, -, -, checks⟩ := (Absorbed.start .covered).merges_once
  obtain ⟨more, merges, same, -⟩ := checks _ c s' (toOption_eq_some.1 checked)
  have run : Absorbed more s' := (Absorbed.start .covered).check (toOption_eq_some.1 checked) merges
  cases same.symm.trans entries
  obtain ⟨x, y, v, w, hx, hy, mirrors, -⟩ :=
    (run.merges_once.2.2.1 ⟨1⟩ ⟨2⟩ (OrderedMap.mem_entries.1 (entries ▸ by simp))).1
  rw [hy] at image
  obtain ⟨target, methods⟩ := Prod.mk.inj (Option.some.inj image)
  exact ⟨s', x, y, run, hx, hy, mirrors, target, methods⟩

end Session

end ScreenGraph
