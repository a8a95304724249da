import ScreenGraph.Proofs.Pruning
import ScreenGraph.Proofs.Registering

/-!
The public methods of a model, which an explorer mixes with checks. Those that store a handle ask
that it names something: the window of a state, the widget of a valuation, the action and the guard
states of an edge, the target and the inputs of an action. They ask nothing else.

Whole records can be written as well. Then it is up to the writer that a valuation is on the window
of the state that it is written into, and that an edge stays where it is.
-/

namespace ScreenGraph

inductive State.Field
  | version (v : Version)
  | kind (k : StateKind)
  | rotation (r : Rotation)
  | menuOpen (b : Bool)
  | keyboardOpen (b : Bool)
  | snapshots (ids : OrderedSet SnapshotId)
  | isHome (b : Bool)
  | isInitial (b : Bool)
  | isOutOfApp (b : Bool)
  | detach (a : AvmId)
  | thaw

namespace State

def set (st : State) : Field → State
  | .version version => { st with version }
  | .kind kind => { st with kind }
  | .rotation rotation => { st with rotation }
  | .menuOpen menuOpen => { st with menuOpen }
  | .keyboardOpen keyboardOpen => { st with keyboardOpen }
  | .snapshots snapshots => { st with snapshots }
  | .isHome isHome => { st with isHome }
  | .isInitial isInitial => { st with isInitial }
  | .isOutOfApp isOutOfApp => { st with isOutOfApp }
  | .detach a => { st with avms := st.avms.erase a }
  | .thaw => { st with knownGood := none }

def setAll (st : State) (fields : List Field) : State := fields.foldl set st

/-- What a field leaves alone of a state. A valuation may go, and none comes. -/
structure Trims (st st' : State) : Prop where
  window : st'.window = st.window
  outgoing : st'.outgoing = st.outgoing
  avms : ∀ a, a ∈ st'.avms ∨ a ∈ st'.comparableAvms → a ∈ st.avms ∨ a ∈ st.comparableAvms

theorem Trims.refl (st : State) : st.Trims st := ⟨rfl, rfl, fun _ => id⟩

theorem Trims.trans {st st' st'' : State} (h : st.Trims st') (h' : st'.Trims st'') :
    st.Trims st'' where
  window := h'.window.trans h.window
  outgoing := h'.outgoing.trans h.outgoing
  avms a ha := h.avms a (h'.avms a ha)

theorem trims_set (st : State) (f : Field) : st.Trims (st.set f) := by
  cases f with
  | detach b =>
    refine ⟨rfl, rfl, fun a ha => ?_⟩
    unfold comparableAvms at ha ⊢
    cases frozen : st.knownGood <;>
      simp only [set, frozen, Option.getD, OrderedSet.mem_erase] at ha ⊢
    · exact .inl (ha.elim And.left And.left)
    · exact ha.imp And.left id
  | thaw => exact ⟨rfl, rfl, fun a ha => .inl (ha.elim id id)⟩
  | _ => exact ⟨rfl, rfl, fun _ => id⟩

theorem trims_setAll (st : State) (fields : List Field) : st.Trims (st.setAll fields) := by
  induction fields generalizing st with
  | nil => exact .refl st
  | cons f rest ih => exact (st.trims_set f).trans (ih (st.set f))

end State

inductive Transition.Field
  | action (a : ActionId)
  | version (v : Version)
  | isImplicit (b : Bool)
  | isStatic (b : Bool)
  | interactions (is : List Interaction)
  | guards (g : Guard)
  | copiedFrom (k : Option EdgeKey)

def Transition.set (t : Transition) : Field → Transition
  | .action action => { t with action }
  | .version version => { t with version }
  | .isImplicit isImplicit => { t with isImplicit }
  | .isStatic isStatic => { t with isStatic }
  | .interactions interactions => { t with interactions }
  | .guards guards => { t with guards }
  | .copiedFrom copiedFrom => { t with copiedFrom }

theorem Graph.activate_states {o : Overflow} {g g' : Graph} {id : TransitionId}
    (ok : g.activate o id = .ok g') : g'.states = g.states := by
  obtain ⟨n, -, -, -, rfl⟩ := Graph.activate_eq_ok.1 ok
  rfl

namespace Model

def KnowsField (m : Model) : Transition.Field → Prop
  | .action a => m.actions.entries.contains a = true
  | .guards g => ∀ s, s ∈ g → m.graph.states.contains s = true
  | _ => True

inductive Edit (m : Model) : Model → Prop
  | policy (p : Policy) : Edit m { m with policy := p }
  | veto (w : WindowId) (a : ActionId) (dest : WindowId) : Edit m (m.veto w a dest)
  | addSnapshot (g : Snapshot) : Edit m (m.addSnapshot g).2
  | attachSnapshot (s : StateId) (g : SnapshotId) : Edit m (m.attachSnapshot s g).2
  | openWindow (className identifier : String) (kind : WindowKind) (v : Version) :
      Edit m { m with catalog := (m.catalog.openWindow className identifier kind v).2 }
  | addWidget {w id c} (ok : m.catalog.addWidget w = .ok (id, c)) : Edit m { m with catalog := c }
  | addInput {i id c} (ok : m.catalog.addInput i = .ok (id, c)) : Edit m { m with catalog := c }
  | updateInput {id f c} (ok : m.catalog.updateInput id f = .ok c) : Edit m { m with catalog := c }
  | replace (base updated : WidgetId) :
      Edit m { m with catalog := m.catalog.replace base updated }
  | markChanged (method : String) : Edit m { m with catalog := m.catalog.markChanged method }
  | addAvm {s x w id m'} (ok : m.addAvm s x w = .ok (id, m')) : Edit m m'
  | storeAvm (s : StateId) (x : Attributes) : Edit m { m with avms := (m.avms.add s x).2 }
  | bindAvm {a w avms} (ok : m.avms.bind a w = .ok avms)
      (widget : m.catalog.widgets.contains w = true) : Edit m { m with avms }
  | addState {window version fields id m'}
      (ok : m.addState (State.setAll { window, version } fields) = .ok (id, m'))
      (known : m.catalog.windows.contains window = true) : Edit m m'
  | cloneState {s st fields id m'} (live : m.graph.states.get? s = some st)
      (ok : m.addState (st.setAll fields) = .ok (id, m')) : Edit m m'
  | virtualState {w v id g} (ok : m.graph.virtualState w v = .ok (id, g))
      (window : m.catalog.windows.contains w = true) : Edit m { m with graph := g }
  | setState {s field m'} (ok : m.updateState s (State.set · field) = .ok m') : Edit m m'
  | freezeState {s m'} (ok : m.freezeState s = .ok m') : Edit m m'
  | internAction {w x a m'} (ok : m.internAction w x = .ok (a, m')) : Edit m m'
  | internForeign (w : WindowId) (x : Action)
      (target : ∀ v, x.target = some v → m.avms.avms.contains v = true) :
      Edit m { m with actions := (m.actions.intern w x).2 }
  | markNavigateBack {a t} (ok : m.actions.markNavigateBack a = .ok t) :
      Edit m { m with actions := t }
  | bindInput {a i t} (ok : m.actions.bindInput a i = .ok t)
      (input : m.catalog.inputs.contains i = true) : Edit m { m with actions := t }
  | addTransition {t c id m'} (ok : m.addTransition t c = .ok (id, m')) (known : m.Knows t) :
      Edit m m'
  | setTransition {id field m'} (ok : m.updateTransition id (Transition.set · field) = .ok m')
      (known : m.KnowsField field) : Edit m m'
  | removeTransition {id old g} (ok : m.graph.removeTransition id = .ok (old, g)) :
      Edit m { m with graph := g }
  | redirect {id dest g} (ok : m.graph.redirect id dest = .ok g) : Edit m { m with graph := g }
  | activate {o id g} (ok : m.graph.activate o id = .ok g) : Edit m { m with graph := g }
  | deactivate {id g} (ok : m.graph.deactivate id = .ok g) : Edit m { m with graph := g }
  | exercise {o id i g} (ok : m.graph.exercise o id i = .ok g) : Edit m { m with graph := g }
  | mergeCoverage {id c g} (ok : m.graph.mergeCoverage id c = .ok g) : Edit m { m with graph := g }

/-- A whole record is written, with what is then up to the writer. -/
inductive Write (m : Model) : Model → Prop
  | addState {st id m'} (ok : m.addState st = .ok (id, m'))
      (window : m.catalog.windows.contains st.window = true) (placed : m.Places st) : Write m m'
  | updateState {s f m'} (ok : m.updateState s f = .ok m')
      (lists : ∀ st, (f st).outgoing = st.outgoing)
      (known : ∀ {s st}, m'.graph.states.get? s = some st →
        m'.catalog.windows.contains st.window = true ∧ m'.Places st) : Write m m'
  | updateTransition {id f m'} (ok : m.updateTransition id f = .ok m')
      (ends : ∀ t, (f t).source = t.source ∧ (f t).dest = t.dest)
      (known : ∀ t, m.graph.transitions.get? id = some t → m.Knows (f t)) : Write m m'

theorem Places.trims {m : Model} {st st' : State} (h : m.Places st) (trims : st.Trims st') :
    m.Places st' := by
  intro a ha
  rw [trims.window]
  exact h a (trims.avms a ha)

structure Extends (m m' : Model) : Prop where
  state : ∀ {s}, m.graph.states.contains s = true → m'.graph.states.contains s = true
  input : ∀ {i}, m.catalog.inputs.contains i = true → m'.catalog.inputs.contains i = true
  action : ∀ {a}, m.actions.entries.contains a = true → m'.actions.entries.contains a = true

variable {m m' m'' : Model}

theorem Extends.trans (h : m.Extends m') (h' : m'.Extends m'') : m.Extends m'' where
  state live := h'.state (h.state live)
  input live := h'.input (h.input live)
  action live := h'.action (h.action live)

theorem Keeps.extends (k : m.Keeps m') : m.Extends m' where
  state live := (k.contains_state _).trans live
  input live := (k.inputs _).trans live
  action := k.contains_action

theorem updateState_eq_ok {s : StateId} {f : State → State} (ok : m.updateState s f = .ok m') :
    m.graph.states.contains s = true ∧
      m' = { m with graph := { m.graph with states := m.graph.states.modify s f } } := by
  simp only [updateState, Graph.updateState, Checked.bind_eq_ok, Arena.update_eq_ok,
    pure_eq_ok] at ok
  obtain ⟨-, ⟨-, ⟨live, rfl⟩, rfl⟩, rfl⟩ := ok
  exact ⟨live, rfl⟩

theorem addAvm_eq_ok {s : StateId} {x : Attributes} {w : Option WidgetId} {id : AvmId}
    (ok : m.addAvm s x w = .ok (id, m')) :
    ∃ avms st, m.graph.states.get? s = some st ∧ id = m.avms.avms.next ∧
      (avms = (m.avms.add s x).2 ∨ ∃ k, m.catalog.widgets.contains k = true ∧
        (m.avms.add s x).2.bind id k = .ok avms) ∧
      updateState { m with avms } s (fun st => { st with avms := st.avms.insert id }) = .ok m' := by
  obtain ⟨⟨⟩, live, ok⟩ := Checked.bind_eq_ok.1 ok
  obtain ⟨st, hst⟩ := Arena.contains_iff.1 (require_eq_ok.1 live)
  obtain ⟨avms, bound, ok⟩ := Checked.bind_eq_ok.1 ok
  obtain ⟨m₁, updated, done⟩ := Checked.bind_eq_ok.1 ok
  cases done
  refine ⟨avms, st, hst, rfl, ?_, updated⟩
  cases w with
  | none =>
    cases bound
    exact .inl rfl
  | some w =>
    obtain ⟨st', -, bound⟩ := Checked.bind_eq_ok.1 bound
    obtain ⟨widget, known, bound⟩ := Arena.get_bind_eq_ok.1 bound
    obtain ⟨-, -, bound⟩ := Checked.bind_eq_ok.1 bound
    exact .inr ⟨w, Arena.contains_of_get? known, bound⟩

namespace WellFormed

theorem withCatalog (wf : m.WellFormed) {c : Catalog}
    (windows : ∀ {w}, m.catalog.windows.contains w = true → c.windows.contains w = true)
    (widgets : ∀ {w}, m.catalog.widgets.contains w = true → c.widgets.contains w = true)
    (inputs : ∀ {i}, m.catalog.inputs.contains i = true → c.inputs.contains i = true)
    (widget : ∀ {w win}, c.windows.get? w = some win →
      ∀ x, x ∈ win.widgets → c.widgets.contains x = true)
    (input : ∀ {w win}, c.windows.get? w = some win →
      ∀ i, i ∈ win.inputs → c.inputs.contains i = true) :
    { m with catalog := c }.WellFormed where
  graph := wf.graph
  states := {
    window := fun live => windows (wf.states.window live)
    placed := fun live => wf.states.placed live
    bound := fun hw => widgets (wf.states.bound hw)
    widget := widget
    input := input }
  actions := {
    target := wf.actions.target
    input := fun he i hi => inputs (wf.actions.input he i hi)
    interned := wf.actions.interned }
  edge live := ⟨(wf.edge live).action, (wf.edge live).guards⟩

theorem withRest (wf : m.WellFormed) (policy : Policy) (snapshots : Arena .snapshot Snapshot)
    (vetoes : OrderedSet (WindowId × ActionId × WindowId)) :
    { m with policy, snapshots, vetoes }.WellFormed where
  graph := wf.graph
  states := { wf.states with }
  actions := { wf.actions with }
  edge live := ⟨(wf.edge live).action, (wf.edge live).guards⟩

theorem withAvms (wf : m.WellFormed) {avms : AvmStore}
    (persist : ∀ {a v}, m.avms.avms.get? a = some v → avms.avms.get? a = some v)
    (bound : ∀ {a w}, avms.widgetOf a = some w → m.catalog.widgets.contains w = true) :
    { m with avms }.WellFormed := by
  have onWindow : ∀ {a w}, m.windowOfAvm a = .ok w → windowOfAvm { m with avms } a = .ok w := by
    intro a w ok
    refine windowOfAvm_persists persist ?_ ok
    exact fun live => ⟨_, live, rfl⟩
  refine ⟨wf.graph, ⟨wf.states.window, ?_, bound, wf.states.widget, wf.states.input⟩, ?_, ?_⟩
  · exact fun live a ha => onWindow (wf.states.placed live a ha)
  · refine ⟨?_, wf.actions.input, wf.actions.interned⟩
    intro a e he v hv
    obtain ⟨x, hx⟩ := Arena.contains_iff.1 (wf.actions.target he v hv)
    exact Arena.contains_of_get? (persist hx)
  · exact fun live => ⟨(wf.edge live).action, (wf.edge live).guards⟩

theorem openWindow (wf : m.WellFormed) (className identifier : String) (kind : WindowKind)
    (v : Version) :
    { m with catalog := (m.catalog.openWindow className identifier kind v).2 }.WellFormed := by
  unfold Catalog.openWindow
  split
  · exact wf
  refine wf.withCatalog (fun live => Arena.contains_add live _) id id ?_ ?_
  · intro w win live x hx
    rcases Arena.of_get?_add live with old | ⟨-, rfl⟩
    · exact wf.states.widget old x hx
    · exact absurd hx (OrderedSet.not_mem_empty x)
  · intro w win live i hi
    rcases Arena.of_get?_add live with old | ⟨-, rfl⟩
    · exact wf.states.input old i hi
    · exact absurd hi (OrderedSet.not_mem_empty i)

theorem withWindow (wf : m.WellFormed) {w : WindowId} {f : Window → Window}
    {widgets : Arena .widget Widget} {inputs : Arena .input Input}
    (hwidgets : ∀ {x}, m.catalog.widgets.contains x = true → widgets.contains x = true)
    (hinputs : ∀ {i}, m.catalog.inputs.contains i = true → inputs.contains i = true)
    (widget : ∀ win x, x ∈ (f win).widgets → x ∈ win.widgets ∨ widgets.contains x = true)
    (input : ∀ win i, i ∈ (f win).inputs → i ∈ win.inputs ∨ inputs.contains i = true) :
    WellFormed { m with
      catalog := { m.catalog with windows := m.catalog.windows.modify w f, widgets, inputs } } := by
  refine wf.withCatalog (fun live => (Arena.contains_modify ..).trans live) hwidgets hinputs ?_ ?_
  · intro k win live x hx
    rcases Arena.of_get?_modify live with ⟨-, old⟩ | ⟨-, before, hbefore, rfl⟩
    · exact hwidgets (wf.states.widget old x hx)
    · rcases widget before x hx with listed | new
      · exact hwidgets (wf.states.widget hbefore x listed)
      · exact new
  · intro k win live i hi
    rcases Arena.of_get?_modify live with ⟨-, old⟩ | ⟨-, before, hbefore, rfl⟩
    · exact hinputs (wf.states.input old i hi)
    · rcases input before i hi with listed | new
      · exact hinputs (wf.states.input hbefore i listed)
      · exact new

theorem addWidget (wf : m.WellFormed) {w : Widget} {id : WidgetId} {c : Catalog}
    (ok : m.catalog.addWidget w = .ok (id, c)) : { m with catalog := c }.WellFormed := by
  obtain ⟨windows, updated, done⟩ := Checked.bind_eq_ok.1 ok
  obtain ⟨-, rfl⟩ := Arena.update_eq_ok.1 updated
  cases done
  refine wf.withWindow (fun live => Arena.contains_add live w) id ?_ fun win i hi => .inl hi
  intro win x hx
  rcases OrderedSet.mem_insert.1 hx with old | new
  · exact .inl old
  · rw [new]
    exact .inr (Arena.contains_next _ w)

theorem addInput (wf : m.WellFormed) {i : Input} {id : InputId} {c : Catalog}
    (ok : m.catalog.addInput i = .ok (id, c)) : { m with catalog := c }.WellFormed := by
  obtain ⟨windows, updated, done⟩ := Checked.bind_eq_ok.1 ok
  obtain ⟨-, rfl⟩ := Arena.update_eq_ok.1 updated
  cases done
  refine wf.withWindow id (fun live => Arena.contains_add live i) (fun win x hx => .inl hx) ?_
  intro win j hj
  rcases OrderedSet.mem_insert.1 hj with old | new
  · exact .inl old
  · rw [new]
    exact .inr (Arena.contains_next _ i)

theorem updateInput (wf : m.WellFormed) {id : InputId} {f : Input → Input} {c : Catalog}
    (ok : m.catalog.updateInput id f = .ok c) : { m with catalog := c }.WellFormed := by
  obtain ⟨-, rfl⟩ := Catalog.updateInput_eq_ok.1 ok
  have inputs : ∀ i, (m.catalog.inputs.modify id f).contains i = m.catalog.inputs.contains i :=
    fun i => Arena.contains_modify ..
  exact wf.aside ⟨.ofInputs inputs, rfl⟩ (wf.actions.keeps (.ofInputs inputs) rfl)

theorem bindAvm (wf : m.WellFormed) {a : AvmId} {w : WidgetId} {avms : AvmStore}
    (ok : m.avms.bind a w = .ok avms) (widget : m.catalog.widgets.contains w = true) :
    { m with avms }.WellFormed := by
  unfold AvmStore.bind at ok
  split at ok
  · cases ok
    refine wf.withAvms id ?_
    intro k x found
    rcases OrderedMap.of_get?_insert found with old | rfl
    · exact wf.states.bound old
    · exact widget
  · cases ok

theorem storeAvm (wf : m.WellFormed) (s : StateId) (x : Attributes) :
    { m with avms := (m.avms.add s x).2 }.WellFormed :=
  wf.withAvms (fun live => Arena.get?_add_of_get? live _) wf.states.bound

theorem addAvm (wf : m.WellFormed) {s : StateId} {x : Attributes} {w : Option WidgetId} {id : AvmId}
    (ok : m.addAvm s x w = .ok (id, m')) : m'.WellFormed := by
  obtain ⟨avms, st, hst, rfl, bound, updated⟩ := addAvm_eq_ok ok
  obtain ⟨-, rfl⟩ := updateState_eq_ok updated
  have stored : { m with avms }.WellFormed := by
    obtain rfl | ⟨k, widget, bound⟩ := bound
    · exact wf.storeAvm s x
    · exact (wf.storeAvm s x).bindAvm bound widget
  have same : avms.avms = (m.avms.add s x).2.avms := by
    obtain rfl | ⟨k, widget, bound⟩ := bound
    · rfl
    · unfold AvmStore.bind at bound
      split at bound <;> cases bound
      rfl
  have new : windowOfAvm { m with avms } m.avms.avms.next = .ok st.window := by
    refine windowOfAvm_eq_ok.2 ⟨⟨s, x, m.avms.signature x⟩, st, ?_, hst, rfl⟩
    rw [same]
    exact (Arena.get?_add ..).trans (if_pos rfl)
  refine stored.withState (fun _ => rfl) (fun _ => rfl) ?_
  intro st' hst' a ha
  cases hst.symm.trans hst'
  have known : (a ∈ st.avms ∨ a ∈ st.comparableAvms) ∨ a = m.avms.avms.next := by
    unfold State.comparableAvms at ha ⊢
    cases frozen : st.knownGood with
    | none => simpa [frozen] using ha
    | some good => simpa [frozen, or_right_comm] using ha
  rcases known with old | rfl
  · exact stored.states.placed hst a old
  · exact new

theorem insertState (wf : m.WellFormed) {st : State} {id : StateId} {g : Graph}
    (ok : m.graph.addState st = .ok (id, g)) (window : m.catalog.windows.contains st.window = true)
    (placed : m.Places st) : { m with graph := g }.WellFormed := by
  have consistent := wf.graph.addState ok
  obtain ⟨-, -, rfl⟩ := Graph.addState_eq_ok ok
  have onWindow : ∀ {a w}, m.windowOfAvm a = .ok w → windowOfAvm
      { m with graph := { m.graph with states := (m.graph.states.add st).2 } } a = .ok w := by
    intro a w ok
    refine windowOfAvm_persists ?_ (fun live => ⟨_, Arena.get?_add_of_get? live st, rfl⟩) ok
    exact fun live => live
  refine wf.withStates consistent rfl (fun live => Arena.contains_add live st) ?_
  intro k st' live
  rcases Arena.of_get?_add live with old | ⟨-, rfl⟩
  · exact ⟨wf.states.window old, fun a ha => onWindow (wf.states.placed old a ha)⟩
  · exact ⟨window, fun a ha => onWindow (placed a ha)⟩

theorem addState (wf : m.WellFormed) {st : State} {id : StateId}
    (ok : m.addState st = .ok (id, m')) (window : m.catalog.windows.contains st.window = true)
    (placed : m.Places st) : m'.WellFormed := by
  obtain ⟨⟨id, g⟩, added, done⟩ := Checked.bind_eq_ok.1 ok
  cases done
  exact wf.insertState added window placed

theorem virtualState (wf : m.WellFormed) {w : WindowId} {v : Version} {id : StateId} {g : Graph}
    (ok : m.graph.virtualState w v = .ok (id, g)) (window : m.catalog.windows.contains w = true) :
    { m with graph := g }.WellFormed := by
  obtain ⟨-, rfl⟩ | ⟨-, g₁, added, rfl⟩ := Graph.virtualState_eq_ok ok
  · exact wf
  have after := wf.insertState added window (.of_empty rfl rfl)
  exact after.withGraph (after.graph.withVirtuals _) (.refl _) after.edge

theorem freezeState (wf : m.WellFormed) {s : StateId} (ok : m.freezeState s = .ok m') :
    m'.WellFormed := by
  obtain ⟨-, rfl⟩ := updateState_eq_ok ok
  refine wf.withState (fun _ => rfl) (fun _ => rfl) ?_
  rintro st live a (ha | ha)
  · exact wf.states.placed live a (.inl ha)
  · exact wf.states.placed live a (.inl ha)

theorem setState (wf : m.WellFormed) {s : StateId} {field : State.Field}
    (ok : m.updateState s (State.set · field) = .ok m') : m'.WellFormed := by
  obtain ⟨-, rfl⟩ := updateState_eq_ok ok
  refine wf.withState (fun st => (st.trims_set field).outgoing)
    (fun st => (st.trims_set field).window) fun st live => ?_
  exact (wf.states.placed live).trims (st.trims_set field)

theorem updateState (wf : m.WellFormed) {s : StateId} {f : State → State}
    (ok : m.updateState s f = .ok m') (lists : ∀ st, (f st).outgoing = st.outgoing)
    (known : ∀ {s st}, m'.graph.states.get? s = some st →
      m'.catalog.windows.contains st.window = true ∧ m'.Places st) : m'.WellFormed := by
  obtain ⟨-, rfl⟩ := updateState_eq_ok ok
  exact wf.withStates (wf.graph.modifyState lists) rfl
    (fun live => (Arena.contains_modify ..).trans live) known

theorem attachSnapshot (wf : m.WellFormed) (s : StateId) (g : SnapshotId) :
    (m.attachSnapshot s g).2.WellFormed := by
  unfold Model.attachSnapshot
  split
  · exact wf
  split
  · exact wf
  refine wf.withState (fun _ => rfl) (fun _ => rfl) ?_
  exact fun st live a ha => wf.states.placed live a ha

theorem internForeign (wf : m.WellFormed) (w : WindowId) {x : Action}
    (target : ∀ v, x.target = some v → m.avms.avms.contains v = true) :
    { m with actions := (m.actions.intern w x).2 }.WellFormed :=
  wf.aside ⟨.ofIntern w x, rfl⟩ (wf.actions.intern w target)

theorem modifyAction (wf : m.WellFormed) {a : ActionId} {f : ActionEntry → ActionEntry}
    {t : ActionTable} (ok : m.actions.update a f = .ok t) (same : ∀ e, (f e).action = e.action)
    (inputs : ∀ e i, i ∈ (f e).inputs → i ∈ e.inputs ∨ m.catalog.inputs.contains i = true) :
    { m with actions := t }.WellFormed := by
  obtain ⟨-, rfl⟩ := ActionTable.update_eq_ok.1 ok
  exact wf.aside ⟨.ofModify same, rfl⟩ (wf.actions.modify same inputs)

theorem addTransition (wf : m.WellFormed) {t : Transition} {c : Coverage} {id : TransitionId}
    (ok : m.addTransition t c = .ok (id, m')) (known : m.Knows t) : m'.WellFormed := by
  obtain ⟨⟨id, g⟩, added, done⟩ := Checked.bind_eq_ok.1 ok
  cases done
  obtain ⟨source, dest, -, rfl⟩ := Graph.addTransition_eq_ok.1 added
  refine wf.withGraph (wf.graph.withEdge source dest) (Graph.withEdge_sameStates t c) ?_
  intro id e live
  rcases Graph.of_get?_withEdge live with old | ⟨-, rfl⟩
  · exact wf.edge old
  · exact known

theorem modifyEdge (wf : m.WellFormed) {id : TransitionId} {f : Transition → Transition} {g : Graph}
    (ok : m.graph.updateTransition id f = .ok g)
    (consistent : Graph.Consistent { m.graph with transitions := m.graph.transitions.modify id f })
    (known : ∀ t, m.graph.transitions.get? id = some t → m.Knows (f t)) :
    { m with graph := g }.WellFormed := by
  obtain ⟨-, rfl⟩ := Graph.updateTransition_eq_ok.1 ok
  refine wf.withGraph consistent (.refl _) ?_
  intro k e live
  rcases Arena.of_get?_modify live with ⟨-, old⟩ | ⟨rfl, t, ht, rfl⟩
  · exact wf.edge old
  · exact known t ht

theorem markEdge (wf : m.WellFormed) {id : TransitionId} {f : Transition → Transition} {g : Graph}
    (ok : m.graph.updateTransition id f = .ok g)
    (consistent : Graph.Consistent { m.graph with transitions := m.graph.transitions.modify id f })
    (action : ∀ t, (f t).action = t.action) (guards : ∀ t, (f t).guards = t.guards) :
    { m with graph := g }.WellFormed := by
  refine wf.modifyEdge ok consistent fun t ht => ⟨?_, ?_⟩
  · rw [action]
    exact (wf.edge ht).action
  · rw [guards]
    exact (wf.edge ht).guards

theorem setTransition (wf : m.WellFormed) {id : TransitionId} {field : Transition.Field}
    (ok : m.updateTransition id (Transition.set · field) = .ok m') (known : m.KnowsField field) :
    m'.WellFormed := by
  obtain ⟨g, updated, done⟩ := Checked.bind_eq_ok.1 ok
  cases done
  refine wf.modifyEdge updated (wf.graph.modify fun t => ?ends) fun t live => ?known
  case ends => cases field <;> exact ⟨rfl, rfl⟩
  have before := wf.edge live
  cases field with
  | action a => exact ⟨known, before.guards⟩
  | guards g => exact ⟨before.action, known⟩
  | _ => exact ⟨before.action, before.guards⟩

theorem removeTransition (wf : m.WellFormed) {id : TransitionId} {old : Option Transition}
    {g : Graph} (ok : m.graph.removeTransition id = .ok (old, g)) :
    { m with graph := g }.WellFormed := by
  refine wf.withGraph (wf.graph.removeTransition ok) (Graph.removeTransition_sameStates ok) ?_
  intro k e live
  rw [Graph.removeTransition_get? ok] at live
  split at live
  · cases live
  · exact wf.edge live

theorem redirect (wf : m.WellFormed) {id : TransitionId} {dest : StateId} {g : Graph}
    (ok : m.graph.redirect id dest = .ok g) : { m with graph := g }.WellFormed := by
  obtain ⟨⟨⟩, live, updated⟩ := Checked.bind_eq_ok.1 ok
  exact wf.markEdge updated (wf.graph.redirect (require_eq_ok.1 live)) (fun _ => rfl) fun _ => rfl

theorem activate (wf : m.WellFormed) {o : Overflow} {id : TransitionId} {g : Graph}
    (ok : m.graph.activate o id = .ok g) : { m with graph := g }.WellFormed := by
  obtain ⟨g₁, updated, counted⟩ := Checked.bind_eq_ok.1 ok
  have marked := wf.markEdge updated (wf.graph.modify fun _ => ⟨rfl, rfl⟩) (fun _ => rfl)
    fun _ => rfl
  split at counted
  · next n found =>
    obtain ⟨-, -, done⟩ := Checked.bind_eq_ok.1 counted
    cases done
    have entry := OrderedMap.contains_of_get? found
    exact marked.withGraph (marked.graph.insertActivation entry) (.refl _) marked.edge
  · cases counted

theorem exercise (wf : m.WellFormed) {o : Overflow} {id : TransitionId} {i : Interaction}
    {g : Graph} (ok : m.graph.exercise o id i = .ok g) : { m with graph := g }.WellFormed := by
  obtain ⟨g₁, updated, activated⟩ := Checked.bind_eq_ok.1 ok
  have marked := wf.markEdge updated (wf.graph.modify fun _ => ⟨rfl, rfl⟩) (fun _ => rfl)
    fun _ => rfl
  exact marked.activate activated

theorem mergeCoverage (wf : m.WellFormed) {id : TransitionId} {c : Coverage} {g : Graph}
    (ok : m.graph.mergeCoverage id c = .ok g) : { m with graph := g }.WellFormed := by
  obtain ⟨old, found, rfl⟩ := Graph.mergeCoverage_eq_ok.1 ok
  have entry := OrderedMap.contains_of_get? found
  exact wf.withGraph (wf.graph.insertCoverage entry) (.refl _) wf.edge

end WellFormed

theorem Edit.wellFormed (edit : m.Edit m') (wf : m.WellFormed) : m'.WellFormed := by
  cases edit with
  | policy p => exact wf.withRest p _ _
  | veto w a dest => exact wf.withRest _ _ _
  | addSnapshot g =>
    unfold Model.addSnapshot
    split
    · exact wf
    · exact wf.withRest _ _ _
  | attachSnapshot s g => exact wf.attachSnapshot s g
  | openWindow className identifier kind v => exact wf.openWindow className identifier kind v
  | addWidget ok => exact wf.addWidget ok
  | addInput ok => exact wf.addInput ok
  | updateInput ok => exact wf.updateInput ok
  | replace base updated => exact wf.withCatalog id id id wf.states.widget wf.states.input
  | markChanged method => exact wf.withCatalog id id id wf.states.widget wf.states.input
  | addAvm ok => exact wf.addAvm ok
  | storeAvm s x => exact wf.storeAvm s x
  | bindAvm ok widget => exact wf.bindAvm ok widget
  | @addState w v fields _ _ ok known =>
    have trims := State.trims_setAll { window := w, version := v } fields
    refine wf.addState ok ?_ (.trims (.of_empty rfl rfl) trims)
    rwa [trims.window]
  | @cloneState s st fields _ _ live ok =>
    have trims := st.trims_setAll fields
    refine wf.addState ok ?_ ((wf.states.placed live).trims trims)
    rw [trims.window]
    exact wf.states.window live
  | virtualState ok window => exact wf.virtualState ok window
  | setState ok => exact wf.setState ok
  | freezeState ok => exact wf.freezeState ok
  | internAction ok => exact (wf.internAction ok).1
  | internForeign w x target => exact wf.internForeign w target
  | markNavigateBack ok => exact wf.modifyAction ok (fun _ => rfl) fun _ _ hi => .inl hi
  | bindInput ok input =>
    refine wf.modifyAction ok (fun _ => rfl) fun e i hi => ?_
    rcases OrderedSet.mem_insert.1 hi with old | rfl
    · exact .inl old
    · exact .inr input
  | addTransition ok known => exact wf.addTransition ok known
  | setTransition ok known => exact wf.setTransition ok known
  | removeTransition ok => exact wf.removeTransition ok
  | redirect ok => exact wf.redirect ok
  | activate ok => exact wf.activate ok
  | deactivate ok =>
    exact wf.markEdge ok (wf.graph.modify fun _ => ⟨rfl, rfl⟩) (fun _ => rfl) fun _ => rfl
  | exercise ok => exact wf.exercise ok
  | mergeCoverage ok => exact wf.mergeCoverage ok

theorem Write.wellFormed (write : m.Write m') (wf : m.WellFormed) : m'.WellFormed := by
  cases write with
  | addState ok window placed => exact wf.addState ok window placed
  | updateState ok lists known => exact wf.updateState ok lists known
  | updateTransition ok ends known =>
    obtain ⟨g, updated, done⟩ := Checked.bind_eq_ok.1 ok
    cases done
    exact wf.modifyEdge updated (wf.graph.modify ends) known

theorem Extends.ofStates {g : Graph} (states : g.states = m.graph.states) :
    m.Extends { m with graph := g } :=
  (Keeps.ofStates states).extends

theorem Extends.ofModify {g : Graph} {s : StateId} {f : State → State}
    (states : g.states = m.graph.states.modify s f) : m.Extends { m with graph := g } where
  state live := by
    rw [states, Arena.contains_modify]
    exact live
  input live := live
  action live := live

theorem addState_extends {st : State} {id : StateId} (ok : m.addState st = .ok (id, m')) :
    m.Extends m' := by
  obtain ⟨⟨id, g⟩, added, done⟩ := Checked.bind_eq_ok.1 ok
  cases done
  obtain ⟨-, -, rfl⟩ := Graph.addState_eq_ok added
  exact ⟨fun live => Arena.contains_add live _, fun live => live, fun live => live⟩

theorem updateState_extends {s : StateId} {f : State → State} (ok : m.updateState s f = .ok m') :
    m.Extends m' := by
  obtain ⟨-, rfl⟩ := updateState_eq_ok ok
  exact .ofModify rfl

theorem updateTransition_extends {id : TransitionId} {f : Transition → Transition}
    (ok : m.updateTransition id f = .ok m') : m.Extends m' := by
  obtain ⟨g, updated, done⟩ := Checked.bind_eq_ok.1 ok
  cases done
  obtain ⟨-, rfl⟩ := Graph.updateTransition_eq_ok.1 updated
  exact .ofStates rfl

theorem Edit.extends (edit : m.Edit m') : m.Extends m' := by
  cases edit with
  | policy => exact ⟨id, id, id⟩
  | veto => exact ⟨id, id, id⟩
  | replace => exact ⟨id, id, id⟩
  | markChanged => exact ⟨id, id, id⟩
  | storeAvm => exact ⟨id, id, id⟩
  | bindAvm => exact ⟨id, id, id⟩
  | internForeign w x => exact (Keeps.ofIntern w x).extends
  | markNavigateBack ok =>
    obtain ⟨-, rfl⟩ := ActionTable.update_eq_ok.1 ok
    exact ⟨id, id, fun live => (Arena.contains_modify ..).trans live⟩
  | bindInput ok =>
    obtain ⟨-, rfl⟩ := ActionTable.update_eq_ok.1 ok
    exact ⟨id, id, fun live => (Arena.contains_modify ..).trans live⟩
  | addSnapshot g =>
    unfold Model.addSnapshot
    split <;> exact ⟨id, id, id⟩
  | attachSnapshot s g =>
    unfold Model.attachSnapshot
    split
    · exact ⟨id, id, id⟩
    split
    · exact ⟨id, id, id⟩
    · exact .ofModify rfl
  | openWindow =>
    unfold Catalog.openWindow
    split <;> exact ⟨id, id, id⟩
  | addWidget ok =>
    obtain ⟨windows, -, done⟩ := Checked.bind_eq_ok.1 ok
    cases done
    exact ⟨id, id, id⟩
  | addInput ok =>
    obtain ⟨windows, -, done⟩ := Checked.bind_eq_ok.1 ok
    cases done
    exact ⟨id, fun live => Arena.contains_add live _, id⟩
  | updateInput ok =>
    obtain ⟨-, rfl⟩ := Catalog.updateInput_eq_ok.1 ok
    exact ⟨id, fun live => (Arena.contains_modify ..).trans live, id⟩
  | addAvm ok =>
    obtain ⟨avms, st, -, -, -, updated⟩ := addAvm_eq_ok ok
    obtain ⟨-, rfl⟩ := updateState_eq_ok updated
    exact ⟨fun live => (Arena.contains_modify ..).trans live, id, id⟩
  | addState ok => exact addState_extends ok
  | cloneState _ ok => exact addState_extends ok
  | virtualState ok =>
    obtain ⟨-, rfl⟩ | ⟨-, g₁, added, rfl⟩ := Graph.virtualState_eq_ok ok
    · exact ⟨id, id, id⟩
    · obtain ⟨-, -, rfl⟩ := Graph.addState_eq_ok added
      exact ⟨fun live => Arena.contains_add live _, id, id⟩
  | setState ok => exact updateState_extends ok
  | freezeState ok => exact updateState_extends ok
  | internAction ok => exact (internAction_aside ok).toKeeps.extends
  | addTransition ok =>
    obtain ⟨⟨id, g⟩, added, done⟩ := Checked.bind_eq_ok.1 ok
    cases done
    obtain ⟨-, -, -, rfl⟩ := Graph.addTransition_eq_ok.1 added
    exact .ofModify rfl
  | setTransition ok => exact updateTransition_extends ok
  | removeTransition ok => exact (Keeps.ofGraph (Graph.removeTransition_sameStates ok)).extends
  | redirect ok =>
    obtain ⟨-, -, rfl⟩ := Graph.redirect_eq_ok.1 ok
    exact .ofStates rfl
  | activate ok => exact .ofStates (Graph.activate_states ok)
  | deactivate ok =>
    obtain ⟨-, rfl⟩ := Graph.updateTransition_eq_ok.1 ok
    exact .ofStates rfl
  | exercise ok =>
    obtain ⟨g₁, updated, activated⟩ := Checked.bind_eq_ok.1 ok
    obtain ⟨-, rfl⟩ := Graph.updateTransition_eq_ok.1 updated
    have states := Graph.activate_states activated
    exact .ofStates states
  | mergeCoverage ok =>
    obtain ⟨old, -, rfl⟩ := Graph.mergeCoverage_eq_ok.1 ok
    exact .ofStates rfl

theorem Write.extends (write : m.Write m') : m.Extends m' := by
  cases write with
  | addState ok => exact addState_extends ok
  | updateState ok => exact updateState_extends ok
  | updateTransition ok => exact updateTransition_extends ok

end Model

theorem Ledger.Known.extends {l : Ledger} {m m' : Model} (h : l.Known m) (k : m.Extends m') :
    l.Known m' where
  image hi := k.state (h.image hi)
  base hb := k.state (h.base hb)
  input hj := k.input (h.input hj)

theorem Session.Sound.edit {s : Session} (h : s.Sound) {m : Model} (edit : s.model.Edit m) :
    Session.Sound { s with model := m } :=
  ⟨edit.wellFormed h.model, h.ledger.extends edit.extends⟩

theorem Session.Sound.write {s : Session} (h : s.Sound) {m : Model} (write : s.model.Write m) :
    Session.Sound { s with model := m } :=
  ⟨write.wellFormed h.model, h.ledger.extends write.extends⟩

end ScreenGraph
