import ScreenGraph.Proofs.Transfers

namespace ScreenGraph

namespace Model

def Places (m : Model) (st : State) : Prop :=
  ∀ a, a ∈ st.avms ∨ a ∈ st.comparableAvms → m.windowOfAvm a = .ok st.window

structure StatesKnown (m : Model) : Prop where
  window : ∀ {s st}, m.graph.states.get? s = some st → m.catalog.windows.contains st.window = true
  placed : ∀ {s st}, m.graph.states.get? s = some st → m.Places st
  bound : ∀ {a w}, m.avms.widgetOf a = some w → m.catalog.widgets.contains w = true
  widget : ∀ {w win}, m.catalog.windows.get? w = some win →
    ∀ x, x ∈ win.widgets → m.catalog.widgets.contains x = true
  input : ∀ {w win}, m.catalog.windows.get? w = some win →
    ∀ i, i ∈ win.inputs → m.catalog.inputs.contains i = true

structure ActionsKnown (m : Model) : Prop where
  target : ∀ {a e}, m.actions.entries.get? a = some e →
    ∀ v, e.action.target = some v → m.avms.avms.contains v = true
  input : ∀ {a e}, m.actions.entries.get? a = some e →
    ∀ i, i ∈ e.inputs → m.catalog.inputs.contains i = true
  interned : ∀ {k a}, m.actions.index.get? k = some a → m.actions.entries.contains a = true

structure Knows (m : Model) (t : Transition) : Prop where
  action : m.actions.entries.contains t.action = true
  guards : ∀ s, s ∈ t.guards → m.graph.states.contains s = true

structure WellFormed (m : Model) : Prop where
  graph : m.graph.Consistent
  states : m.StatesKnown
  actions : m.ActionsKnown
  edge : ∀ {id t}, m.graph.transitions.get? id = some t → m.Knows t

variable {m m' : Model}

theorem windowOfAvm_eq_ok {a : AvmId} {w : WindowId} :
    m.windowOfAvm a = .ok w ↔ ∃ v st, m.avms.avms.get? a = some v ∧
      m.graph.states.get? v.state = some st ∧ st.window = w := by
  simp only [windowOfAvm, AvmStore.get, Graph.state, Checked.bind_eq_ok, Arena.get_eq_ok_iff,
    pure_eq_ok, exists_and_left]

theorem windowOfAvm_persists
    (avms : ∀ {a v}, m.avms.avms.get? a = some v → m'.avms.avms.get? a = some v)
    (states : ∀ {s st}, m.graph.states.get? s = some st →
      ∃ st', m'.graph.states.get? s = some st' ∧ st'.window = st.window)
    {a : AvmId} {w : WindowId} (ok : m.windowOfAvm a = .ok w) : m'.windowOfAvm a = .ok w := by
  obtain ⟨v, st, hv, hst, rfl⟩ := windowOfAvm_eq_ok.1 ok
  obtain ⟨st', hst', window⟩ := states hst
  exact windowOfAvm_eq_ok.2 ⟨v, st', avms hv, hst', window⟩

theorem Places.bare {st st' : State} (same : st'.bare = st.bare) (h : m.Places st) :
    m.Places st' := by
  intro a ha
  have avms : st'.avms = st.avms := (congrArg State.avms same :)
  have comparable : st'.comparableAvms = st.comparableAvms := (congrArg State.comparableAvms same :)
  rw [State.window_eq same]
  apply h
  rw [← avms, ← comparable]
  exact ha

theorem Places.of_empty {st : State} (avms : st.avms = ∅) (comparable : st.comparableAvms = ∅) :
    m.Places st := by
  simp [Places, avms, comparable]

theorem StatesKnown.keeps (h : m.StatesKnown) (k : m.Keeps m') : m'.StatesKnown where
  window live := by
    obtain ⟨st, hst, same⟩ := k.state' live
    rw [k.windows, State.window_eq same]
    exact h.window hst
  placed live := by
    obtain ⟨st, hst, same⟩ := k.state' live
    intro a ha
    rw [k.windowOfAvm]
    exact (h.placed hst).bare same a ha
  bound hw := by
    rw [k.widgets]
    exact h.bound (k.avms ▸ hw)
  widget hw x hx := by
    rw [k.widgets]
    exact h.widget (k.windows ▸ hw) x hx
  input hw i hi := by
    rw [k.inputs]
    exact h.input (k.windows ▸ hw) i hi

theorem ActionsKnown.keeps (h : m.ActionsKnown) (k : m.Keeps m') (same : m'.actions = m.actions) :
    m'.ActionsKnown where
  target he v hv := by
    rw [k.avms]
    exact h.target (same ▸ he) v hv
  input he i hi := by
    rw [k.inputs]
    exact h.input (same ▸ he) i hi
  interned ha := by
    rw [same]
    exact h.interned (same ▸ ha)

theorem Knows.of_all {t : Transition} (action : m.actions.entries.contains t.action = true)
    (guards : t.guards.toList.all m.graph.states.contains = true) : m.Knows t :=
  ⟨action, fun s mem => List.all_eq_true.1 guards s mem⟩

theorem Knows.keeps {t : Transition} (h : m.Knows t) (k : m.Keeps m') : m'.Knows t where
  action := k.contains_action h.action
  guards s hs := by
    rw [k.contains_state]
    exact h.guards s hs

theorem Knows.unguarded {t t' : Transition} (h : m.Knows t) (same : t'.unguarded = t.unguarded)
    (guards : ∀ s, s ∈ t'.guards → m.graph.states.contains s = true) : m.Knows t' where
  action := by
    rw [Transition.action_eq same]
    exact h.action
  guards := guards

namespace WellFormed

theorem aside (wf : m.WellFormed) (k : m.Aside m') (actions : m'.ActionsKnown) :
    m'.WellFormed where
  graph := k.graph ▸ wf.graph
  states := wf.states.keeps k.toKeeps
  actions := actions
  edge live := (wf.edge (k.graph ▸ live)).keeps k.toKeeps

theorem withGraph (wf : m.WellFormed) {g : Graph} (consistent : g.Consistent)
    (same : m.graph.SameStates g) (edge : ∀ {id t}, g.transitions.get? id = some t → m.Knows t) :
    { m with graph := g }.WellFormed where
  graph := consistent
  states := wf.states.keeps (.ofGraph same)
  actions := wf.actions.keeps (.ofGraph same) rfl
  edge live := (edge live).keeps (.ofGraph same)

theorem withStates (wf : m.WellFormed) {g : Graph} (consistent : g.Consistent)
    (edges : g.transitions = m.graph.transitions)
    (persist : ∀ {s}, m.graph.states.contains s = true → g.states.contains s = true)
    (known : ∀ {s st}, g.states.get? s = some st →
      m.catalog.windows.contains st.window = true ∧ { m with graph := g }.Places st) :
    { m with graph := g }.WellFormed where
  graph := consistent
  states := {
    window := fun live => (known live).1
    placed := fun live => (known live).2
    bound := wf.states.bound
    widget := wf.states.widget
    input := wf.states.input }
  actions := ⟨wf.actions.target, wf.actions.input, wf.actions.interned⟩
  edge live := by
    have before := wf.edge (edges ▸ live)
    exact ⟨before.action, fun s hs => persist (before.guards s hs)⟩

theorem withState (wf : m.WellFormed) {s : StateId} {f : State → State}
    (lists : ∀ st, (f st).outgoing = st.outgoing) (windows : ∀ st, (f st).window = st.window)
    (placed : ∀ st, m.graph.states.get? s = some st → m.Places (f st)) :
    { m with graph := { m.graph with states := m.graph.states.modify s f } }.WellFormed := by
  have onWindow : ∀ {a w}, m.windowOfAvm a = .ok w → windowOfAvm
      { m with graph := { m.graph with states := m.graph.states.modify s f } } a = .ok w := by
    intro a w ok
    refine windowOfAvm_persists ?_ ?_ ok
    · exact id
    intro k st live
    rcases Arena.get?_modify_of_get? s f live with kept | changed
    · exact ⟨st, kept, rfl⟩
    · exact ⟨f st, changed, windows st⟩
  refine wf.withStates (wf.graph.modifyState lists) rfl ?_ ?_
  · intro k live
    exact (Arena.contains_modify ..).trans live
  · intro k st' live
    rcases Arena.of_get?_modify live with ⟨-, old⟩ | ⟨rfl, st, hst, rfl⟩
    · exact ⟨wf.states.window old, fun a ha => onWindow (wf.states.placed old a ha)⟩
    · rw [windows]
      exact ⟨wf.states.window hst, fun a ha => onWindow (placed st hst a ha)⟩

end WellFormed

end Model

structure Ledger.Known (l : Ledger) (m : Model) : Prop where
  image : ∀ {b i}, i ∈ l.imagesOf b → m.graph.states.contains i = true
  base : ∀ {g b}, b ∈ l.basesOf g → m.graph.states.contains b = true
  input : ∀ {i j}, l.inputImages.get? i = some j → m.catalog.inputs.contains j = true

structure Session.Sound (s : Session) : Prop where
  model : s.model.WellFormed
  ledger : s.ledger.Known s.model

namespace Ledger

variable {l l' : Ledger} {m m' : Model}

theorem Known.keeps (h : l.Known m) (k : m.Keeps m') : l.Known m' where
  image hi := by
    rw [k.contains_state]
    exact h.image hi
  base hb := by
    rw [k.contains_state]
    exact h.base hb
  input hj := by
    rw [k.inputs]
    exact h.input hj

theorem Known.book (h : l.Known m) (same : l'.book = l.book)
    (input : ∀ {i j}, l'.inputImages.get? i = some j → m.catalog.inputs.contains j = true) :
    l'.Known m where
  image {b i} hi := by
    have images : l'.images = l.images := (congrArg Ledger.images same :)
    apply h.image
    unfold imagesOf at hi ⊢
    rw [← images]
    exact hi
  base {g b} hb := by
    have bases : l'.snapshotBases = l.snapshotBases := (congrArg Ledger.snapshotBases same :)
    apply h.base
    unfold basesOf at hb ⊢
    rw [← bases]
    exact hb
  input := input

theorem mem_basesOf_markSnapshot {g g' : SnapshotId} {b b' : StateId} :
    b' ∈ (l.markSnapshot g b).basesOf g' ↔ b' ∈ l.basesOf g' ∨ g = g' ∧ b' = b :=
  OrderedMap.mem_addTo

theorem mem_imagesOf_recognise {o b i b' : StateId} :
    i ∈ (l.recognise o b).imagesOf b' ↔ i ∈ l.imagesOf b' ∨ b = b' ∧ i = o :=
  OrderedMap.mem_addTo

theorem mem_equivalentsOf_recognise {o b o' b' : StateId} :
    b' ∈ (l.recognise o b).equivalentsOf o' ↔ b' ∈ l.equivalentsOf o' ∨ o = o' ∧ b' = b :=
  OrderedMap.mem_addTo

theorem Known.markSnapshot (h : l.Known m) {g : SnapshotId} {b : StateId}
    (live : m.graph.states.contains b = true) : (l.markSnapshot g b).Known m where
  image := h.image
  base hb := by
    rcases mem_basesOf_markSnapshot.1 hb with hb | ⟨-, rfl⟩
    · exact h.base hb
    · exact live
  input := h.input

theorem Known.recognise (h : l.Known m) {o b : StateId}
    (live : m.graph.states.contains o = true) : (l.recognise o b).Known m where
  image hi := by
    rcases mem_imagesOf_recognise.1 hi with hi | ⟨-, rfl⟩
    · exact h.image hi
    · exact live
  base := h.base
  input := h.input

end Ledger

end ScreenGraph
