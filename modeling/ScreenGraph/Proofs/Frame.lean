import ScreenGraph.Reconcile.Check
import ScreenGraph.Proofs.Consistency
import ScreenGraph.Proofs.Matching

namespace ScreenGraph

def State.bare (s : State) : State := { s with outgoing := ∅ }

theorem State.window_eq {s t : State} (same : s.bare = t.bare) : s.window = t.window :=
  (congrArg State.window same :)

theorem State.isLive_eq {s t : State} (same : s.bare = t.bare) : s.isLive = t.isLive :=
  (congrArg State.isLive same :)

namespace Graph

variable {g g' g'' : Graph}

def SameStates (g g' : Graph) : Prop :=
  ∀ s, (g'.states.get? s).map State.bare = (g.states.get? s).map State.bare

theorem SameStates.refl (g : Graph) : g.SameStates g := fun _ => rfl

theorem SameStates.trans (h : g.SameStates g') (h' : g'.SameStates g'') : g.SameStates g'' :=
  fun s => (h' s).trans (h s)

theorem SameStates.modify {s : StateId} {f : State → State} (bare : ∀ st, (f st).bare = st.bare)
    (states : g'.states = g.states.modify s f) : g.SameStates g' := by
  intro k
  rw [states]
  exact Arena.map_get?_modify bare k

theorem withEdge_sameStates (t : Transition) (c : Coverage) : g.SameStates (g.withEdge t c) :=
  SameStates.modify (s := t.source) (f := State.list g.transitions.next) (fun _ => rfl) rfl

theorem withoutEdge_sameStates (id : TransitionId) (s : StateId) :
    g.SameStates (g.withoutEdge id s) :=
  SameStates.modify (s := s) (f := State.unlist id) (fun _ => rfl) rfl

theorem removeTransition_sameStates {id : TransitionId} {old : Option Transition}
    (ok : g.removeTransition id = .ok (old, g')) : g.SameStates g' := by
  obtain ⟨-, ⟨-, rfl⟩ | ⟨t, -, rfl⟩⟩ := removeTransition_eq_ok ok
  · exact .refl _
  · exact withoutEdge_sameStates id t.source

theorem prune_sameStates {ids : List TransitionId} {keys : List EdgeKey}
    (ok : g.prune ids = .ok (keys, g')) : g.SameStates g' := by
  induction ids generalizing g keys with
  | nil =>
    cases ok
    exact .refl _
  | cons id r ih =>
    obtain ⟨⟨old, g₁⟩, removed, ok⟩ := Checked.bind_eq_ok.1 ok
    obtain ⟨⟨rest, g₂⟩, pruned, ok⟩ := Checked.bind_eq_ok.1 ok
    cases ok
    exact (removeTransition_sameStates removed).trans (ih pruned)

theorem deactivateAll_states {ids : List TransitionId} (ok : g.deactivateAll ids = .ok g') :
    g'.states = g.states := by
  refine foldChecked_induct (fun g' => g'.states = g.states) ok rfl ?_
  intro g₁ id _ g₂ same ok
  obtain ⟨-, rfl⟩ := updateTransition_eq_ok.1 ok
  exact same

theorem supersede_states {t : TransitionId} (ok : g.supersede t = .ok g') :
    g'.states = g.states := by
  obtain ⟨u, -, ok⟩ := Checked.bind_eq_ok.1 ok
  obtain ⟨rivals, -, ok⟩ := Checked.bind_eq_ok.1 ok
  obtain ⟨ids, -, ok⟩ := Checked.bind_eq_ok.1 ok
  exact deactivateAll_states ok

end Graph

namespace ActionTable

variable {t t' : ActionTable}

theorem update_eq_ok {id : ActionId} {f : ActionEntry → ActionEntry} :
    t.update id f = .ok t' ↔
      t.entries.contains id = true ∧ t' = { t with entries := t.entries.modify id f } :=
  Arena.update_bind_eq_ok

theorem action_eq_ok {a : ActionId} {x : Action} :
    t.action a = .ok x ↔ ∃ e, t.entries.get? a = some e ∧ e.action = x := by
  simp only [action, Checked.bind_eq_ok, Arena.get_eq_ok_iff, pure_eq_ok]

theorem intern_persists (window : WindowId) (x : Action) {a : ActionId} {e : ActionEntry}
    (live : t.entries.get? a = some e) : (t.intern window x).2.entries.get? a = some e := by
  unfold intern
  split
  · exact live
  · exact Arena.get?_add_of_get? live _

theorem find?_intern_of_find? (window : WindowId) (x : Action) {w : WindowId} {y : Action}
    {a : ActionId} (found : t.find? w y = some a) :
    (t.intern window x).2.find? w y = some a := by
  unfold intern
  split
  · exact found
  next fresh =>
  refine (OrderedMap.get?_insert ..).trans (Eq.trans (if_neg ?_) found)
  rintro ⟨⟩
  rw [fresh] at found
  cases found

theorem find?_intern (t : ActionTable) (window : WindowId) (x : Action) :
    (t.intern window x).2.find? window x = some (t.intern window x).1 := by
  unfold intern
  split
  · next found => exact found
  · exact (OrderedMap.get?_insert ..).trans (if_pos rfl)

theorem modify_persists {id : ActionId} {f : ActionEntry → ActionEntry}
    (same : ∀ e, (f e).action = e.action) {a : ActionId} {e : ActionEntry}
    (live : t.entries.get? a = some e) :
    ∃ e', (t.entries.modify id f).get? a = some e' ∧ e'.action = e.action := by
  rcases Arena.get?_modify_of_get? id f live with kept | changed
  · exact ⟨e, kept, rfl⟩
  · exact ⟨f e, changed, same e⟩

def Faithful (t : ActionTable) : Prop :=
  ∀ w x a, t.find? w x = some a → ∃ e, t.entries.get? a = some e ∧ e.action = x

theorem Faithful.intern (h : t.Faithful) (window : WindowId) (x : Action) :
    (t.intern window x).2.Faithful := by
  intro w y a found
  unfold ActionTable.intern at found ⊢
  split at found
  · exact h w y a found
  dsimp only at found ⊢
  rw [find?, OrderedMap.get?_insert] at found
  split at found
  · next new =>
    cases new
    cases found
    exact ⟨{ action := x }, (Arena.get?_add ..).trans (if_pos rfl), rfl⟩
  · obtain ⟨e, live, action⟩ := h w y a found
    exact ⟨e, Arena.get?_add_of_get? live _, action⟩

theorem Faithful.modify (h : t.Faithful) {id : ActionId} {f : ActionEntry → ActionEntry}
    (same : ∀ e, (f e).action = e.action) :
    Faithful { t with entries := t.entries.modify id f } := by
  intro w x a found
  obtain ⟨e, live, action⟩ := h w x a found
  obtain ⟨e', live', kept⟩ := modify_persists same live
  exact ⟨e', live', kept.trans action⟩

end ActionTable

namespace Model

structure Keeps (m m' : Model) : Prop where
  policy : m'.policy = m.policy
  snapshots : m'.snapshots = m.snapshots
  avms : m'.avms = m.avms
  windows : m'.catalog.windows = m.catalog.windows
  widgets : m'.catalog.widgets = m.catalog.widgets
  inputs : ∀ i, m'.catalog.inputs.contains i = m.catalog.inputs.contains i
  states : m.graph.SameStates m'.graph
  actions : ∀ {a e}, m.actions.entries.get? a = some e →
    ∃ e', m'.actions.entries.get? a = some e' ∧ e'.action = e.action
  interned : ∀ {w x a}, m.actions.find? w x = some a → m'.actions.find? w x = some a
  faithful : m.actions.Faithful → m'.actions.Faithful

namespace Keeps

variable {m m' m'' : Model}

theorem refl (m : Model) : m.Keeps m where
  policy := rfl
  snapshots := rfl
  avms := rfl
  windows := rfl
  widgets := rfl
  inputs _ := rfl
  states := .refl m.graph
  actions h := ⟨_, h, rfl⟩
  interned h := h
  faithful h := h

theorem trans (h : m.Keeps m') (h' : m'.Keeps m'') : m.Keeps m'' where
  policy := h'.policy.trans h.policy
  snapshots := h'.snapshots.trans h.snapshots
  avms := h'.avms.trans h.avms
  windows := h'.windows.trans h.windows
  widgets := h'.widgets.trans h.widgets
  inputs i := (h'.inputs i).trans (h.inputs i)
  states := h.states.trans h'.states
  actions ha := by
    obtain ⟨e₁, h₁, same₁⟩ := h.actions ha
    obtain ⟨e₂, h₂, same₂⟩ := h'.actions h₁
    exact ⟨e₂, h₂, same₂.trans same₁⟩
  interned found := h'.interned (h.interned found)
  faithful before := h'.faithful (h.faithful before)

theorem ofGraph {g : Graph} (states : m.graph.SameStates g) : m.Keeps { m with graph := g } :=
  { refl m with states }

theorem ofStates {g : Graph} (states : g.states = m.graph.states) :
    m.Keeps { m with graph := g } :=
  ofGraph fun s => by rw [states]

theorem ofActions {t : ActionTable} (actions : ∀ {a e}, m.actions.entries.get? a = some e →
      ∃ e', t.entries.get? a = some e' ∧ e'.action = e.action)
    (interned : ∀ {w x a}, m.actions.find? w x = some a → t.find? w x = some a)
    (faithful : m.actions.Faithful → t.Faithful) : m.Keeps { m with actions := t } :=
  { refl m with actions, interned, faithful }

theorem ofIntern (window : WindowId) (x : Action) :
    m.Keeps { m with actions := (m.actions.intern window x).2 } :=
  ofActions (fun live => ⟨_, ActionTable.intern_persists window x live, rfl⟩)
    (ActionTable.find?_intern_of_find? window x) fun h => h.intern window x

theorem ofModify {id : ActionId} {f : ActionEntry → ActionEntry}
    (same : ∀ e, (f e).action = e.action) : m.Keeps { m with
      actions := { m.actions with entries := m.actions.entries.modify id f } } :=
  ofActions (ActionTable.modify_persists same) (fun found => found) fun h => h.modify same

theorem ofInputs {inputs : Arena .input Input}
    (same : ∀ i, inputs.contains i = m.catalog.inputs.contains i) :
    m.Keeps { m with catalog := { m.catalog with inputs } } :=
  { refl m with inputs := same }

theorem ofReplacements (r : OrderedMap WidgetId WidgetId) :
    m.Keeps { m with catalog := { m.catalog with replacements := r } } :=
  { refl m with }

theorem state (h : m.Keeps m') {s : StateId} {st : State} (live : m.graph.states.get? s = some st) :
    ∃ st', m'.graph.states.get? s = some st' ∧ st'.bare = st.bare :=
  Arena.get?_of_map (h.states s).symm live

theorem state' (h : m.Keeps m') {s : StateId} {st' : State}
    (live : m'.graph.states.get? s = some st') :
    ∃ st, m.graph.states.get? s = some st ∧ st'.bare = st.bare := by
  obtain ⟨st, hst, bare⟩ := Arena.get?_of_map (h.states s) live
  exact ⟨st, hst, bare.symm⟩

theorem contains_state (h : m.Keeps m') (s : StateId) :
    m'.graph.states.contains s = m.graph.states.contains s :=
  Arena.contains_of_map (h.states s)

theorem contains_action (h : m.Keeps m') {a : ActionId}
    (live : m.actions.entries.contains a = true) : m'.actions.entries.contains a = true := by
  obtain ⟨e, he⟩ := Arena.contains_iff.1 live
  obtain ⟨e', he', -⟩ := h.actions he
  exact Arena.contains_of_get? he'

theorem read (h : m.Keeps m') {β : Type} {f : State → β} (bare : ∀ st, f st.bare = f st)
    (s : StateId) : f <$> m'.graph.state s = f <$> m.graph.state s := by
  have same := h.states s
  unfold Graph.state Arena.get
  cases hs : m.graph.states.get? s <;> cases hs' : m'.graph.states.get? s <;>
    simp only [hs, hs', Option.map_some, Option.map_none, reduceCtorEq] at same
  · rfl
  · next st st' =>
    have : f st' = f st := by rw [← bare, Option.some.inj same, bare]
    simp [Functor.map, Except.map, this]

theorem windowOfAvm (h : m.Keeps m') (a : AvmId) : m'.windowOfAvm a = m.windowOfAvm a := by
  unfold Model.windowOfAvm
  rw [h.avms]
  cases m.avms.get a with
  | error f => rfl
  | ok v => exact h.read (f := State.window) (fun _ => rfl) v.state

end Keeps

structure Aside (m m' : Model) : Prop extends Keeps m m' where
  graph : m'.graph = m.graph

variable {m m' m'' : Model}

theorem Aside.refl (m : Model) : m.Aside m := ⟨.refl m, rfl⟩

theorem Aside.trans (h : m.Aside m') (h' : m'.Aside m'') : m.Aside m'' :=
  ⟨h.toKeeps.trans h'.toKeeps, h'.graph.trans h.graph⟩

end Model

namespace Catalog

variable {c c' : Catalog}

theorem updateInput_eq_ok {id : InputId} {f : Input → Input} :
    c.updateInput id f = .ok c' ↔
      c.inputs.contains id = true ∧ c' = { c with inputs := c.inputs.modify id f } :=
  Arena.update_bind_eq_ok

theorem updateInputs_eq_ok {ids : List InputId} {f : Input → Input}
    (ok : foldChecked (fun c i => c.updateInput i f) c ids = .ok c') :
    ∃ inputs : Arena .input Input, (∀ i, inputs.contains i = c.inputs.contains i) ∧
      c' = { c with inputs } := by
  induction ids generalizing c with
  | nil =>
    cases ok
    exact ⟨_, fun _ => rfl, rfl⟩
  | cons i r ih =>
    obtain ⟨c₁, first, ok⟩ := Checked.bind_eq_ok.1 ok
    obtain ⟨-, rfl⟩ := updateInput_eq_ok.1 first
    obtain ⟨inputs, same, rfl⟩ := ih ok
    exact ⟨inputs, fun k => (same k).trans (Arena.contains_modify ..), rfl⟩

theorem updateInputs_succeeds {ids : List InputId} {f : Input → Input}
    (live : ∀ i ∈ ids, c.inputs.contains i = true) :
    Succeeds (foldChecked (fun c i => c.updateInput i f) c ids) := by
  refine foldChecked_succeeds (fun c : Catalog => ∀ i ∈ ids, c.inputs.contains i = true) live ?_ ?_
  · exact fun c i mem live => ⟨_, updateInput_eq_ok.2 ⟨live i mem, rfl⟩⟩
  · intro c i _ c' live ok j mem
    obtain ⟨-, rfl⟩ := updateInput_eq_ok.1 ok
    exact (Arena.contains_modify ..).trans (live j mem)

theorem replaceAll_eq (c : Catalog) (pairs : List FuzzyPair) :
    ∃ r, c.replaceAll pairs = { c with replacements := r } := by
  induction pairs generalizing c with
  | nil => exact ⟨c.replacements, rfl⟩
  | cons p rest ih => exact ih (c.replace p.expectedWidget p.observedWidget)

end Catalog

theorem Matching.run_eq_ok {s : AvmStore} {c c' : Catalog} {p : Policy} {o e : OrderedSet AvmId}
    {m : Matching} (ok : Matching.run s c p o e = .ok (m, c')) :
    ∃ r, c' = { c with replacements := r } := by
  obtain ⟨m₃, pairs, -, -, -, rfl⟩ := Matching.run_eq_ok_iff.1 ok
  exact c.replaceAll_eq pairs

theorem Rule.prepare_eq_ok {r : Rule} {m m' : Model} {t t' : Trial}
    (ok : r.prepare m t = .ok (m', t')) :
    ∃ rs, m' = { m with catalog := { m.catalog with replacements := rs } } := by
  cases r with
  | avmMatch =>
    obtain ⟨⟨matching, catalog⟩, run, done⟩ := Checked.bind_eq_ok.1 ok
    cases done
    obtain ⟨rs, rfl⟩ := Matching.run_eq_ok run
    exact ⟨rs, rfl⟩
  | blankResourceId =>
    obtain ⟨ro, -, ok⟩ := Checked.bind_eq_ok.1 ok
    obtain ⟨re, -, done⟩ := Checked.bind_eq_ok.1 ok
    cases done
    exact ⟨m.catalog.replacements, rfl⟩
  | _ =>
    cases ok
    exact ⟨m.catalog.replacements, rfl⟩

theorem Trial.settle_eq_ok {rules : List Rule} {m m' : Model} {t : Trial} {c : Comparison}
    (ok : Trial.settle rules m t = .ok (c, m')) :
    ∃ rs, m' = { m with catalog := { m.catalog with replacements := rs } } := by
  induction rules generalizing m t with
  | nil =>
    cases ok
    exact ⟨_, rfl⟩
  | cons r rules ih =>
    obtain ⟨⟨m₁, t₁⟩, prepared, ok⟩ := Checked.bind_eq_ok.1 ok
    obtain ⟨v, -, ok⟩ := Checked.bind_eq_ok.1 ok
    obtain ⟨rs, rfl⟩ := Rule.prepare_eq_ok prepared
    cases v with
    | inconclusive =>
      obtain ⟨rs, rfl⟩ := ih ok
      exact ⟨rs, rfl⟩
    | _ =>
      cases ok
      exact ⟨rs, rfl⟩

namespace Model

variable {m m' : Model}

theorem compare_eq_ok {o e : StateId} {strict : Bool} {c : Comparison}
    (ok : m.compare o e strict = .ok (c, m')) :
    ∃ r, m' = { m with catalog := { m.catalog with replacements := r } } := by
  obtain ⟨so, -, ok⟩ := Checked.bind_eq_ok.1 ok
  obtain ⟨se, -, ok⟩ := Checked.bind_eq_ok.1 ok
  exact Trial.settle_eq_ok ok

theorem compare_aside {o e : StateId} {strict : Bool} {c : Comparison}
    (ok : m.compare o e strict = .ok (c, m')) : m.Aside m' := by
  obtain ⟨r, rfl⟩ := compare_eq_ok ok
  exact ⟨.ofReplacements r, rfl⟩

theorem internAction_eq_ok {window : WindowId} {x : Action} {a : ActionId}
    (ok : m.internAction window x = .ok (a, m')) :
    (∀ v, x.target = some v → m.windowOfAvm v = .ok window) ∧
      a = (m.actions.intern window x).1 ∧
      m' = { m with actions := (m.actions.intern window x).2 } := by
  cases target : x.target with
  | none =>
    simp only [internAction, target] at ok
    cases ok
    exact ⟨nofun, rfl, rfl⟩
  | some v =>
    simp only [internAction, target] at ok
    obtain ⟨w, hw, ok⟩ := Checked.bind_eq_ok.1 ok
    obtain ⟨⟨⟩, same, ok⟩ := Checked.bind_eq_ok.1 ok
    cases ok
    refine ⟨?_, rfl, rfl⟩
    intro u hu
    cases hu
    rw [hw, of_decide_eq_true (require_eq_ok.1 same)]

theorem internAction_aside {window : WindowId} {x : Action} {a : ActionId}
    (ok : m.internAction window x = .ok (a, m')) : m.Aside m' := by
  obtain ⟨-, -, rfl⟩ := internAction_eq_ok ok
  exact ⟨.ofIntern window x, rfl⟩

theorem resolveAction_aside {x : TransferAction} {a : ActionId}
    (ok : m.resolveAction x = .ok (a, m')) : m.Aside m' := by
  cases x with
  | kept id =>
    cases ok
    exact .refl _
  | retargeted w x => exact internAction_aside ok

theorem markNavigateBack_aside {a : ActionId} (ok : m.markNavigateBack a = .ok m') :
    m.Aside m' := by
  obtain ⟨actions, marked, ok⟩ := Checked.bind_eq_ok.1 ok
  obtain ⟨inputs, -, ok⟩ := Checked.bind_eq_ok.1 ok
  obtain ⟨catalog, flagged, ok⟩ := Checked.bind_eq_ok.1 ok
  cases ok
  obtain ⟨-, rfl⟩ := ActionTable.update_eq_ok.1 marked
  obtain ⟨inputs, same, rfl⟩ := Catalog.updateInputs_eq_ok flagged
  have entry : m.Keeps { m with actions := { m.actions with
      entries := m.actions.entries.modify a fun e => { e with navigateBack := true } } } :=
    .ofModify fun _ => rfl
  exact ⟨entry.trans (.ofInputs same), rfl⟩

theorem markTransfer_aside {t : Transfer} {old a : ActionId}
    (ok : m.markTransfer t old a = .ok m') : m.Aside m' := by
  unfold markTransfer at ok
  split at ok
  · obtain ⟨m₁, first, ok⟩ := Checked.bind_eq_ok.1 ok
    exact (markNavigateBack_aside first).trans (markNavigateBack_aside ok)
  · cases ok
    exact .refl _

theorem bindImages_aside {images : OrderedMap InputId InputId} {old a : ActionId}
    (ok : m.bindImages images old a = .ok m') : m.Aside m' := by
  simp only [bindImages, Checked.bind_eq_ok, pure_eq_ok] at ok
  obtain ⟨bound, -, actions, ok, rfl⟩ := ok
  refine foldChecked_induct (fun t => m.Aside { m with actions := t }) ok (.refl m) ?_
  intro t i _ t' before ok
  obtain ⟨-, rfl⟩ := ActionTable.update_eq_ok.1 ok
  exact before.trans ⟨.ofModify fun _ => rfl, rfl⟩

end Model

def Ledger.book (l : Ledger) : Ledger := { l with inputImages := ∅, tally := {} }

def Ledger.account (l : Ledger) : Tally × OrderedMap InputId InputId := (l.tally, l.inputImages)

namespace Session

structure Keeps (s s' : Session) : Prop where
  model : s.model.Keeps s'.model
  book : s'.ledger.book = s.ledger.book

structure Aside (s s' : Session) : Prop where
  model : s.model.Aside s'.model
  book : s'.ledger.book = s.ledger.book

variable {s s' s'' : Session}

theorem Keeps.refl (s : Session) : s.Keeps s := ⟨.refl s.model, rfl⟩

theorem Keeps.trans (h : s.Keeps s') (h' : s'.Keeps s'') : s.Keeps s'' :=
  ⟨h.model.trans h'.model, h'.book.trans h.book⟩

theorem Aside.refl (s : Session) : s.Aside s := ⟨.refl s.model, rfl⟩

theorem Aside.trans (h : s.Aside s') (h' : s'.Aside s'') : s.Aside s'' :=
  ⟨h.model.trans h'.model, h'.book.trans h.book⟩

theorem Aside.keeps (h : s.Aside s') : s.Keeps s' := ⟨h.model.toKeeps, h.book⟩

theorem pruneObsolete_eq_ok {t : TransitionId} {p : Option StateId} {keys : List EdgeKey}
    (ok : s.pruneObsolete t p = .ok (keys, s')) : ∃ ids graph,
      s.model.graph.obsolete t (s.ledger.predecessors p) = .ok ids ∧
      s.model.graph.prune ids = .ok (keys, graph) ∧
      s' = { model := { s.model with graph }, ledger := { s.ledger with tally :=
        { s.ledger.tally with pruned := s.ledger.tally.pruned + keys.length } } } := by
  obtain ⟨ids, obsolete, ok⟩ := Checked.bind_eq_ok.1 ok
  obtain ⟨⟨keys, graph⟩, pruned, ok⟩ := Checked.bind_eq_ok.1 ok
  cases ok
  exact ⟨ids, graph, obsolete, pruned, rfl⟩

theorem supersede_eq_ok {t : TransitionId} (ok : s.supersede t = .ok s') : ∃ graph,
    s.model.graph.supersede t = .ok graph ∧ s' = { s with model := { s.model with graph } } := by
  obtain ⟨graph, superseded, ok⟩ := Checked.bind_eq_ok.1 ok
  cases ok
  exact ⟨graph, superseded, rfl⟩

theorem pruneObsolete_keeps {t : TransitionId} {p : Option StateId} {keys : List EdgeKey}
    (ok : s.pruneObsolete t p = .ok (keys, s')) : s.Keeps s' := by
  obtain ⟨ids, g, -, pruned, rfl⟩ := pruneObsolete_eq_ok ok
  exact ⟨.ofGraph (Graph.prune_sameStates pruned), rfl⟩

theorem supersede_keeps {t : TransitionId} (ok : s.supersede t = .ok s') : s.Keeps s' := by
  obtain ⟨g, superseded, rfl⟩ := supersede_eq_ok ok
  exact ⟨.ofStates (Graph.supersede_states superseded), rfl⟩

theorem migrateInput_cases {w : WindowId} {matching : Matching} {i : InputId}
    (ok : migrateInput w matching s i = .ok s') :
    (s.ledger.inputImages.contains i = true ∧ s' = s) ∨ s.ledger.inputImages.contains i = false ∧
      (s' = { s with ledger := s.ledger.addUnresolved 1 } ∨
        ∃ x j y, s.model.catalog.inputs.get? i = some x ∧
          s.model.findInputImage x w matching = .ok (some j) ∧
          s.model.catalog.inputs.get? j = some y ∧
          s' = {
            model := { s.model with catalog := { s.model.catalog with
              inputs := s.model.catalog.inputs.modify j fun z =>
                z.absorb x.modifiedMethods (y.handlers.toList.any s.model.catalog.isChanged) } }
            ledger := { s.ledger with
              inputImages := s.ledger.inputImages.insert i j
              tally := { s.ledger.tally with migrated := s.ledger.tally.migrated + 1 } } }) := by
  unfold migrateInput at ok
  split at ok
  · next merged =>
    cases ok
    exact .inl ⟨merged, rfl⟩
  next fresh =>
  obtain ⟨x, hx, ok⟩ := Arena.get_bind_eq_ok.1 ok
  obtain ⟨image, found, ok⟩ := Checked.bind_eq_ok.1 ok
  cases image with
  | none =>
    cases ok
    exact .inr ⟨Bool.eq_false_iff.2 fresh, .inl rfl⟩
  | some j =>
    obtain ⟨y, hy, ok⟩ := Arena.get_bind_eq_ok.1 ok
    obtain ⟨catalog, absorbed, done⟩ := Checked.bind_eq_ok.1 ok
    cases done
    obtain ⟨-, rfl⟩ := Catalog.updateInput_eq_ok.1 absorbed
    exact .inr ⟨Bool.eq_false_iff.2 fresh, .inr ⟨x, j, y, hx, found, hy, rfl⟩⟩

theorem migrateInputs_induct {o b : StateId} {matching : Matching} (I : Session → Prop)
    (ok : s.migrateInputs o b matching = .ok s') (start : I s)
    (keeps : ∀ {w i s₁ s₂}, I s₁ → migrateInput w matching s₁ i = .ok s₂ → I s₂) : I s' := by
  obtain ⟨sb, -, ok⟩ := Checked.bind_eq_ok.1 ok
  obtain ⟨so, -, ok⟩ := Checked.bind_eq_ok.1 ok
  obtain ⟨inputs, -, ok⟩ := Checked.bind_eq_ok.1 ok
  exact foldChecked_induct I ok start fun _ _ _ _ => keeps

theorem migrateInput_aside {w : WindowId} {matching : Matching} {i : InputId}
    (ok : migrateInput w matching s i = .ok s') : s.Aside s' := by
  obtain ⟨-, rfl⟩ | ⟨-, rfl | ⟨x, j, y, -, -, -, rfl⟩⟩ := migrateInput_cases ok
  · exact .refl s'
  · exact ⟨.refl s.model, rfl⟩
  · exact ⟨⟨.ofInputs fun _ => Arena.contains_modify .., rfl⟩, rfl⟩

theorem migrateInputs_aside {o b : StateId} {matching : Matching}
    (ok : s.migrateInputs o b matching = .ok s') : s.Aside s' :=
  migrateInputs_induct s.Aside ok (.refl s) fun h ok => h.trans (migrateInput_aside ok)

theorem plan_aside {o b : StateId} {matching : Matching} {plan : List Transfer}
    (ok : s.plan o b matching = .ok (plan, s')) : s.Aside s' := by
  obtain ⟨fs, -, ok⟩ := Checked.bind_eq_ok.1 ok
  cases ok
  exact ⟨.refl s.model, rfl⟩

theorem enter_aside {o b : StateId} {matching : Matching} {plan : List Transfer}
    (ok : s.enter o b matching = .ok (plan, s')) :
    Aside { s with ledger := s.ledger.recognise o b } s' := by
  obtain ⟨s₁, migrated, ok⟩ := Checked.bind_eq_ok.1 ok
  exact (migrateInputs_aside migrated).trans (plan_aside ok)

theorem transferAction_eq_ok {t : Transfer} {old : Transition} {a : ActionId}
    (ok : s.transferAction t old = .ok (a, s')) :
    ∃ m₁ m₂ m₃, s.model.resolveAction t.action = .ok (a, m₁) ∧
      m₁.markTransfer t old.action a = .ok m₂ ∧
      m₂.bindImages s.ledger.inputImages old.action a = .ok m₃ ∧ s' = { s with model := m₃ } := by
  obtain ⟨⟨a₁, m₁⟩, resolved, ok⟩ := Checked.bind_eq_ok.1 ok
  obtain ⟨m₂, marked, ok⟩ := Checked.bind_eq_ok.1 ok
  obtain ⟨m₃, bound, done⟩ := Checked.bind_eq_ok.1 ok
  cases done
  exact ⟨m₁, m₂, m₃, resolved, marked, bound, rfl⟩

theorem transferAction_aside {t : Transfer} {old : Transition} {a : ActionId}
    (ok : s.transferAction t old = .ok (a, s')) : s.Aside s' := by
  obtain ⟨m₁, m₂, m₃, resolved, marked, bound, rfl⟩ := transferAction_eq_ok ok
  have model := Model.resolveAction_aside resolved
  exact ⟨(model.trans (Model.markTransfer_aside marked)).trans (Model.bindImages_aside bound), rfl⟩

end Session

end ScreenGraph
