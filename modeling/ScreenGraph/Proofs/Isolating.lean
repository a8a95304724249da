import Mathlib.Logic.Relation
import ScreenGraph.Proofs.Edits
import ScreenGraph.Proofs.Operating
import ScreenGraph.Proofs.Persisting

namespace ScreenGraph

open Checked

theorem Checked.Persists.filter_append {α : Type} {test test' : α → Checked Bool} {xs new : List α}
    (h : ∀ a ∈ xs, Persists (test a) (test' a)) (fails : ∀ a ∈ new, test' a = .ok false) :
    Persists (filterChecked test xs) (filterChecked test' (xs ++ new)) := by
  intro ys ok
  induction xs generalizing ys with
  | nil =>
    cases ok
    simpa using filterChecked_ok (p := fun _ => false) fails
  | cons a r ih =>
    obtain ⟨c, rest, tested, filtered, rfl⟩ := filterChecked_cons_eq_ok.1 ok
    have again := ih (fun b mem => h b (by simp [mem])) rest filtered
    exact filterChecked_cons_eq_ok.2 ⟨c, rest, h a (by simp) c tested, again, rfl⟩

theorem Catalog.runtimeWidgets_persists {c c' : Catalog} {w : WindowId} (v : Version)
    (window : ∀ {win}, c.windows.get? w = some win → ∃ win' new,
      c'.windows.get? w = some win' ∧ win'.widgets.toList = win.widgets.toList ++ new ∧
        ∀ x ∈ new, ∃ wid, c'.widgets.get? x = some wid ∧ wid.runtimeCreated = false)
    (widget : ∀ {x wid}, c.widgets.get? x = some wid → c'.widgets.get? x = some wid) :
    Persists (c.runtimeWidgets w v) (c'.runtimeWidgets w v) := by
  intro ws ok
  obtain ⟨win, live, ok⟩ := Arena.get_bind_eq_ok.1 ok
  obtain ⟨win', new, live', lists, static⟩ := window live
  refine Arena.get_bind_eq_ok.2 ⟨win', live', ?_⟩
  rw [lists]
  refine Persists.map (.filter_append (fun x _ => ?_) fun x mem => ?_) _ ws ok
  · exact (Persists.get fun _ => widget).map _
  · obtain ⟨wid, there, static⟩ := static x mem
    exact Arena.get_bind_eq_ok.2 ⟨wid, there, by rw [static]; rfl⟩

section

variable {s k : StateId} {st : State}

theorem State.compared_modify {states : Arena .state State} {f : State → State}
    (live : states.get? s = some st) (same : k = s → ∀ st, (f st).compared = st.compared) :
    ∃ st', (states.modify k f).get? s = some st' ∧ st'.compared = st.compared := by
  rw [Arena.get?_modify]
  split
  · next here => exact ⟨f st, by rw [live]; rfl, same here st⟩
  · exact ⟨st, live, rfl⟩

theorem Graph.Step.compared {g g' : Graph} {op : Graph.Operation} (step : g.Step op g')
    (live : g.states.get? s = some st) :
    ∃ st', g'.states.get? s = some st' ∧ st'.compared = st.compared := by
  cases step with
  | addState => exact ⟨st, Arena.get?_add_of_get? live _, rfl⟩
  | addVirtual => exact ⟨st, Arena.get?_add_of_get? live _, rfl⟩
  | addTransition => exact State.compared_modify live fun _ _ => rfl
  | removeTransition => exact State.compared_modify live fun _ _ => rfl
  | _ => exact ⟨st, live, rfl⟩

end

namespace Model

def Freezes (m : Model) (spared : List StateId) (a : AvmId) : Prop :=
  ∃ s ∈ spared, ∃ st, m.graph.states.get? s = some st ∧ a ∈ st.comparableAvms

def ShowsIn (m : Model) (spared : List StateId) (w : WindowId) : Prop :=
  ∃ s ∈ spared, ∃ st, m.graph.states.get? s = some st ∧ st.window = w

/-- What an explorer may go on to do without a change to what some states are compared by. -/
inductive Addition (spared : List StateId) (m : Model) : Model → Prop
  | addAvm {s x w id m'} (ok : m.addAvm s x w = .ok (id, m')) : Addition spared m m'
  | storeAvm (s : StateId) (x : Attributes) :
      Addition spared m { m with avms := (m.avms.add s x).2 }
  | bindAvm {a w avms} (ok : m.avms.bind a w = .ok avms) (other : ¬ m.Freezes spared a) :
      Addition spared m { m with avms }
  | updateState {s f m'} (ok : m.updateState s f = .ok m')
      (spares : s ∈ spared → ∀ st, (f st).compared = st.compared) : Addition spared m m'
  | graph {o} {op : Graph.Operation} {g} (ok : m.graph.apply o op = .ok g) :
      Addition spared m { m with graph := g }
  | updateTransition {id f m'} (ok : m.updateTransition id f = .ok m') : Addition spared m m'
  | actions (t : ActionTable) : Addition spared m { m with actions := t }
  | veto (w : WindowId) (a : ActionId) (dest : WindowId) : Addition spared m (m.veto w a dest)
  | addSnapshot (g : Snapshot) : Addition spared m (m.addSnapshot g).2
  | attachSnapshot (s : StateId) (g : SnapshotId) : Addition spared m (m.attachSnapshot s g).2
  | openWindow (className identifier : String) (kind : WindowKind) (v : Version) :
      Addition spared m { m with catalog := (m.catalog.openWindow className identifier kind v).2 }
  | addWidget {w id c} (ok : m.catalog.addWidget w = .ok (id, c))
      (spares : m.ShowsIn spared w.window → w.runtimeCreated = false) :
      Addition spared m { m with catalog := c }
  | addInput {i id c} (ok : m.catalog.addInput i = .ok (id, c)) :
      Addition spared m { m with catalog := c }
  | updateInput {id f c} (ok : m.catalog.updateInput id f = .ok c) :
      Addition spared m { m with catalog := c }
  | markChanged (method : String) :
      Addition spared m { m with catalog := m.catalog.markChanged method }

variable {m m' m'' : Model} {spared : List StateId} {s : StateId} {st : State}

namespace Shields

theorem trans (h : m.Frozen s st) (first : m.Shields m' s st)
    (last : ∀ st', m'.Frozen s st' → m'.Shields m'' s st') : m.Shields m'' s st := by
  obtain ⟨st', frozen, same⟩ := h.shielded first
  have last := last st' frozen
  obtain ⟨st'', live, same'⟩ := last.state
  exact ⟨first.toSustains.trans last.toSustains same h.good, st'', live, same'.trans same⟩

theorem refl (h : m.Frozen s st) : m.Shields m s st := ⟨.refl m st, st, h.live, rfl⟩

theorem ofGraph {g : Graph}
    (state : ∃ st', g.states.get? s = some st' ∧ st'.compared = st.compared) :
    m.Shields { m with graph := g } s st :=
  ⟨{ Sustains.refl m st with }, state⟩

end Shields

namespace Frozen

theorem ofAvms (h : m.Frozen s st) {avms : AvmStore}
    (avm : ∀ {a v}, m.avms.avms.get? a = some v → avms.avms.get? a = some v)
    (binding : ∀ {a}, a ∈ st.comparableAvms → avms.widgetOf a = m.avms.widgetOf a) :
    m.Shields { m with avms } s st :=
  ⟨{ Sustains.refl m st with avm, binding }, st, h.live, rfl⟩

theorem ofCatalog (h : m.Frozen s st) {c : Catalog}
    (replacements : c.replacements = m.catalog.replacements)
    (widget : ∀ {x v}, m.catalog.widgets.get? x = some v → c.widgets.get? x = some v)
    (window : ∀ {w win}, m.catalog.windows.get? w = some win → ∃ win' new,
      c.windows.get? w = some win' ∧ win'.kind = win.kind ∧
        win'.widgets.toList = win.widgets.toList ++ new ∧ (w = st.window →
          ∀ x ∈ new, ∃ wid, c.widgets.get? x = some wid ∧ wid.runtimeCreated = false)) :
    m.Shields { m with catalog := c } s st := by
  refine ⟨{ Sustains.refl m st with replacements, widget, window := ?_, runtime := ?_ },
    st, h.live, rfl⟩
  · intro w win live
    obtain ⟨win', -, live', kind, -⟩ := window live
    exact ⟨win', live', kind⟩
  · refine Catalog.runtimeWidgets_persists _ (fun live => ?_) widget
    obtain ⟨win', new, live', -, lists, static⟩ := window live
    exact ⟨win', new, live', lists, static rfl⟩

theorem storeAvm (h : m.Frozen s st) (k : StateId) (x : Attributes) :
    m.Shields { m with avms := (m.avms.add k x).2 } s st :=
  h.ofAvms (fun live => Arena.get?_add_of_get? live _) fun _ => rfl

theorem bindAvm (h : m.Frozen s st) {a : AvmId} {w : WidgetId} {avms : AvmStore}
    (ok : m.avms.bind a w = .ok avms) (other : a ∉ st.comparableAvms) :
    m.Shields { m with avms } s st := by
  unfold AvmStore.bind at ok
  split at ok <;> cases ok
  refine h.ofAvms id fun {b} mem => ?_
  refine (OrderedMap.get?_insert ..).trans (if_neg ?_)
  rintro rfl
  exact other mem

theorem updateState (h : m.Frozen s st) {k : StateId} {f : State → State}
    (ok : m.updateState k f = .ok m') (same : k = s → ∀ st, (f st).compared = st.compared) :
    m.Shields m' s st := by
  obtain ⟨-, rfl⟩ := updateState_eq_ok ok
  exact .ofGraph (State.compared_modify h.live same)

theorem addAvm (h : m.Frozen s st) {k : StateId} {x : Attributes} {w : Option WidgetId}
    {id : AvmId} (ok : m.addAvm k x w = .ok (id, m')) : m.Shields m' s st := by
  obtain ⟨avms, -, -, rfl, bound, updated⟩ := addAvm_eq_ok ok
  have stored : { m with avms := (m.avms.add k x).2 }.Frozen s st :=
    ⟨h.live, h.good, fun a mem => Arena.contains_add (h.valued a mem) _⟩
  have shields : m.Shields { m with avms } s st := by
    obtain rfl | ⟨l, -, bound⟩ := bound
    · exact h.storeAvm k x
    refine .trans h (h.storeAvm k x) fun st' frozen => frozen.bindAvm bound fun mem => ?_
    -- a frozen valuation was there before, and the cell of the new one was vacant
    cases h.live.symm.trans frozen.live
    simpa [Arena.contains] using h.valued _ mem
  exact .trans h shields fun st' frozen => frozen.updateState updated fun _ _ => rfl

theorem openWindow (h : m.Frozen s st) (className identifier : String) (kind : WindowKind)
    (v : Version) : m.Shields
      { m with catalog := (m.catalog.openWindow className identifier kind v).2 } s st := by
  unfold Catalog.openWindow
  split
  · exact .refl h
  · exact h.ofCatalog rfl id fun {w win} live =>
      ⟨win, [], Arena.get?_add_of_get? live _, rfl, by simp, nofun⟩

theorem addWidget (h : m.Frozen s st) {w : Widget} {id : WidgetId} {c : Catalog}
    (ok : m.catalog.addWidget w = .ok (id, c))
    (static : w.window = st.window → w.runtimeCreated = false) :
    m.Shields { m with catalog := c } s st := by
  obtain ⟨windows, updated, done⟩ := Checked.bind_eq_ok.1 ok
  obtain ⟨-, rfl⟩ := Arena.update_eq_ok.1 updated
  cases done
  refine h.ofCatalog rfl (fun live => Arena.get?_add_of_get? live w) fun {k win} live => ?_
  rw [Arena.get?_modify, live]
  split
  · next here =>
    refine ⟨_, if m.catalog.widgets.next ∈ win.widgets then [] else [m.catalog.widgets.next],
      rfl, rfl, ?_, fun same x mem => ?_⟩
    · refine (OrderedSet.toList_insert ..).trans ?_
      split <;> simp
    · have new : x = m.catalog.widgets.next := by
        split at mem <;> simp_all
      exact ⟨w, by rw [new]; exact (Arena.get?_add ..).trans (if_pos rfl), static (here.trans same)⟩
  · exact ⟨win, [], rfl, rfl, by simp, nofun⟩

theorem addInput (h : m.Frozen s st) {i : Input} {id : InputId} {c : Catalog}
    (ok : m.catalog.addInput i = .ok (id, c)) : m.Shields { m with catalog := c } s st := by
  obtain ⟨windows, updated, done⟩ := Checked.bind_eq_ok.1 ok
  obtain ⟨-, rfl⟩ := Arena.update_eq_ok.1 updated
  cases done
  refine h.ofCatalog rfl (fun live => live) fun {w win} live => ?_
  rw [Arena.get?_modify, live]
  split
  · exact ⟨_, [], rfl, rfl, by simp, nofun⟩
  · exact ⟨win, [], rfl, rfl, by simp, nofun⟩

end Frozen

theorem Addition.shields (addition : m.Addition spared m') (h : m.Frozen s st)
    (mem : s ∈ spared) : m.Shields m' s st := by
  cases addition with
  | addAvm ok => exact h.addAvm ok
  | storeAvm k x => exact h.storeAvm k x
  | bindAvm ok other => exact h.bindAvm ok fun frozen => other ⟨s, mem, st, h.live, frozen⟩
  | updateState ok spares => exact h.updateState ok fun here => spares (here ▸ mem)
  | graph ok => exact .ofGraph ((Graph.apply_step ok).compared h.live)
  | updateTransition ok =>
    obtain ⟨g, updated, done⟩ := Checked.bind_eq_ok.1 ok
    cases done
    obtain ⟨-, rfl⟩ := Graph.updateTransition_eq_ok.1 updated
    exact .ofGraph ⟨st, h.live, rfl⟩
  | actions t => exact ⟨{ Sustains.refl m st with }, st, h.live, rfl⟩
  | veto w a dest => exact ⟨{ Sustains.refl m st with }, st, h.live, rfl⟩
  | addSnapshot g =>
    unfold Model.addSnapshot
    split
    · exact .refl h
    · exact ⟨{ Sustains.refl m st with }, st, h.live, rfl⟩
  | attachSnapshot k g =>
    unfold Model.attachSnapshot
    split
    · exact .refl h
    split
    · exact .refl h
    · exact .ofGraph (State.compared_modify h.live fun _ _ => rfl)
  | openWindow className identifier kind v => exact h.openWindow className identifier kind v
  | addWidget ok spares =>
    exact h.addWidget ok fun same => spares ⟨s, mem, st, h.live, same.symm⟩
  | addInput ok => exact h.addInput ok
  | updateInput ok =>
    obtain ⟨-, rfl⟩ := Catalog.updateInput_eq_ok.1 ok
    exact h.ofCatalog rfl id fun {w win} live => ⟨win, [], live, rfl, by simp, nofun⟩
  | markChanged method =>
    exact h.ofCatalog rfl id fun {w win} live => ⟨win, [], live, rfl, by simp, nofun⟩

theorem Frozen.shields_of_additions (h : m.Frozen s st) (mem : s ∈ spared)
    (additions : Relation.ReflTransGen (Addition spared) m m') : m.Shields m' s st := by
  induction additions with
  | refl => exact .refl h
  | tail _ last ih => exact .trans h ih fun st' frozen => last.shields frozen mem

/-- A comparison of two states whose valuations have been frozen goes through, and what is added
later leaves its verdict, the rule that decides, the matching and the replacement table as they
are. -/
theorem Comparable.compare_isolated {o e : StateId} {so se : State} (h : m.Comparable)
    (ho : m.graph.states.get? o = some so) (he : m.graph.states.get? e = some se)
    (frozen : so.knownGood.isSome = true) (frozen' : se.knownGood.isSome = true)
    (later : Relation.ReflTransGen (Addition [o, e]) m m') (strict : Bool) :
    ∃ c r, m.compare o e strict = .ok (c, m.remembering r) ∧
      m'.compare o e strict = .ok (c, m'.remembering r) := by
  have frozen : m.Frozen o so := ⟨ho, frozen, h.valued ho⟩
  have frozen' : m.Frozen e se := ⟨he, frozen', h.valued he⟩
  have succeeds : Succeeds (m.compare o e strict) :=
    h.compare_succeeds (Arena.contains_of_get? ho) (Arena.contains_of_get? he)
  obtain ⟨⟨c, m₁⟩, ok⟩ := succeeds
  obtain ⟨r, rfl⟩ := compare_eq_ok ok
  refine ⟨c, r, ok, compare_persists frozen frozen' ?_ ?_ ok⟩
  · exact frozen.shields_of_additions (by simp) later
  · exact frozen'.shields_of_additions (by simp) later

def frozenRows : Model where
  catalog := {
    windows := (Arena.add ∅
      { className := "Main", identifier := "main", kind := .activity, version := .base }).2
    widgets := ((Arena.add ∅
      { window := ⟨0⟩, resourceId := "row", version := .base, runtimeCreated := true }).2.add
      { window := ⟨0⟩, resourceId := "row_", version := .running, runtimeCreated := true }).2 }
  avms := {
    AvmStore.addAll { signature := Attributes.spelling }
      [(⟨0⟩, { resourceId := "row", path := "/list/a" }),
        (⟨1⟩, { resourceId := "row_", path := "/list/a" })] with
    bindings := .ofList [(⟨0⟩, ⟨0⟩), (⟨1⟩, ⟨1⟩)] }
  graph := { states := ((Arena.add ∅ (State.freeze
      { window := ⟨0⟩, version := .base, avms := .ofList [⟨0⟩] })).2.add (State.freeze
      { window := ⟨0⟩, version := .running, avms := .ofList [⟨1⟩] })).2 }

theorem comparable_frozenRows : frozenRows.Comparable where
  window {_ st} live := by
    have window : st.window = ⟨0⟩ := by
      rcases Arena.of_get?_add live with live | ⟨-, rfl⟩
      · rcases Arena.of_get?_add live with live | ⟨-, rfl⟩
        · cases live
        · rfl
      · rfl
    rw [window]
    rfl
  valued live := by
    rcases Arena.of_get?_add live with live | ⟨-, rfl⟩
    · rcases Arena.of_get?_add live with live | ⟨-, rfl⟩
      · cases live
      · simp only [State.comparableAvms, State.freeze, Option.getD_some, OrderedSet.mem_ofList,
          List.mem_singleton, forall_eq]
        rfl
    · simp only [State.comparableAvms, State.freeze, Option.getD_some, OrderedSet.mem_ofList,
        List.mem_singleton, forall_eq]
      rfl
  bound held := by
    rcases OrderedMap.of_get?_insert held with held | rfl
    · rcases OrderedMap.of_get?_insert held with none | rfl
      · cases none
      · rfl
    · rfl
  widget live x mem := by
    rcases Arena.of_get?_add live with live | ⟨-, rfl⟩
    · cases live
    · cases mem

theorem compare_isolated_frozenRows : ∃ m' c r,
    Relation.ReflTransGen (Addition [⟨1⟩, ⟨0⟩]) frozenRows m' ∧
    (m'.graph.states.get? ⟨1⟩).map (fun st => st.avms.toList) = some [⟨1⟩, ⟨2⟩] ∧
    (m'.graph.states.get? ⟨0⟩).map (fun st => st.avms.toList) = some [⟨0⟩, ⟨3⟩] ∧
    m'.compare ⟨1⟩ ⟨0⟩ true = .ok (c, m'.remembering r) ∧
    c.verdict = .equivalent ∧ r.get? ⟨0⟩ = some ⟨1⟩ := by
  have late := Relation.ReflTransGen.single
    (@Addition.addAvm [⟨1⟩, ⟨0⟩] frozenRows ⟨1⟩ { resourceId := "late" } none _ _ rfl)
  have later := late.tail (@Addition.addAvm _ _ ⟨0⟩ { resourceId := "later" } none _ _ rfl)
  have opened := later.tail (.openWindow "Help" "help" .activity .running)
  have added := opened.tail
    (@Addition.graph _ _ .stops (.addState { window := ⟨1⟩, version := .running }) _ rfl)
  obtain ⟨c, r, ok, again⟩ := comparable_frozenRows.compare_isolated rfl rfl rfl rfl added true
  have evaluated : (frozenRows.compare ⟨1⟩ ⟨0⟩ true).toOption.map
      (fun q => (q.1.verdict, q.2.catalog.replacements.get? ⟨0⟩)) =
        some (.equivalent, some ⟨1⟩) := by decide +kernel
  rw [ok] at evaluated
  obtain ⟨accepted, replaced⟩ := Prod.mk.inj (Option.some.inj evaluated)
  exact ⟨_, c, r, added, rfl, rfl, again, accepted, replaced⟩

end Model

end ScreenGraph
