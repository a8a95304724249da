import ScreenGraph.Proofs.Comparing

namespace ScreenGraph

namespace Checked

def Persists {α : Type} (x y : Checked α) : Prop := ∀ a, x = .ok a → y = .ok a

namespace Persists

variable {α β : Type} {xs : List α}

theorem refl (x : Checked α) : Persists x x := fun _ => id

theorem trans {x y z : Checked α} (h : Persists x y) (h' : Persists y z) : Persists x z :=
  fun a ok => h' a (h a ok)

theorem bind {x y : Checked α} {f g : α → Checked β} (h : Persists x y)
    (after : ∀ a, x = .ok a → Persists (f a) (g a)) : Persists (x >>= f) (y >>= g) := by
  intro b ok
  obtain ⟨a, first, last⟩ := Checked.bind_eq_ok.1 ok
  exact Checked.bind_eq_ok.2 ⟨a, h a first, after a first b last⟩

theorem map {x y : Checked α} (h : Persists x y) (f : α → β) :
    Persists (x >>= fun a => pure (f a)) (y >>= fun a => pure (f a)) :=
  h.bind fun _ _ => .refl _

theorem flatMap {f g : α → Checked (List β)} (h : ∀ a ∈ xs, Persists (f a) (g a)) :
    Persists (flatMapChecked f xs) (flatMapChecked g xs) := by
  induction xs with
  | nil => exact .refl _
  | cons a r ih =>
    refine (h a (by simp)).bind fun bs _ => ?_
    exact (ih fun b mem => h b (by simp [mem])).map fun rest => bs ++ rest

theorem filterMap {f g : α → Checked (Option β)} (h : ∀ a ∈ xs, Persists (f a) (g a)) :
    Persists (filterMapChecked f xs) (filterMapChecked g xs) :=
  flatMap fun a mem => (h a mem).map Option.toList

theorem filter {test test' : α → Checked Bool} (h : ∀ a ∈ xs, Persists (test a) (test' a)) :
    Persists (filterChecked test xs) (filterChecked test' xs) :=
  filterMap fun a mem => (h a mem).map fun passed => if passed then some a else none

theorem any {test test' : α → Checked Bool} (h : ∀ a ∈ xs, Persists (test a) (test' a)) :
    Persists (anyChecked test xs) (anyChecked test' xs) := by
  induction xs with
  | nil => exact .refl _
  | cons a r ih =>
    refine (h a (by simp)).bind fun passed _ => ?_
    cases passed with
    | true => exact .refl _
    | false => exact ih fun b mem => h b (by simp [mem])

theorem get {e : Entity} {a b : Arena e α} {h : Handle e}
    (same : ∀ v, a.get? h = some v → b.get? h = some v) : Persists (a.get h) (b.get h) :=
  fun v ok => Arena.get_eq_ok_iff.2 (same v (Arena.get_eq_ok_iff.1 ok))

end Persists

end Checked

open Checked

def State.compared (s : State) : State where
  window := s.window
  version := s.version
  rotation := s.rotation
  menuOpen := s.menuOpen
  keyboardOpen := s.keyboardOpen
  knownGood := s.knownGood

theorem State.comparableAvms_eq {s t : State} (same : t.compared = s.compared)
    (frozen : s.knownGood.isSome = true) : t.comparableAvms = s.comparableAvms := by
  have good : t.knownGood = s.knownGood := (congrArg State.knownGood same :)
  obtain ⟨avms, frozen⟩ := Option.isSome_iff_exists.1 frozen
  rw [comparableAvms, comparableAvms, good, frozen]
  rfl

theorem Matching.phase_persists {x : Matching} {test test' : AvmId → AvmId → Checked Bool}
    (h : ∀ o e, o ∈ x.restObserved → e ∈ x.restExpected → Persists (test o e) (test' o e)) :
    Persists (x.phase test) (x.phase test') := by
  refine Persists.map (.filter fun p mem => ?_) x.registerAll
  obtain ⟨mo, me⟩ := mem_restPairs.1 mem
  exact h p.1 p.2 mo me

theorem Catalog.replaceAll_replacements {c c' : Catalog} (same : c'.replacements = c.replacements)
    (pairs : List FuzzyPair) :
    c'.replaceAll pairs = { c' with replacements := (c.replaceAll pairs).replacements } := by
  induction pairs generalizing c c' with
  | nil =>
    rw [replaceAll, replaceAll, List.foldl_nil, List.foldl_nil, ← same]
  | cons p rest ih =>
    refine ih (c := c.replace p.expectedWidget p.observedWidget) ?_
    simp only [replace, same]

namespace Model

def remembering (m : Model) (r : OrderedMap WidgetId WidgetId) : Model :=
  { m with catalog := { m.catalog with replacements := r } }

/-- What comparisons read of a model where a state takes part is in another model as it was. -/
structure Sustains (m m' : Model) (st : State) : Prop where
  policy : m'.policy = m.policy
  replacements : m'.catalog.replacements = m.catalog.replacements
  avm : ∀ {a v}, m.avms.avms.get? a = some v → m'.avms.avms.get? a = some v
  widget : ∀ {w v}, m.catalog.widgets.get? w = some v → m'.catalog.widgets.get? w = some v
  window : ∀ {w win}, m.catalog.windows.get? w = some win →
    ∃ win', m'.catalog.windows.get? w = some win' ∧ win'.kind = win.kind
  binding : ∀ {a}, a ∈ st.comparableAvms → m'.avms.widgetOf a = m.avms.widgetOf a
  runtime : Persists (m.catalog.runtimeWidgets st.window st.version)
    (m'.catalog.runtimeWidgets st.window st.version)

namespace Sustains

variable {m m' m'' : Model} {st st' so se : State}

theorem refl (m : Model) (st : State) : m.Sustains m st :=
  ⟨rfl, rfl, id, id, fun live => ⟨_, live, rfl⟩, fun _ => rfl, .refl _⟩

theorem trans (h : m.Sustains m' st) (h' : m'.Sustains m'' st') (same : st'.compared = st.compared)
    (frozen : st.knownGood.isSome = true) : m.Sustains m'' st where
  policy := h'.policy.trans h.policy
  replacements := h'.replacements.trans h.replacements
  avm live := h'.avm (h.avm live)
  widget live := h'.widget (h.widget live)
  window live := by
    obtain ⟨win', live', kind⟩ := h.window live
    obtain ⟨win'', live'', kind'⟩ := h'.window live'
    exact ⟨win'', live'', kind'.trans kind⟩
  binding mem := by
    rw [← State.comparableAvms_eq same frozen] at mem
    exact (h'.binding mem).trans (h.binding (State.comparableAvms_eq same frozen ▸ mem))
  runtime := by
    have window : st'.window = st.window := (congrArg State.window same :)
    have version : st'.version = st.version := (congrArg State.version same :)
    exact h.runtime.trans (window ▸ version ▸ h'.runtime)

theorem remembering (h : m.Sustains m' st) (r : OrderedMap WidgetId WidgetId) :
    (m.remembering r).Sustains (m'.remembering r) st :=
  { h with replacements := rfl }

theorem remembering_self (h : m.Sustains m' st) : m'.remembering m.catalog.replacements = m' := by
  rw [← h.replacements]
  rfl

theorem getAvm (h : m.Sustains m' st) (a : AvmId) :
    Persists (m.avms.get a) (m'.avms.get a) :=
  Persists.get fun _ => h.avm

theorem attributes (h : m.Sustains m' st) (a : AvmId) :
    Persists (m.avms.attributes a) (m'.avms.attributes a) :=
  (h.getAvm a).map Avm.attributes

theorem catalogWidget (h : m.Sustains m' st) (w : WidgetId) :
    Persists (m.catalog.widget w) (m'.catalog.widget w) :=
  Persists.get fun _ => h.widget

theorem sameIdentity (h : m.Sustains m' st) (a b : WidgetId) :
    m'.catalog.sameIdentity a b = m.catalog.sameIdentity a b := by
  unfold Catalog.sameIdentity Catalog.replacementOf
  rw [h.replacements]

theorem compatible (h : m.Sustains m' st) (a b : WindowId) :
    Persists (m.catalog.compatible a b) (m'.catalog.compatible a b) := by
  unfold Catalog.compatible
  split
  · exact .refl _
  intro same ok
  obtain ⟨wa, ha, ok⟩ := Arena.get_bind_eq_ok.1 ok
  obtain ⟨wb, hb, ok⟩ := Arena.get_bind_eq_ok.1 ok
  obtain ⟨wa', ha', kind⟩ := h.window ha
  obtain ⟨wb', hb', kind'⟩ := h.window hb
  refine Arena.get_bind_eq_ok.2 ⟨wa', ha', Arena.get_bind_eq_ok.2 ⟨wb', hb', ?_⟩⟩
  rwa [Window.owner?, Window.owner?, kind, kind']

theorem areReplaced (ho : m.Sustains m' so) (he : m.Sustains m' se) {o e : AvmId}
    (mo : o ∈ so.comparableAvms) (me : e ∈ se.comparableAvms) :
    Persists (m.avms.areReplaced m.catalog o e) (m'.avms.areReplaced m'.catalog o e) := by
  unfold AvmStore.areReplaced
  rw [ho.binding mo, he.binding me]
  split
  · refine (ho.attributes o).bind fun a _ => (ho.attributes e).bind fun b _ => ?_
    rw [ho.sameIdentity]
    exact .refl _
  · exact .refl _

theorem scores (h : m.Sustains m' st) (o e : AvmId) :
    Persists (m.avms.scores o e) (m'.avms.scores o e) :=
  (h.attributes o).bind fun _ _ => (h.attributes e).map _

theorem unscored (ho : m.Sustains m' so) (he : m.Sustains m' se) :
    Persists (Matching.unscored m.avms m.catalog so.comparableAvms se.comparableAvms)
      (Matching.unscored m'.avms m'.catalog so.comparableAvms se.comparableAvms) := by
  have sorted := Matching.Partitions.start so.comparableAvms se.comparableAvms
  refine (Matching.phase_persists fun o e _ _ => ?equal).bind fun m₁ equal => ?_
  case equal => exact (ho.getAvm o).bind fun a _ => (he.getAvm e).map _
  have sorted := sorted.phase equal
  refine (Matching.phase_persists fun o e _ _ => ?derived).bind fun m₂ derived => ?_
  case derived => exact (ho.attributes o).bind fun a _ => (ho.attributes e).map _
  have within := (sorted.phase derived).within
  exact Matching.phase_persists fun o e mo me =>
    ho.areReplaced he (within.restObserved o mo) (within.restExpected e me)

theorem fuzzyPairs (ho : m.Sustains m' so) (he : m.Sustains m' se) {x : Matching}
    (within : x.Within so.comparableAvms se.comparableAvms) :
    Persists (fuzzyPairs m.avms m.catalog m.policy x)
      (fuzzyPairs m'.avms m'.catalog m'.policy x) := by
  refine Persists.map (.flatMap fun o mo => ?_) _
  unfold fuzzyPairsOf
  rw [ho.binding (within.restObserved o mo)]
  split
  · exact .refl _
  refine (ho.catalogWidget _).bind fun wo _ => ?_
  split
  · exact .refl _
  refine .filterMap fun e me => ?_
  unfold fuzzyPair?
  rw [he.binding (within.restExpected e me)]
  split
  · exact .refl _
  split
  · exact .refl _
  refine (ho.catalogWidget _).bind fun we _ => ?_
  split
  · exact .refl _
  refine (ho.scores o e).bind fun ⟨rid, path⟩ _ => ?_
  rw [ho.policy]
  exact .refl _

theorem run (ho : m.Sustains m' so) (he : m.Sustains m' se) {x : Matching} {k : Catalog}
    (ok : Matching.run m.avms m.catalog m.policy so.comparableAvms se.comparableAvms =
      .ok (x, k)) :
    Matching.run m'.avms m'.catalog m'.policy so.comparableAvms se.comparableAvms =
      .ok (x, { m'.catalog with replacements := k.replacements }) := by
  obtain ⟨m₃, pairs, certain, fuzzy, rfl, rfl⟩ := Matching.run_eq_ok_iff.1 ok
  have within := (Matching.unscored_partitions certain).within
  refine Matching.run_eq_ok_iff.2 ⟨m₃, pairs, ho.unscored he _ certain,
    ho.fuzzyPairs he within _ fuzzy, rfl, ?_⟩
  exact (Catalog.replaceAll_replacements ho.replacements pairs).symm

end Sustains

end Model

namespace Trial

def between (t : Trial) (o e : State) : Trial := { t with observed := o, expected := e }

structure Repeats (m m' : Model) (t : Trial) (o e : State) : Prop where
  known : t.Known m
  sustained : m.Sustains m' t.observed ∧ m.Sustains m' t.expected
  observed : o.compared = t.observed.compared
  expected : e.compared = t.expected.compared
  frozen : t.observed.knownGood.isSome = true ∧ t.expected.knownGood.isSome = true

namespace Repeats

variable {m m' m₁ : Model} {t t₁ : Trial} {o e : State}

theorem prepared (h : Repeats m m' t o e) {r : Rule} (ok : r.prepare m t = .ok (m₁, t₁)) :
    Repeats m₁ (m'.remembering m₁.catalog.replacements) t₁ o e := by
  obtain ⟨known, observed, expected⟩ := h.known.prepare ok
  have sustained : ∀ st, m.Sustains m' st →
      m₁.Sustains (m'.remembering m₁.catalog.replacements) st := by
    obtain ⟨rs, rfl⟩ := Rule.prepare_eq_ok ok
    exact fun st h => h.remembering rs
  refine ⟨known, ?_, ?_, ?_, ?_⟩
  · rw [observed, expected]
    exact ⟨sustained _ h.sustained.1, sustained _ h.sustained.2⟩
  · rw [observed]
    exact h.observed
  · rw [expected]
    exact h.expected
  · rw [observed, expected]
    exact h.frozen

theorem prepare (h : Repeats m m' t o e) {r : Rule} (ok : r.prepare m t = .ok (m₁, t₁)) :
    r.prepare m' (t.between o e) =
      .ok (m'.remembering m₁.catalog.replacements, t₁.between o e) := by
  obtain ⟨ho, he⟩ := h.sustained
  cases r with
  | avmMatch =>
    obtain ⟨⟨x, k⟩, run, done⟩ := Checked.bind_eq_ok.1 ok
    cases done
    have again := ho.run he run
    rw [← State.comparableAvms_eq h.observed h.frozen.1,
      ← State.comparableAvms_eq h.expected h.frozen.2] at again
    exact Checked.bind_eq_ok.2 ⟨_, again, rfl⟩
  | blankResourceId =>
    have named : ∀ rest : OrderedSet AvmId, Persists
        (rest.filterChecked fun a => return !(← m.avms.attributes a).hasBlankResourceId)
        (rest.filterChecked fun a => return !(← m'.avms.attributes a).hasBlankResourceId) :=
      fun rest => Persists.map (.filter fun a _ => (ho.attributes a).map _) _
    obtain ⟨ro, hro, ok⟩ := Checked.bind_eq_ok.1 ok
    obtain ⟨re, hre, done⟩ := Checked.bind_eq_ok.1 ok
    cases done
    rw [ho.remembering_self]
    exact Checked.bind_eq_ok.2 ⟨ro, named _ _ hro, Checked.bind_eq_ok.2 ⟨re, named _ _ hre, rfl⟩⟩
  | _ =>
    cases ok
    rw [ho.remembering_self]
    rfl

theorem identities_eq {rest avms : OrderedSet AvmId} (within : ∀ a, a ∈ rest → a ∈ avms)
    (binding : ∀ {a}, a ∈ avms → m'.avms.widgetOf a = m.avms.widgetOf a) :
    identities m' rest = identities m rest :=
  List.map_congr_left fun a mem => binding (within a mem)

theorem widgets?_eq {rest avms : OrderedSet AvmId} (within : ∀ a, a ∈ rest → a ∈ avms)
    (binding : ∀ {a}, a ∈ avms → m'.avms.widgetOf a = m.avms.widgetOf a) :
    widgets? m' rest = widgets? m rest := by
  have same : (identities m' rest).mapM id = (identities m rest).mapM id := by
    rw [identities_eq within binding]
  rwa [identities, identities, List.mapM_map, List.mapM_map] at same

theorem isExplained_persists (h : m.Sustains m' o) (others : OrderedSet WidgetId) (w : WidgetId) :
    Persists (isExplained m.catalog others w) (isExplained m'.catalog others w) := by
  refine (h.catalogWidget w).bind fun x _ => ?_
  simp only [h.sameIdentity]
  exact .refl _

theorem unknownRuntimeWidgets (h : Repeats m m' t o e) :
    Persists (t.unknownRuntimeWidgets m) ((t.between o e).unknownRuntimeWidgets m') := by
  obtain ⟨ho, he⟩ := h.sustained
  have window : o.window = t.observed.window := (congrArg State.window h.observed :)
  have version : o.version = t.observed.version := (congrArg State.version h.observed :)
  have window' : e.window = t.expected.window := (congrArg State.window h.expected :)
  have version' : e.version = t.expected.version := (congrArg State.version h.expected :)
  unfold Trial.unknownRuntimeWidgets
  simp only [between, widgets?_eq h.known.restObserved ho.binding,
    widgets?_eq h.known.restExpected he.binding, window, version, window', version']
  split
  · refine he.runtime.bind fun ofExpected _ => ho.runtime.bind fun ofObserved _ => ?_
    refine (Persists.any fun w _ => isExplained_persists ho ofExpected w).bind fun explained _ => ?_
    split
    · exact .refl _
    refine (Persists.any fun w _ => isExplained_persists ho ofObserved w).bind fun explained _ => ?_
    exact .refl _
  · exact .refl _

theorem judge (h : Repeats m m' t o e) (r : Rule) :
    Persists (r.judge m t) (r.judge m' (t.between o e)) := by
  obtain ⟨ho, he⟩ := h.sustained
  cases r with
  | window =>
    have window : o.window = t.observed.window := (congrArg State.window h.observed :)
    have window' : e.window = t.expected.window := (congrArg State.window h.expected :)
    simp only [Rule.judge, between, window, window']
    exact (ho.compatible _ _).map _
  | rotation =>
    have rotation : o.rotation = t.observed.rotation := (congrArg State.rotation h.observed :)
    have rotation' : e.rotation = t.expected.rotation := (congrArg State.rotation h.expected :)
    simp only [Rule.judge, between, rotation, rotation']
    exact .refl _
  | menu =>
    have menu : o.menuOpen = t.observed.menuOpen := (congrArg State.menuOpen h.observed :)
    have menu' : e.menuOpen = t.expected.menuOpen := (congrArg State.menuOpen h.expected :)
    simp only [Rule.judge, between, menu, menu']
    exact .refl _
  | keyboard =>
    have keyboard : o.keyboardOpen = t.observed.keyboardOpen :=
      (congrArg State.keyboardOpen h.observed :)
    have keyboard' : e.keyboardOpen = t.expected.keyboardOpen :=
      (congrArg State.keyboardOpen h.expected :)
    simp only [Rule.judge, between, keyboard, keyboard']
    exact .refl _
  | avmMatch => exact .refl _
  | blankResourceId => exact .refl _
  | disjointWidgets =>
    simp only [Rule.judge, disjointWidgets, between, ho.policy,
      identities_eq h.known.restObserved ho.binding, identities_eq h.known.restExpected he.binding]
    exact .refl _
  | runtimeWidgets => exact h.unknownRuntimeWidgets.map _

theorem settle (h : Repeats m m' t o e) {rules : List Rule} {c : Comparison}
    (ok : settle rules m t = .ok (c, m₁)) : Trial.settle rules m' (t.between o e) =
      .ok (c, m'.remembering m₁.catalog.replacements) := by
  induction rules generalizing m m' t with
  | nil =>
    cases ok
    rw [h.sustained.1.remembering_self]
    rfl
  | cons r rules ih =>
    obtain ⟨⟨m₂, t₂⟩, prepared, ok⟩ := Checked.bind_eq_ok.1 ok
    obtain ⟨v, judged, ok⟩ := Checked.bind_eq_ok.1 ok
    have again := h.prepared prepared
    refine Checked.bind_eq_ok.2 ⟨_, h.prepare prepared, ?_⟩
    refine Checked.bind_eq_ok.2 ⟨v, again.judge r v judged, ?_⟩
    cases v with
    | inconclusive => exact ih again ok
    | _ =>
      cases ok
      rfl

end Repeats

end Trial

namespace Model

structure Frozen (m : Model) (s : StateId) (st : State) : Prop where
  live : m.graph.states.get? s = some st
  good : st.knownGood.isSome = true
  valued : ∀ a, a ∈ st.comparableAvms → m.avms.avms.contains a = true

structure Shields (m m' : Model) (s : StateId) (st : State) : Prop extends m.Sustains m' st where
  state : ∃ st', m'.graph.states.get? s = some st' ∧ st'.compared = st.compared

variable {m m' m₁ : Model} {s o e : StateId} {st so se : State}

theorem Frozen.shielded (h : m.Frozen s st) (shields : m.Shields m' s st) :
    ∃ st', m'.Frozen s st' ∧ st'.compared = st.compared := by
  obtain ⟨st', live, same⟩ := shields.state
  have good : st'.knownGood = st.knownGood := (congrArg State.knownGood same :)
  refine ⟨st', ⟨live, good ▸ h.good, fun a mem => ?_⟩, same⟩
  rw [State.comparableAvms_eq same h.good] at mem
  obtain ⟨v, hv⟩ := Arena.contains_iff.1 (h.valued a mem)
  exact Arena.contains_of_get? (shields.avm hv)

theorem compare_persists (ho : m.Frozen o so) (he : m.Frozen e se) (shields : m.Shields m' o so)
    (shields' : m.Shields m' e se) {strict : Bool} {c : Comparison}
    (ok : m.compare o e strict = .ok (c, m₁)) :
    m'.compare o e strict = .ok (c, m'.remembering m₁.catalog.replacements) := by
  obtain ⟨_, live, ok⟩ := Arena.get_bind_eq_ok.1 ok
  cases ho.live.symm.trans live
  obtain ⟨_, live, ok⟩ := Arena.get_bind_eq_ok.1 ok
  cases he.live.symm.trans live
  obtain ⟨so', live, observed⟩ := shields.state
  obtain ⟨se', live', expected⟩ := shields'.state
  have repeats : Trial.Repeats m m' { observed := so, expected := se, strict } so' se' :=
    ⟨⟨⟨o, ho.live⟩, ⟨e, he.live⟩, nofun, nofun, nofun⟩,
      ⟨shields.toSustains, shields'.toSustains⟩, observed, expected, ⟨ho.good, he.good⟩⟩
  refine Arena.get_bind_eq_ok.2 ⟨so', live, Arena.get_bind_eq_ok.2 ⟨se', live', ?_⟩⟩
  exact repeats.settle ok

end Model

end ScreenGraph
