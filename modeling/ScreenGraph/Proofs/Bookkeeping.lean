import ScreenGraph.Proofs.Checking

namespace ScreenGraph

structure State.Persists (st st' : State) : Prop where
  window : st'.window = st.window
  version : st'.version = st.version
  kind : st'.kind = st.kind
  rotation : st'.rotation = st.rotation
  menuOpen : st'.menuOpen = st.menuOpen
  keyboardOpen : st'.keyboardOpen = st.keyboardOpen
  isHome : st'.isHome = st.isHome
  snapshots : ∀ g, g ∈ st.snapshots → g ∈ st'.snapshots

namespace State

variable {st st' st'' so so' : State}

theorem Persists.refl (st : State) : st.Persists st :=
  ⟨rfl, rfl, rfl, rfl, rfl, rfl, rfl, fun _ => id⟩

theorem Persists.trans (h : st.Persists st') (h' : st'.Persists st'') : st.Persists st'' where
  window := h'.window.trans h.window
  version := h'.version.trans h.version
  kind := h'.kind.trans h.kind
  rotation := h'.rotation.trans h.rotation
  menuOpen := h'.menuOpen.trans h.menuOpen
  keyboardOpen := h'.keyboardOpen.trans h.keyboardOpen
  isHome := h'.isHome.trans h.isHome
  snapshots g hg := h'.snapshots g (h.snapshots g hg)

theorem Persists.bare (same : st'.bare = st.bare) : st.Persists st' where
  window := window_eq same
  version := (congrArg State.version same :)
  kind := (congrArg State.kind same :)
  rotation := (congrArg State.rotation same :)
  menuOpen := (congrArg State.menuOpen same :)
  keyboardOpen := (congrArg State.keyboardOpen same :)
  isHome := (congrArg State.isHome same :)
  snapshots g hg := by
    have snapshots : st'.snapshots = st.snapshots := (congrArg State.snapshots same :)
    exact snapshots ▸ hg

theorem isLive_of_mem {g : SnapshotId} (mem : g ∈ st.snapshots) : st.isLive = true := by
  unfold isLive
  rw [Bool.not_eq_true', ← Bool.not_eq_true]
  exact fun empty => OrderedSet.isEmpty_iff.1 empty g mem

theorem Persists.isLive (h : st.Persists st') (live : st.isLive = true) : st'.isLive = true := by
  obtain ⟨g, hg⟩ := OrderedSet.exists_mem (by simpa [State.isLive] using live)
  exact isLive_of_mem (h.snapshots g hg)

theorem Persists.isVirtual (h : st.Persists st') : st'.isVirtual = st.isVirtual := by
  unfold State.isVirtual
  rw [h.kind]

theorem Persists.sameFlags (h : st.Persists st') (h' : so.Persists so') :
    so'.sameFlags st' = so.sameFlags st := by
  unfold State.sameFlags
  rw [h.rotation, h.menuOpen, h.keyboardOpen, h'.rotation, h'.menuOpen, h'.keyboardOpen]

end State

structure Model.Grows (m m' : Model) : Prop where
  state : ∀ {s st}, m.graph.states.get? s = some st →
    ∃ st', m'.graph.states.get? s = some st' ∧ st.Persists st'
  window : ∀ {w win}, m.catalog.windows.get? w = some win →
    ∃ win', m'.catalog.windows.get? w = some win' ∧ win'.kind = win.kind

namespace Model

variable {m m' m'' : Model}

theorem Grows.trans (h : m.Grows m') (h' : m'.Grows m'') : m.Grows m'' where
  state live := by
    obtain ⟨st', live', persists⟩ := h.state live
    obtain ⟨st'', live'', persists'⟩ := h'.state live'
    exact ⟨st'', live'', persists.trans persists'⟩
  window live := by
    obtain ⟨win', live', kind⟩ := h.window live
    obtain ⟨win'', live'', kind'⟩ := h'.window live'
    exact ⟨win'', live'', kind'.trans kind⟩

theorem Grows.contains (h : m.Grows m') {s : StateId} (live : m.graph.states.contains s = true) :
    m'.graph.states.contains s = true := by
  obtain ⟨st, hst⟩ := Arena.contains_iff.1 live
  obtain ⟨st', hst', -⟩ := h.state hst
  exact Arena.contains_of_get? hst'

theorem Keeps.grows (k : m.Keeps m') : m.Grows m' where
  state live := by
    obtain ⟨st', live', same⟩ := k.state live
    exact ⟨st', live', .bare same⟩
  window live := ⟨_, k.windows ▸ live, rfl⟩

theorem Grows.compatible (h : m.Grows m') {a b : WindowId}
    (ok : m.catalog.compatible a b = .ok true) : m'.catalog.compatible a b = .ok true := by
  unfold Catalog.compatible at ok ⊢
  split
  · rfl
  next distinct =>
  rw [if_neg distinct] at ok
  obtain ⟨wa, ha, ok⟩ := Arena.get_bind_eq_ok.1 ok
  obtain ⟨wb, hb, ok⟩ := Arena.get_bind_eq_ok.1 ok
  obtain ⟨wa', ha', kind⟩ := h.window ha
  obtain ⟨wb', hb', kind'⟩ := h.window hb
  refine Checked.bind_eq_ok.2 ⟨wa', Arena.get_eq_ok_iff.2 ha', ?_⟩
  refine Checked.bind_eq_ok.2 ⟨wb', Arena.get_eq_ok_iff.2 hb', ?_⟩
  have owner : wa'.owner? = wa.owner? ∧ wb'.owner? = wb.owner? := by
    unfold Window.owner?
    rw [kind, kind']
    exact ⟨rfl, rfl⟩
  rw [owner.1, owner.2]
  exact ok

theorem attachSnapshot_eq {s : StateId} {g : SnapshotId} (snapshot : m.snapshots.contains g = true)
    (state : m.graph.states.contains s = true) :
    (m.attachSnapshot s g).2 = { m with
      graph := { m.graph with states := m.graph.states.modify s (State.attach g) } } := by
  simp [attachSnapshot, snapshot, state]

theorem attachSnapshot_grows (m : Model) (s : StateId) (g : SnapshotId) :
    m.Grows (m.attachSnapshot s g).2 := by
  have same : m.Grows m := (Keeps.refl m).grows
  unfold attachSnapshot
  split
  · exact same
  split
  · exact same
  refine ⟨fun {k st} live => ?_, same.window⟩
  dsimp only
  rcases Arena.get?_modify_of_get? s (State.attach g) live with kept | attached
  · exact ⟨st, kept, .refl st⟩
  · refine ⟨State.attach g st, attached, rfl, rfl, rfl, rfl, rfl, rfl, rfl, fun x hx => ?_⟩
    exact OrderedSet.mem_insert.2 (.inl hx)

end Model

structure Model.Pair (m : Model) (o b : StateId) (so sb : State) : Prop where
  observed : m.graph.states.get? o = some so
  base : m.graph.states.get? b = some sb
  running : so.version = .running
  foreign : so.isHome = false
  live : so.isLive = true
  old : sb.version = .base
  concrete : sb.isVirtual = false
  compatible : m.catalog.compatible so.window sb.window = .ok true
  flags : so.sameFlags sb = true

theorem Model.Pair.grows {m m' : Model} {o b : StateId} {so sb : State} (h : m.Pair o b so sb)
    (grows : m.Grows m') : ∃ so' sb', m'.Pair o b so' sb' := by
  obtain ⟨so', observed, po⟩ := grows.state h.observed
  obtain ⟨sb', base, pb⟩ := grows.state h.base
  refine ⟨so', sb', observed, base, ?_, ?_, po.isLive h.live, ?_, ?_, ?_, ?_⟩
  · exact po.version.trans h.running
  · exact po.isHome.trans h.foreign
  · exact pb.version.trans h.old
  · exact pb.isVirtual.trans h.concrete
  · rw [po.window, pb.window]
    exact grows.compatible h.compatible
  · exact (pb.sameFlags po).trans h.flags

def Ledger.assertions (l : Ledger) : Ledger :=
  { l.book with newSnapshots := ∅, incorrect := ∅ }

/-- A ledger that is justified by the model. -/
structure Ledger.Justified (l : Ledger) (m : Model) : Prop where
  mirror : ∀ {o b}, b ∈ l.equivalentsOf o ↔ o ∈ l.imagesOf b
  equivalents : l.equivalents.Filled
  images : l.images.Filled
  snapshots : l.snapshotBases.Filled
  reproduced : l.reproduced.Filled
  pair : ∀ {o b}, b ∈ l.equivalentsOf o → ∃ so sb, m.Pair o b so sb
  snapshot : ∀ {g b}, b ∈ l.basesOf g → ∃ o st, m.graph.states.get? o = some st ∧
    g ∈ st.snapshots ∧ b ∈ l.equivalentsOf o
  base : ∀ {b}, b ∈ l.observedBase → ∃ st, m.graph.states.get? b = some st ∧ st.version = .base
  new : ∀ {o}, o ∈ l.newStates → ∃ st, m.graph.states.get? o = some st ∧
    st.version = .running ∧ st.isHome = false

namespace Ledger

variable {l l' : Ledger} {m m' : Model}

namespace Justified

theorem empty (m : Model) : Justified {} m where
  mirror := by simp [equivalentsOf, imagesOf]
  equivalents := nofun
  images := nofun
  snapshots := nofun
  reproduced := nofun
  pair := nofun
  snapshot := nofun
  base := nofun
  new := nofun

theorem grows (h : l.Justified m) (grows : m.Grows m') : l.Justified m' where
  mirror := h.mirror
  equivalents := h.equivalents
  images := h.images
  snapshots := h.snapshots
  reproduced := h.reproduced
  pair hb := by
    obtain ⟨so, sb, pair⟩ := h.pair hb
    exact pair.grows grows
  snapshot hb := by
    obtain ⟨o, st, live, holds, entered⟩ := h.snapshot hb
    obtain ⟨st', live', persists⟩ := grows.state live
    exact ⟨o, st', live', persists.snapshots _ holds, entered⟩
  base hb := by
    obtain ⟨st, live, version⟩ := h.base hb
    obtain ⟨st', live', persists⟩ := grows.state live
    exact ⟨st', live', persists.version.trans version⟩
  new ho := by
    obtain ⟨st, live, version, foreign⟩ := h.new ho
    obtain ⟨st', live', persists⟩ := grows.state live
    exact ⟨st', live', persists.version.trans version, persists.isHome.trans foreign⟩

theorem iff_assertions : l.assertions.Justified m ↔ l.Justified m := by
  constructor <;> intro h
  all_goals exact ⟨h.mirror, h.equivalents, h.images, h.snapshots, h.reproduced, h.pair, h.snapshot,
    h.base, h.new⟩

theorem assertions (h : l.Justified m) (same : l'.assertions = l.assertions) : l'.Justified m := by
  rw [← iff_assertions, same, iff_assertions]
  exact h

theorem book (h : l.Justified m) (same : l'.book = l.book) : l'.Justified m :=
  h.assertions (congrArg Ledger.assertions same :)

theorem markObservedBase (h : l.Justified m) {b : StateId} {st : State}
    (live : m.graph.states.get? b = some st) (version : st.version = .base) :
    (l.markObservedBase b).Justified m where
  mirror := h.mirror
  equivalents := h.equivalents
  images := h.images
  snapshots := h.snapshots
  reproduced := h.reproduced
  pair := h.pair
  snapshot := h.snapshot
  base mem := by
    rcases OrderedSet.mem_insert.1 mem with old | rfl
    · exact h.base old
    · exact ⟨st, live, version⟩
  new := h.new

theorem markNew (h : l.Justified m) {o : StateId} {st : State} (g : SnapshotId)
    (live : m.graph.states.get? o = some st) (version : st.version = .running)
    (foreign : st.isHome = false) : (l.markNew o g).Justified m where
  mirror := h.mirror
  equivalents := h.equivalents
  images := h.images
  snapshots := h.snapshots
  reproduced := h.reproduced
  pair := h.pair
  snapshot := h.snapshot
  base := h.base
  new mem := by
    rcases OrderedSet.mem_insert.1 mem with old | rfl
    · exact h.new old
    · exact ⟨st, live, version, foreign⟩

theorem reproduce (h : l.Justified m) (t : TransitionId) {keys : List EdgeKey}
    (some : keys ≠ []) : (l.reproduce t keys).Justified m where
  mirror := h.mirror
  equivalents := h.equivalents
  images := h.images
  snapshots := h.snapshots
  reproduced := h.reproduced.update t some
  pair := h.pair
  snapshot := h.snapshot
  base := h.base
  new := h.new

theorem markSnapshot (h : l.Justified m) {g : SnapshotId} {o b : StateId} {st : State}
    (live : m.graph.states.get? o = some st) (holds : g ∈ st.snapshots)
    (entered : b ∈ l.equivalentsOf o) : (l.markSnapshot g b).Justified m where
  mirror := h.mirror
  equivalents := h.equivalents
  images := h.images
  snapshots := h.snapshots.addTo g b
  reproduced := h.reproduced
  pair := h.pair
  snapshot mem := by
    rcases mem_basesOf_markSnapshot.1 mem with old | ⟨rfl, rfl⟩
    · exact h.snapshot old
    · exact ⟨o, st, live, holds, entered⟩
  base := h.base
  new := h.new

theorem recognise (h : l.Justified m) {o b : StateId} {so sb : State} (pair : m.Pair o b so sb) :
    (l.recognise o b).Justified m where
  mirror {o' b'} := by
    rw [mem_equivalentsOf_recognise, mem_imagesOf_recognise, h.mirror]
    refine or_congr_right ?_
    constructor
    · rintro ⟨rfl, rfl⟩
      exact ⟨rfl, rfl⟩
    · rintro ⟨rfl, rfl⟩
      exact ⟨rfl, rfl⟩
  equivalents := h.equivalents.addTo o b
  images := h.images.addTo b o
  snapshots := h.snapshots
  reproduced := h.reproduced
  pair mem := by
    rcases mem_equivalentsOf_recognise.1 mem with old | ⟨rfl, rfl⟩
    · exact h.pair old
    · exact ⟨so, sb, pair⟩
  snapshot mem := by
    obtain ⟨k, st, live, holds, entered⟩ := h.snapshot mem
    exact ⟨k, st, live, holds, mem_equivalentsOf_recognise.2 (.inl entered)⟩
  base := h.base
  new := h.new

end Justified

end Ledger

namespace Session

variable {s s' : Session} {g : Sighting} {o : Observation}

theorem sight_grows (ok : s.sight o = .ok (seen, s')) (live : o.Live s.model) :
    s.model.Grows s'.model ∧ ∃ st, s'.model.graph.states.get? o.state = some st ∧
      o.snapshot ∈ st.snapshots := by
  have attached := s.model.attachSnapshot_grows o.state o.snapshot
  obtain ⟨st, hst⟩ := Arena.contains_iff.1 live.state
  have noted : ∃ st, (s.model.attachSnapshot o.state o.snapshot).2.graph.states.get? o.state =
      some st ∧ o.snapshot ∈ st.snapshots := by
    rw [Model.attachSnapshot_eq live.snapshot live.state]
    refine ⟨State.attach o.snapshot st, ?_, OrderedSet.mem_insert.2 (.inr rfl)⟩
    simp [Arena.get?_modify, hst]
  obtain ⟨e, a, -, -, ⟨-, rfl⟩ | ⟨pruned, s₁, obsolete, superseded, -⟩⟩ := sight_eq_ok ok
  · exact ⟨attached, noted⟩
  · have keeps := ((pruneObsolete_keeps obsolete).trans (supersede_keeps superseded)).model
    obtain ⟨st, hst, holds⟩ := noted
    obtain ⟨st', hst', persists⟩ := keeps.grows.state hst
    exact ⟨attached.trans keeps.grows, st', hst', persists.snapshots _ holds⟩

theorem Passed.justified (passed : Passed g s s') (h : s.ledger.Justified s.model) :
    s'.ledger.Justified s'.model := by
  have grown := h.grows passed.aside.toKeeps.grows
  rcases passed.2 with same | same
  · exact grown.book (by rw [same])
  · exact grown.assertions (by rw [same]; rfl)

theorem Finds.pair (h : s.ledger.Justified s.model) (undecided : s.Undecided g) {b : StateId}
    {r : Rule} {x : Matching} {mid : Session} (found : s.Finds g b r x mid) {st : State}
    (live : s.model.graph.states.get? g.state = some st) (holds : g.snapshot ∈ st.snapshots) :
    ∃ sb, mid.model.Pair g.state b st sb := by
  have graph := found.passed.aside.graph
  cases found with
  | @intro before strict bases s₀ passed seeks searched =>
  have graph₀ := (seeks.passed passed).aside.graph
  obtain ⟨mem, -, s₁, c, before, last, accepted⟩ := search_some searched
  have graph₁ := before.aside.model.graph
  obtain ⟨-, so, sb, hso, hsb, compatible, flags⟩ := Model.compare_accepted last accepted
  rw [graph₁, graph₀] at hso hsb
  cases live.symm.trans hso
  obtain ⟨st', live', foreign, running⟩ := undecided.state
  cases live.symm.trans live'
  have base : sb.version = .base ∧ sb.isVirtual = false := by
    rcases seeks.base mem with ⟨st', base, old, concrete⟩ | cached
    · rw [graph₀] at base
      cases hsb.symm.trans base
      exact ⟨old, concrete⟩
    · -- a candidate from the cache makes a pair with some state that holds the snapshot
      have known : b ∈ s.ledger.basesOf g.snapshot := by
        rcases (seeks.passed passed).2 with same | same <;> rw [same] at cached <;> exact cached
      obtain ⟨k, -, -, -, entered⟩ := h.snapshot known
      obtain ⟨sk, sb', pair⟩ := h.pair entered
      cases hsb.symm.trans pair.base
      exact ⟨pair.old, pair.concrete⟩
  refine ⟨sb, ?_, ?_, running, foreign, State.isLive_of_mem holds, base.1, base.2, ?_, flags⟩
  · rw [graph]
    exact live
  · rw [graph]
    exact hsb
  · exact (Model.compare_aside last).toKeeps.grows.compatible compatible

theorem register_keeps {k b : StateId} {n : SnapshotId} {x : Matching}
    (ok : s.register k b n x = .ok s') : s.model.Keeps s'.model := by
  obtain ⟨-, rfl⟩ | ⟨-, plan, planned, entered, applied⟩ := register_cases ok
  · exact .refl _
  · exact (enter_aside entered).model.toKeeps.trans (applyAll_keeps applied).model

theorem Answers.keeps {c : Classification} (answers : s.Answers g c s') :
    s.model.Keeps s'.model := by
  cases answers with
  | homeScreen => exact .refl _
  | knownNew => exact .refl _
  | cached => exact .refl _
  | observedBase => exact .refl _
  | equivalent _ found registered =>
    exact found.passed.aside.toKeeps.trans (register_keeps registered)
  | reproduces _ found registered =>
    have keeps := register_keeps registered
    exact found.passed.aside.toKeeps.trans keeps
  | new _ passed => exact passed.aside.toKeeps

theorem register_justified (h : s.ledger.Justified s.model) {k b : StateId} {n : SnapshotId}
    {x : Matching} {so sb : State} (pair : s.model.Pair k b so sb) (holds : n ∈ so.snapshots)
    (ok : s.register k b n x = .ok s') : s'.ledger.Justified s'.model := by
  have grows := (register_keeps ok).grows
  obtain ⟨recognised, rfl⟩ | ⟨-, plan, planned, entered, applied⟩ := register_cases ok
  · exact h.markSnapshot pair.observed holds (of_decide_eq_true recognised)
  · have entry : b ∈ (s.ledger.recognise k b).equivalentsOf k :=
      Ledger.mem_equivalentsOf_recognise.2 (.inr ⟨rfl, rfl⟩)
    have marked := ((h.recognise pair).markSnapshot pair.observed holds entry).grows grows
    refine marked.book ?_
    exact (applyAll_keeps applied).book.trans (enter_aside entered).book

theorem Answers.justified (h : s.ledger.Justified s.model) {c : Classification}
    (answers : s.Answers g c s') {st : State} (live : s.model.graph.states.get? g.state = some st)
    (holds : g.snapshot ∈ st.snapshots) : s'.ledger.Justified s'.model := by
  cases answers with
  | homeScreen => exact h
  | knownNew => exact h.assertions rfl
  | cached => exact h
  | observedBase state version => exact h.markObservedBase state version
  | equivalent undecided found registered =>
    obtain ⟨sb, pair⟩ := found.pair h undecided live holds
    exact register_justified (found.passed.justified h) pair holds registered
  | reproduces undecided found registered some =>
    obtain ⟨sb, pair⟩ := found.pair h undecided live holds
    exact (register_justified (found.passed.justified h) pair holds registered).reproduce _ some
  | new undecided passed =>
    obtain ⟨st', hst', foreign, running⟩ := undecided.state
    refine (passed.justified h).markNew g.snapshot ?_ running foreign
    rw [passed.aside.graph]
    exact hst'

theorem check_justified (h : s.ledger.Justified s.model) {c : Except Refusal Classification}
    (ok : s.check o = .ok (c, s')) : s'.ledger.Justified s'.model := by
  obtain ⟨r, -, -, rfl⟩ | ⟨live, sighted, -⟩ | ⟨live, g, s₁, k, sighted, classified, -⟩ :=
    check_eq_ok ok
  · exact h
  · exact (h.grows (sight_grows sighted live).1).book (sight_book sighted).1
  · obtain ⟨grows, st, hst, holds⟩ := sight_grows sighted live
    obtain ⟨book, named⟩ := sight_book sighted
    obtain ⟨snapshot, state⟩ := named g rfl
    rw [← state] at hst
    rw [← snapshot] at holds
    exact (classify_cases classified).justified ((h.grows grows).book book) hst holds

structure Visit where
  before : Session
  observation : Observation
  answer : Except Refusal Classification

/-- The checks of a run, the latest first, and the session that they led to. In between the model
may change in every way that leaves the states and windows standing. -/
inductive Run : List Visit → Session → Prop
  | start (m : Model) : Run [] { model := m }
  | grow {vs s m} (run : Run vs s) (grows : s.model.Grows m) : Run vs { s with model := m }
  | check {vs s o c s'} (run : Run vs s) (ok : s.check o = .ok (c, s')) : Run (⟨s, o, c⟩ :: vs) s'

theorem Run.ledger_justified {vs : List Visit} (run : Run vs s) : s.ledger.Justified s.model := by
  induction run with
  | start m => exact .empty m
  | grow _ grows ih => exact ih.grows grows
  | check _ ok ih => exact check_justified ih ok

theorem justified_launched : ∃ c s,
    check { model := .launched } ⟨⟨0⟩, ⟨2⟩, ⟨1⟩, none⟩ = .ok (c, s) ∧
    s.ledger.equivalentsOf ⟨2⟩ = [⟨0⟩] ∧ s.ledger.Justified s.model := by
  have found : (check { model := .launched } ⟨⟨0⟩, ⟨2⟩, ⟨1⟩, none⟩).toOption.map
      (fun r => r.2.ledger.equivalentsOf ⟨2⟩) = some [⟨0⟩] := by decide +kernel
  obtain ⟨⟨c, s⟩, checked, entry⟩ := Option.map_eq_some_iff.1 found
  have checked := toOption_eq_some.1 checked
  exact ⟨c, s, checked, entry, ((Run.start _).check checked).ledger_justified⟩

theorem register_entries {k b : StateId} {n : SnapshotId} {x : Matching}
    (ok : s.register k b n x = .ok s') :
    s'.ledger.newStates = s.ledger.newStates ∧ ∀ y, s'.ledger.equivalents.contains y = true ↔
      s.ledger.equivalents.contains y = true ∨ y = k := by
  obtain ⟨recognised, rfl⟩ | ⟨-, plan, planned, entered, applied⟩ := register_cases ok
  · refine ⟨rfl, fun y => ?_⟩
    have entry : s.ledger.equivalents.contains k = true := by
      unfold Ledger.isRecognised Ledger.equivalentsOf at recognised
      unfold OrderedMap.contains
      cases found : s.ledger.equivalents.get? k with
      | none => simp [found] at recognised
      | some bs => rfl
    constructor
    · exact .inl
    · rintro (old | rfl)
      · exact old
      · exact entry
  · have book := (applyAll_keeps applied).book.trans (enter_aside entered).book
    have equivalents : s'.ledger.equivalents = s.ledger.equivalents.addTo k b :=
      (congrArg Ledger.equivalents book :)
    refine ⟨(congrArg Ledger.newStates book :), fun y => ?_⟩
    rw [equivalents, OrderedMap.contains, OrderedMap.get?_addTo, OrderedMap.contains]
    by_cases same : k = y
    · simp [same]
    · simp [same, Ne.symm same]

/-- What a check adds to the new states and to the entries of recognised ones. -/
structure Adds (s : Session) (o : Observation) (c : Except Refusal Classification)
    (s' : Session) : Prop where
  new : ∀ x, x ∈ s'.ledger.newStates ↔ x ∈ s.ledger.newStates ∨ x = o.state ∧ c = .ok .new
  entry : ∀ x, s'.ledger.equivalents.contains x = true ↔
    s.ledger.equivalents.contains x = true ∨ x = o.state ∧ ∃ b r, c = .ok (.equivalent b r)
  guard : (∃ b r, c = .ok (.equivalent b r)) → o.state ∉ s.ledger.newStates
  uncached : c = .ok .new →
    ∀ b ∈ s.ledger.basesOf o.snapshot, s.ledger.isRecognised o.state b = false

theorem Adds.nothing {c : Except Refusal Classification}
    (new : s'.ledger.newStates = s.ledger.newStates)
    (equivalents : s'.ledger.equivalents = s.ledger.equivalents) (other : c ≠ .ok .new)
    (others : ∀ b r, c ≠ .ok (.equivalent b r)) : s.Adds o c s' where
  new x := by simp [new, other]
  entry x := by simp [equivalents, others]
  guard := by
    rintro ⟨b, r, same⟩
    exact absurd same (others b r)
  uncached same := absurd same other

theorem Passed.entries (passed : Passed g s s') : s'.ledger.newStates = s.ledger.newStates ∧
    s'.ledger.equivalents = s.ledger.equivalents := by
  rcases passed.2 with same | same <;> rw [same] <;> exact ⟨rfl, rfl⟩

theorem Adds.registers {b : StateId} {r : Rule} {x : Matching} {mid : Session}
    (undecided : s.Undecided g) (found : s.Finds g b r x mid)
    (registered : mid.register g.state b g.snapshot x = .ok s') (state : g.state = o.state) :
    s.Adds o (.ok (.equivalent b r)) s' := by
  obtain ⟨new, entry⟩ := register_entries registered
  obtain ⟨new₀, equivalents₀⟩ := found.passed.entries
  refine ⟨fun y => ?_, fun y => ?_, fun _ => ?_, nofun⟩
  · simp [new, new₀]
  · rw [entry, equivalents₀, state]
    simp
  · rw [← state]
    exact undecided.unknown

theorem Answers.adds {c : Classification} (answers : s.Answers g c s') (state : g.state = o.state)
    (snapshot : g.snapshot = o.snapshot) : s.Adds o (.ok c) s' := by
  cases answers with
  | homeScreen => exact .nothing rfl rfl nofun nofun
  | knownNew => exact .nothing rfl rfl nofun nofun
  | cached => exact .nothing rfl rfl nofun nofun
  | observedBase => exact .nothing rfl rfl nofun nofun
  | equivalent undecided found registered => exact .registers undecided found registered state
  | reproduces undecided found registered =>
    have adds := Adds.registers undecided found registered state
    exact ⟨adds.new, adds.entry, adds.guard, nofun⟩
  | new undecided passed =>
    obtain ⟨new, equivalents⟩ := passed.entries
    refine ⟨fun y => ?_, fun y => ?_, nofun, fun _ => ?_⟩
    · exact OrderedSet.mem_insert.trans (by simp [new, state])
    · dsimp only
      rw [Ledger.markNew, equivalents]
      simp
    · rw [← state, ← snapshot]
      exact undecided.uncached

theorem check_adds {c : Except Refusal Classification} (ok : s.check o = .ok (c, s')) :
    s.Adds o c s' := by
  obtain ⟨r, -, rfl, rfl⟩ | ⟨-, sighted, rfl⟩ | ⟨-, g, s₁, k, sighted, classified, rfl⟩ :=
    check_eq_ok ok
  · exact .nothing rfl rfl nofun nofun
  · have book := (sight_book sighted).1
    exact .nothing (congrArg Ledger.newStates book :) (congrArg Ledger.equivalents book :)
      nofun nofun
  · obtain ⟨book, named⟩ := sight_book sighted
    have new : s₁.ledger.newStates = s.ledger.newStates := (congrArg Ledger.newStates book :)
    have equivalents : s₁.ledger.equivalents = s.ledger.equivalents :=
      (congrArg Ledger.equivalents book :)
    have bases : s₁.ledger.snapshotBases = s.ledger.snapshotBases :=
      (congrArg Ledger.snapshotBases book :)
    obtain ⟨snapshot, state⟩ := named g rfl
    have adds := (classify_cases classified).adds state snapshot
    refine ⟨?_, ?_, ?_, ?_⟩
    · rw [← new]
      exact adds.new
    · rw [← equivalents]
      exact adds.entry
    · rw [← new]
      exact adds.guard
    · intro answer
      have uncached := adds.uncached answer
      unfold Ledger.isRecognised Ledger.equivalentsOf Ledger.basesOf at uncached ⊢
      rw [equivalents, bases] at uncached
      exact uncached

/-- A state is on record both as new and as recognised exactly if some check of the run answered
that it is new when it had been recognised before. The snapshot of that check was then not on record
for any base state that the state had been recognised as. -/
theorem Run.new_and_recognised {vs : List Visit} (run : Run vs s) (x : StateId) :
    x ∈ s.ledger.newStates ∧ s.ledger.equivalents.contains x = true ↔
      ∃ v ∈ vs, v.observation.state = x ∧ v.answer = .ok .new ∧
        v.before.ledger.equivalents.contains x = true ∧
        ∀ b ∈ v.before.ledger.basesOf v.observation.snapshot,
          v.before.ledger.isRecognised x b = false := by
  induction run with
  | start m =>
    constructor
    · exact fun ⟨new, _⟩ => absurd new (OrderedSet.not_mem_empty x)
    · rintro ⟨v, mem, -⟩
      cases mem
  | grow _ _ ih => exact ih
  | @check vs s o c s' _ ok ih =>
    have adds := check_adds ok
    rw [adds.new, adds.entry]
    simp only [List.mem_cons, or_and_right (c := _ ∧ _), exists_or, exists_eq_left, ← ih]
    constructor
    · -- the check may have added to one side or to the other, which its answer tells apart
      rintro ⟨new | ⟨here, answer⟩, old | ⟨same, found⟩⟩
      · exact .inr ⟨new, old⟩
      · exact absurd (same ▸ new) (adds.guard found)
      · exact .inl ⟨here.symm, answer, old, here ▸ adds.uncached answer⟩
      · obtain ⟨b, r, other⟩ := found
        cases answer.symm.trans other
    · rintro (⟨rfl, rfl, old, -⟩ | ⟨new, old⟩)
      · exact ⟨.inr ⟨rfl, rfl⟩, .inl old⟩
      · exact ⟨.inl new, .inl old⟩

end Session

def Model.stripped : Model where
  catalog := ((Catalog.openWindow {} "Main" "main" .activity .base).2.openWindow
    "Launcher" "home" .launcher .running).2
  avms := (AvmStore.add { signature := Attributes.spelling } ⟨0⟩
    { resourceId := "ok", className := "Button" }).2
  actions :=
    ((ActionTable.intern {} ⟨1⟩ { kind := .launchApp }).2.intern ⟨0⟩ { kind := .pressBack }).2
  graph := Graph.withEdge
    (Graph.withEdge
      { states := (((Arena.add ∅
          { window := ⟨0⟩, version := .base, isInitial := true, avms := .ofList [⟨0⟩] }).2.add
          { window := ⟨1⟩, version := .running, isHome := true }).2.add
          { window := ⟨0⟩, version := .running }).2 }
      { source := ⟨1⟩, action := ⟨0⟩, dest := ⟨2⟩, version := .running } ∅)
    { source := ⟨2⟩, action := ⟨1⟩, dest := ⟨2⟩, version := .running } ∅
  snapshots := ((Arena.add ∅ { windowClass := "Main", elements := [{}] }).2.add
    { windowClass := "Main", elements := [{}] }).2

namespace Session

theorem run_stripped : ∃ vs s, Run vs s ∧ ⟨2⟩ ∈ s.ledger.newStates ∧
    s.ledger.equivalents.contains ⟨2⟩ = true := by
  have story : (do
      let launched ← check { model := .stripped } ⟨⟨0⟩, ⟨2⟩, ⟨0⟩, none⟩
      let stayed ← launched.2.check ⟨⟨1⟩, ⟨2⟩, ⟨1⟩, none⟩
      let l := stayed.2.ledger
      return decide (⟨2⟩ ∈ l.newStates) && l.equivalents.contains ⟨2⟩ :
      Checked Bool).toOption = some true := by decide +kernel
  obtain ⟨⟨c, s⟩, launched, story⟩ := Checked.bind_eq_ok.1 (toOption_eq_some.1 story)
  obtain ⟨⟨c', s'⟩, stayed, ends⟩ := Checked.bind_eq_ok.1 story
  have both := pure_eq_ok.1 ends
  rw [Bool.and_eq_true, decide_eq_true_eq] at both
  exact ⟨_, s', ((Run.start _).check launched).check stayed, both⟩

theorem new_and_recognised_stripped : ∃ vs s, Run vs s ∧ ∃ v ∈ vs, v.observation.state = ⟨2⟩ ∧
    v.answer = .ok .new ∧ v.before.ledger.equivalents.contains ⟨2⟩ = true ∧
      ∀ b ∈ v.before.ledger.basesOf v.observation.snapshot,
        v.before.ledger.isRecognised ⟨2⟩ b = false := by
  obtain ⟨vs, s, run, both⟩ := run_stripped
  exact ⟨vs, s, run, (run.new_and_recognised ⟨2⟩).1 both⟩

theorem not_disjoint_stripped : ¬ ∀ vs s, Run vs s → ∀ x,
    ¬ (x ∈ s.ledger.newStates ∧ s.ledger.equivalents.contains x = true) := by
  intro disjoint
  obtain ⟨vs, s, run, both⟩ := run_stripped
  exact disjoint vs s run ⟨2⟩ both

end Session

end ScreenGraph
