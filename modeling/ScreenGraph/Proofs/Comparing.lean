import ScreenGraph.Proofs.Matching
import ScreenGraph.Proofs.WellFormed

namespace ScreenGraph

namespace Model

variable {m m' : Model}

/-- What comparisons read is there: the windows of states, the valuations that states are compared
by, the widgets that these are bound to and those of windows. -/
structure Comparable (m : Model) : Prop where
  window : ∀ {s st}, m.graph.states.get? s = some st → m.catalog.windows.contains st.window = true
  valued : ∀ {s st}, m.graph.states.get? s = some st →
    ∀ a, a ∈ st.comparableAvms → m.avms.avms.contains a = true
  bound : ∀ {a w}, m.avms.widgetOf a = some w → m.catalog.widgets.contains w = true
  widget : ∀ {w win}, m.catalog.windows.get? w = some win →
    ∀ x, x ∈ win.widgets → m.catalog.widgets.contains x = true

theorem StatesKnown.comparable (h : m.StatesKnown) : m.Comparable where
  window := h.window
  valued live a mem := by
    obtain ⟨v, hv, -⟩ := Checked.bind_eq_ok.1 (h.placed live a (.inr mem))
    exact Arena.contains_of_get? (Arena.get_eq_ok_iff.1 hv)
  bound := h.bound
  widget := h.widget

namespace Comparable

theorem ofReplacements (h : m.Comparable) (r : OrderedMap WidgetId WidgetId) :
    { m with catalog := { m.catalog with replacements := r } }.Comparable :=
  ⟨h.window, h.valued, h.bound, h.widget⟩

theorem compatible_succeeds (h : m.Comparable) {s t : StateId} {st tt : State}
    (hs : m.graph.states.get? s = some st) (ht : m.graph.states.get? t = some tt) :
    Succeeds (m.catalog.compatible st.window tt.window) := by
  obtain ⟨w, hw⟩ := Arena.contains_iff.1 (h.window hs)
  obtain ⟨x, hx⟩ := Arena.contains_iff.1 (h.window ht)
  unfold Catalog.compatible
  split
  · exact succeeds_pure _
  refine .get hw ?_
  refine .get hx ?_
  split <;> exact succeeds_pure _

theorem readable (h : m.Comparable) {s : StateId} {st : State}
    (live : m.graph.states.get? s = some st) {a : AvmId} (mem : a ∈ st.comparableAvms) :
    m.avms.Readable m.catalog a :=
  ⟨h.valued live a mem, h.bound⟩

theorem run_succeeds (h : m.Comparable) {o e : StateId} {so se : State}
    (ho : m.graph.states.get? o = some so) (he : m.graph.states.get? e = some se) :
    Succeeds (Matching.run m.avms m.catalog m.policy so.comparableAvms se.comparableAvms) :=
  Matching.run_succeeds (fun _ ha => h.readable ho ha) fun _ ha => h.readable he ha

theorem runtimeWidgets (h : m.Comparable) {s : StateId} {st : State}
    (live : m.graph.states.get? s = some st) (v : Version) :
    Succeeds (m.catalog.runtimeWidgets st.window v) := by
  obtain ⟨w, hw⟩ := Arena.contains_iff.1 (h.window live)
  refine .get hw ?_
  refine Succeeds.bind ?_ fun _ _ => succeeds_pure _
  refine filterChecked_succeeds fun x hx => ?_
  have live := h.widget hw x hx
  exact (Arena.get_succeeds live).bind fun _ _ => succeeds_pure _

end Comparable

end Model

namespace Trial

structure Known (t : Trial) (m : Model) : Prop where
  observed : ∃ o, m.graph.states.get? o = some t.observed
  expected : ∃ e, m.graph.states.get? e = some t.expected
  restObserved : ∀ a, a ∈ t.restObserved → a ∈ t.observed.comparableAvms
  restExpected : ∀ a, a ∈ t.restExpected → a ∈ t.expected.comparableAvms
  matching : ∀ {x}, t.matching = some x →
    x.Within t.observed.comparableAvms t.expected.comparableAvms

variable {m m' : Model} {t t' : Trial}

theorem Known.prepare (h : t.Known m) {r : Rule} (ok : r.prepare m t = .ok (m', t')) :
    t'.Known m' ∧ t'.observed = t.observed ∧ t'.expected = t.expected := by
  cases r with
  | avmMatch =>
    obtain ⟨⟨x, c⟩, run, done⟩ := Checked.bind_eq_ok.1 ok
    cases done
    have within := (Matching.run_partitions run).within
    refine ⟨⟨h.observed, h.expected, within.restObserved, within.restExpected, ?_⟩, rfl, rfl⟩
    intro y hy
    cases hy
    exact within
  | blankResourceId =>
    obtain ⟨ro, named, ok⟩ := Checked.bind_eq_ok.1 ok
    obtain ⟨re, named', done⟩ := Checked.bind_eq_ok.1 ok
    cases done
    obtain ⟨os, hos, done⟩ := Checked.bind_eq_ok.1 named
    cases done
    obtain ⟨es, hes, done⟩ := Checked.bind_eq_ok.1 named'
    cases done
    refine ⟨⟨h.observed, h.expected, ?_, ?_, h.matching⟩, rfl, rfl⟩
    · exact fun a ha => h.restObserved a ((mem_filterChecked hos).1 (OrderedSet.mem_ofList.1 ha)).1
    · exact fun a ha => h.restExpected a ((mem_filterChecked hes).1 (OrderedSet.mem_ofList.1 ha)).1
  | _ =>
    cases ok
    exact ⟨h, rfl, rfl⟩

theorem Known.prepare_succeeds (h : t.Known m) (states : m.Comparable) (r : Rule) :
    Succeeds (r.prepare m t) := by
  obtain ⟨o, ho⟩ := h.observed
  obtain ⟨e, he⟩ := h.expected
  have observed := fun a ha => states.valued ho a (h.restObserved a ha)
  have expected := fun a ha => states.valued he a (h.restExpected a ha)
  cases r with
  | avmMatch => exact (states.run_succeeds ho he).bind fun _ _ => succeeds_pure _
  | blankResourceId =>
    have named : ∀ rest : OrderedSet AvmId, (∀ a, a ∈ rest → m.avms.avms.contains a = true) →
        Succeeds (rest.filterChecked fun a =>
          return !(← m.avms.attributes a).hasBlankResourceId) := by
      intro rest live
      refine Succeeds.bind ?_ fun _ _ => succeeds_pure _
      refine filterChecked_succeeds fun a ha => ?_
      exact (AvmStore.attributes_succeeds (live a ha)).bind fun _ _ => succeeds_pure _
    refine (named _ observed).bind fun _ _ => ?_
    exact (named _ expected).bind fun _ _ => succeeds_pure _
  | _ => exact succeeds_pure _

theorem widgets?_eq_none {rest : OrderedSet AvmId} :
    widgets? m rest = none ↔ ∃ a, a ∈ rest ∧ m.avms.widgetOf a = none := by
  simp only [widgets?, OrderedSet.mem_def]
  induction rest.toList with
  | nil => simp
  | cons a r ih =>
    rw [List.mapM_cons]
    cases bound : m.avms.widgetOf a with
    | none => simp [bound]
    | some w =>
      cases others : r.mapM m.avms.widgetOf <;> simpa [bound, others] using ih

theorem mem_widgets? {rest : OrderedSet AvmId} {ws : List WidgetId}
    (found : widgets? m rest = some ws) {w : WidgetId} :
    w ∈ ws ↔ ∃ a, a ∈ rest ∧ m.avms.widgetOf a = some w := by
  suffices h : ∀ (rest : List AvmId) {ws}, rest.mapM m.avms.widgetOf = some ws →
      (w ∈ ws ↔ ∃ a ∈ rest, m.avms.widgetOf a = some w) from h rest.toList found
  intro rest
  induction rest with
  | nil =>
    rintro ws ⟨⟩
    simp
  | cons a r ih =>
    intro ws found
    rw [List.mapM_cons] at found
    obtain ⟨x, hx, found⟩ := Option.bind_eq_some_iff.1 found
    obtain ⟨xs, hxs, done⟩ := Option.bind_eq_some_iff.1 found
    cases done
    simp [hx, ih hxs, eq_comm]

theorem isExplained_succeeds {rest : OrderedSet AvmId} {ws : List WidgetId}
    (states : m.Comparable) (found : widgets? m rest = some ws) (others : OrderedSet WidgetId)
    {w : WidgetId} (mem : w ∈ ws) : Succeeds (isExplained m.catalog others w) := by
  obtain ⟨a, -, ha⟩ := (mem_widgets? found).1 mem
  refine (Arena.get_succeeds (states.bound ha)).bind fun x _ => ?_
  split <;> exact succeeds_pure _

theorem Known.judge_succeeds (h : t.Known m) (states : m.Comparable) (r : Rule) :
    Succeeds (r.judge m t) := by
  obtain ⟨o, ho⟩ := h.observed
  obtain ⟨e, he⟩ := h.expected
  cases r with
  | window => exact (states.compatible_succeeds ho he).bind fun _ _ => succeeds_pure _
  | runtimeWidgets =>
    refine Succeeds.bind ?_ fun _ _ => succeeds_pure _
    unfold unknownRuntimeWidgets
    split
    · next os es hos hes =>
      refine (states.runtimeWidgets he _).bind fun ofExpected _ => ?_
      refine (states.runtimeWidgets ho _).bind fun ofObserved _ => ?_
      refine Succeeds.bind ?_ fun explained _ => ?_
      · exact anyChecked_succeeds fun w hw => isExplained_succeeds states hos _ hw
      split
      · exact succeeds_pure _
      refine Succeeds.bind ?_ fun explained' _ => ?_
      · exact anyChecked_succeeds fun w hw => isExplained_succeeds states hes _ hw
      split <;> exact succeeds_pure _
    · exact succeeds_pure _
  | _ => exact succeeds_pure _

theorem Known.settle_succeeds (h : t.Known m) (states : m.Comparable) (rules : List Rule) :
    Succeeds (settle rules m t) := by
  induction rules generalizing m t with
  | nil => exact succeeds_ok _
  | cons r rules ih =>
    refine (h.prepare_succeeds states r).bind fun ⟨m₁, t₁⟩ prepared => ?_
    obtain ⟨known, -, -⟩ := h.prepare prepared
    obtain ⟨rs, rfl⟩ := Rule.prepare_eq_ok prepared
    have states := states.ofReplacements rs
    refine (known.judge_succeeds states r).bind fun v _ => ?_
    cases v with
    | inconclusive => exact ih known states
    | _ => exact succeeds_pure _

theorem Known.settle_matching (h : t.Known m) {rules : List Rule} {c : Comparison}
    (ok : settle rules m t = .ok (c, m')) {x : Matching} (matched : c.matching = some x) :
    x.Within t.observed.comparableAvms t.expected.comparableAvms := by
  induction rules generalizing m t with
  | nil =>
    cases ok
    exact h.matching matched
  | cons r rules ih =>
    obtain ⟨⟨m₁, t₁⟩, prepared, ok⟩ := Checked.bind_eq_ok.1 ok
    obtain ⟨v, -, ok⟩ := Checked.bind_eq_ok.1 ok
    obtain ⟨known, observed, expected⟩ := h.prepare prepared
    rw [← observed, ← expected]
    cases v with
    | inconclusive => exact ih known ok
    | _ =>
      cases ok
      exact known.matching matched

theorem settle_rejecting {r : Rule} {rules : List Rule} {b : Checked Bool} {c : Comparison}
    (prepared : r.prepare m t = .ok (m, t))
    (judged : r.judge m t = b >>= fun same => pure (.rejectUnless same))
    (ok : settle (r :: rules) m t = .ok (c, m')) (accepted : c.verdict = .equivalent) :
    b = .ok true ∧ settle rules m t = .ok (c, m') := by
  obtain ⟨⟨m₁, t₁⟩, prepared', ok⟩ := Checked.bind_eq_ok.1 ok
  cases prepared.symm.trans prepared'
  obtain ⟨v, verdict, ok⟩ := Checked.bind_eq_ok.1 ok
  rw [judged] at verdict
  obtain ⟨same, hb, done⟩ := Checked.bind_eq_ok.1 verdict
  cases done
  cases same with
  | true => exact ⟨hb, ok⟩
  | false =>
    cases ok
    cases accepted

end Trial

namespace Model

variable {m m' : Model} {o e : StateId} {strict : Bool} {c : Comparison}

theorem Comparable.compare_succeeds (h : m.Comparable)
    (ho : m.graph.states.contains o = true) (he : m.graph.states.contains e = true) :
    Succeeds (m.compare o e strict) := by
  obtain ⟨so, hso⟩ := Arena.contains_iff.1 ho
  obtain ⟨se, hse⟩ := Arena.contains_iff.1 he
  refine .get hso ?_
  refine .get hse ?_
  have known : Trial.Known { observed := so, expected := se, strict } m :=
    ⟨⟨o, hso⟩, ⟨e, hse⟩, nofun, nofun, nofun⟩
  exact known.settle_succeeds h _

theorem StatesKnown.compare_succeeds (h : m.StatesKnown)
    (ho : m.graph.states.contains o = true) (he : m.graph.states.contains e = true) :
    Succeeds (m.compare o e strict) :=
  h.comparable.compare_succeeds ho he

theorem compare_within (ok : m.compare o e strict = .ok (c, m')) :
    ∃ so se, m.graph.states.get? o = some so ∧ m.graph.states.get? e = some se ∧
      (c.matching.getD {}).Within so.comparableAvms se.comparableAvms := by
  obtain ⟨so, hso, ok⟩ := Arena.get_bind_eq_ok.1 ok
  obtain ⟨se, hse, ok⟩ := Arena.get_bind_eq_ok.1 ok
  have known : Trial.Known { observed := so, expected := se, strict } m :=
    ⟨⟨o, hso⟩, ⟨e, hse⟩, nofun, nofun, nofun⟩
  refine ⟨so, se, hso, hse, ?_⟩
  cases matched : c.matching with
  | none => exact ⟨nofun, nofun, nofun⟩
  | some x => exact known.settle_matching ok matched

theorem compare_accepted (ok : m.compare o e strict = .ok (c, m')) {r : Rule} {x : Matching}
    (accepted : c.accepted? = some (r, x)) :
    x = c.matching.getD {} ∧ ∃ so se, m.graph.states.get? o = some so ∧
      m.graph.states.get? e = some se ∧ m.catalog.compatible so.window se.window = .ok true ∧
      so.sameFlags se = true := by
  obtain ⟨so, hso, ok⟩ := Arena.get_bind_eq_ok.1 ok
  obtain ⟨se, hse, ok⟩ := Arena.get_bind_eq_ok.1 ok
  have equivalent : c.verdict = .equivalent ∧ x = c.matching.getD {} := by
    unfold Comparison.accepted? at accepted
    split at accepted
    · next verdict _ =>
      cases accepted
      exact ⟨verdict, rfl⟩
    · cases accepted
  refine ⟨equivalent.2, so, se, hso, hse, ?_⟩
  obtain ⟨windows, ok⟩ := Trial.settle_rejecting rfl rfl ok equivalent.1
  obtain ⟨rotation, ok⟩ := Trial.settle_rejecting (b := pure _) rfl rfl ok equivalent.1
  obtain ⟨menu, ok⟩ := Trial.settle_rejecting (b := pure _) rfl rfl ok equivalent.1
  obtain ⟨keyboard, ok⟩ := Trial.settle_rejecting (b := pure _) rfl rfl ok equivalent.1
  refine ⟨windows, ?_⟩
  simp only [State.sameFlags, Bool.and_eq_true]
  exact ⟨⟨pure_eq_ok.1 rotation, pure_eq_ok.1 menu⟩, pure_eq_ok.1 keyboard⟩

end Model

end ScreenGraph
