import ScreenGraph.Proofs.Comparing

namespace ScreenGraph

namespace Catalog

variable {c : Catalog}

def Compatible (c : Catalog) (a b : WindowId) : Prop :=
  a = b ∨ ∃ wa wb owner, c.windows.get? a = some wa ∧ c.windows.get? b = some wb ∧
    wa.kind = .dialog owner ∧ wb.kind = .dialog owner

theorem owner?_eq_some {w : Window} {owner : String} :
    w.owner? = some owner ↔ w.kind = .dialog owner := by
  unfold Window.owner?
  split <;> simp_all

theorem compatible_eq_ok {a b : WindowId} {same : Bool} (ok : c.compatible a b = .ok same) :
    same = true ↔ c.Compatible a b := by
  unfold compatible at ok
  split at ok
  · next equal =>
    cases ok
    exact iff_of_true rfl (.inl equal)
  · next other =>
    obtain ⟨wa, ha, ok⟩ := Arena.get_bind_eq_ok.1 ok
    obtain ⟨wb, hb, ok⟩ := Arena.get_bind_eq_ok.1 ok
    have owned : c.Compatible a b ↔ ∃ owner, wb.owner? = some owner ∧ wa.owner? = some owner := by
      simp [Compatible, other, ha, hb, owner?_eq_some, and_comm]
    rw [owned]
    cases hx : wa.owner? <;> cases hy : wb.owner? <;> rw [hx, hy] at ok <;> cases ok <;> simp

def Creates (c : Catalog) (window : WindowId) (version : Version) (y : WidgetId) : Prop :=
  ∃ win x, c.windows.get? window = some win ∧ y ∈ win.widgets ∧ c.widgets.get? y = some x ∧
    x.runtimeCreated = true ∧ x.version = version

/-- A widget created at run time that is none of those created for a version of a window. -/
def Novel (c : Catalog) (window : WindowId) (version : Version) (w : WidgetId) : Prop :=
  (∃ x, c.widgets.get? w = some x ∧ x.runtimeCreated = true) ∧
    ∀ y, c.Creates window version y → c.sameIdentity y w = false

theorem mem_runtimeWidgets {window : WindowId} {version : Version} {ws : OrderedSet WidgetId}
    (ok : c.runtimeWidgets window version = .ok ws) {y : WidgetId} :
    y ∈ ws ↔ c.Creates window version y := by
  obtain ⟨win, hwin, ok⟩ := Arena.get_bind_eq_ok.1 ok
  obtain ⟨kept, filtered, done⟩ := Checked.bind_eq_ok.1 ok
  cases done
  have read : (do let w ← c.widget y; return w.runtimeCreated && w.version = version) = .ok true ↔
      ∃ x, c.widgets.get? y = some x ∧ x.runtimeCreated = true ∧ x.version = version := by
    simp only [widget, Arena.get_bind_eq_ok, pure_eq_ok, Bool.and_eq_true, decide_eq_true_eq]
  rw [OrderedSet.mem_ofList, mem_filterChecked filtered, read]
  simp [Creates, hwin, OrderedSet.mem_def]

end Catalog

def AvmStore.Named (s : AvmStore) (a : AvmId) : Prop :=
  ∃ v, s.attributes a = .ok v ∧ v.hasBlankResourceId = false

def Verdict.Decides (v : Verdict) (p : Prop) : Prop :=
  (v = .equivalent ↔ p) ∧ (v = .notEquivalent ↔ ¬ p)

namespace Trial

variable {m m₁ : Model} {t t₁ : Trial} {p : Prop}

def Decides (rules : List Rule) (m : Model) (t : Trial) (p : Prop) : Prop :=
  ∃ c m', settle rules m t = .ok (c, m') ∧ c.verdict.Decides p

theorem Decides.congr {rules : List Rule} {q : Prop} (h : Decides rules m t p) (same : p ↔ q) :
    Decides rules m t q := by
  rwa [← propext same]

theorem decides_nil : Decides [] m t False :=
  ⟨_, m, rfl, by simp [Verdict.Decides]⟩

section

variable {r : Rule} {rules : List Rule} {same : Bool}

theorem settle_cons (rules : List Rule) {v : Verdict} (prepared : r.prepare m t = .ok (m₁, t₁))
    (judged : r.judge m₁ t₁ = .ok v) : settle (r :: rules) m t =
      if v = .inconclusive then settle rules m₁ t₁ else .ok (⟨v, some r, t₁.matching⟩, m₁) := by
  rw [settle, prepared]
  cases v <;> simp [bind, Except.bind, judged, pure, Except.pure]

theorem decides_rejecting (prepared : r.prepare m t = .ok (m₁, t₁))
    (judged : r.judge m₁ t₁ = .ok (.rejectUnless same)) (rest : Decides rules m₁ t₁ p) :
    Decides (r :: rules) m t (same = true ∧ p) := by
  have settled := settle_cons rules prepared judged
  cases same with
  | true =>
    obtain ⟨c, m', ok, decides⟩ := rest
    exact ⟨c, m', settled.trans ok, by simpa using decides⟩
  | false => exact ⟨_, m₁, settled, by simp [Verdict.Decides, Verdict.rejectUnless]⟩

theorem decides_accepting (prepared : r.prepare m t = .ok (m₁, t₁))
    (judged : r.judge m₁ t₁ = .ok (.acceptIf same)) (rest : Decides rules m₁ t₁ p) :
    Decides (r :: rules) m t (same = true ∨ p) := by
  have settled := settle_cons rules prepared judged
  cases same with
  | true => exact ⟨_, m₁, settled, by simp [Verdict.Decides, Verdict.acceptIf]⟩
  | false =>
    obtain ⟨c, m', ok, decides⟩ := rest
    exact ⟨c, m', settled.trans ok, by simpa using decides⟩

end

theorem hasRest_eq_false :
    t.hasRest = false ↔ (∀ a, a ∉ t.restObserved) ∧ ∀ a, a ∉ t.restExpected := by
  simp [hasRest, OrderedSet.isEmpty_iff]

theorem disjointWidgets_iff : t.disjointWidgets m = true ↔
    ∀ a, a ∈ t.restObserved → ∀ b, b ∈ t.restExpected →
      m.avms.widgetOf a ≠ m.avms.widgetOf b := by
  have apart : ∀ (w : Option WidgetId), w ∉ identities m t.restExpected ↔
      ∀ b, b ∈ t.restExpected → w ≠ m.avms.widgetOf b := by
    simp [identities, OrderedSet.mem_def, eq_comm]
  simp only [disjointWidgets, apart]
  simp [identities, OrderedSet.mem_def]

theorem isExplained_eq_false {c : Catalog} {window : WindowId} {version : Version}
    {others : OrderedSet WidgetId} (known : c.runtimeWidgets window version = .ok others)
    {w : WidgetId} : isExplained c others w = .ok false ↔ c.Novel window version w := by
  have unknown : (others.toList.any fun x => c.sameIdentity x w) = false ↔
      ∀ y, c.Creates window version y → c.sameIdentity y w = false := by
    simp [← Catalog.mem_runtimeWidgets known, OrderedSet.mem_def]
  unfold isExplained Catalog.widget
  rw [Arena.get_bind_eq_ok]
  constructor
  · rintro ⟨x, live, judged⟩
    split at judged
    · cases judged
    · next created =>
      exact ⟨⟨x, live, by simpa using created⟩, unknown.1 (pure_eq_ok.1 judged)⟩
  · rintro ⟨⟨x, live, created⟩, new⟩
    refine ⟨x, live, ?_⟩
    rw [created]
    exact pure_eq_ok.2 (unknown.2 new)

def AllNovel (m : Model) (rest : OrderedSet AvmId) (window : WindowId) (version : Version) : Prop :=
  ∀ a, a ∈ rest → ∃ w, m.avms.widgetOf a = some w ∧ m.catalog.Novel window version w

theorem allNovel_iff {rest : OrderedSet AvmId} {ws : List WidgetId}
    (found : widgets? m rest = some ws) {window : WindowId} {version : Version} :
    AllNovel m rest window version ↔ ∀ w ∈ ws, m.catalog.Novel window version w := by
  constructor
  · intro novel w mem
    obtain ⟨a, left, bound⟩ := (mem_widgets? found).1 mem
    obtain ⟨x, bound', novel⟩ := novel a left
    cases bound.symm.trans bound'
    exact novel
  · intro novel a left
    cases bound : m.avms.widgetOf a with
    | none => cases (widgets?_eq_none.2 ⟨a, left, bound⟩).symm.trans found
    | some w => exact ⟨w, rfl, novel w ((mem_widgets? found).2 ⟨a, left, bound⟩)⟩

theorem not_allNovel {rest : OrderedSet AvmId} (unbound : widgets? m rest = none)
    {window : WindowId} {version : Version} : ¬ AllNovel m rest window version := by
  intro novel
  obtain ⟨a, left, none⟩ := widgets?_eq_none.1 unbound
  obtain ⟨w, bound, -⟩ := novel a left
  cases none.symm.trans bound

theorem unknownRuntimeWidgets_eq_ok {same : Bool} (ok : t.unknownRuntimeWidgets m = .ok same) :
    same = true ↔ AllNovel m t.restObserved t.expected.window t.expected.version ∧
      AllNovel m t.restExpected t.observed.window t.observed.version := by
  unfold unknownRuntimeWidgets at ok
  split at ok
  · next os es hos hes =>
    obtain ⟨ofExpected, he, ok⟩ := Checked.bind_eq_ok.1 ok
    obtain ⟨ofObserved, ho, ok⟩ := Checked.bind_eq_ok.1 ok
    obtain ⟨explained, hx, ok⟩ := Checked.bind_eq_ok.1 ok
    simp only [allNovel_iff hos, allNovel_iff hes, ← isExplained_eq_false he,
      ← isExplained_eq_false ho, ← anyChecked_eq_false]
    cases explained with
    | true =>
      cases ok
      simp [hx]
    | false =>
      obtain ⟨explained', hy, ok⟩ := Checked.bind_eq_ok.1 ok
      cases explained' <;> cases ok <;> simp [hx, hy]
  · next unbound =>
    cases ok
    simp only [Bool.false_eq_true, false_iff, not_and_or]
    cases ho : widgets? m t.restObserved with
    | none => exact .inl (not_allNovel ho)
    | some os =>
      cases he : widgets? m t.restExpected with
      | none => exact .inr (not_allNovel he)
      | some es => cases unbound os es ho he

theorem mem_named {rest named : OrderedSet AvmId}
    (ok : (rest.filterChecked fun a => return !(← m.avms.attributes a).hasBlankResourceId) =
      .ok named) {a : AvmId} : a ∈ named ↔ a ∈ rest ∧ m.avms.Named a := by
  obtain ⟨as, filtered, done⟩ := Checked.bind_eq_ok.1 ok
  cases done
  have read : (do return !(← m.avms.attributes a).hasBlankResourceId) = .ok true ↔
      m.avms.Named a := by
    simp only [AvmStore.Named, Checked.bind_eq_ok, pure_eq_ok, Bool.not_eq_true']
  rw [OrderedSet.mem_ofList, mem_filterChecked filtered, read, OrderedSet.mem_def]

end Trial

/-- What a matching leaves over does not tell two states apart, given the catalog that it has left
behind. No resource identifier is left over, or nothing on one side is bound as something on the
other, or all of it is new to the other side. -/
def Matching.Suffices (x : Matching) (m : Model) (k : Catalog) (o e : State) (strict : Bool) :
    Prop :=
  (∀ a, a ∈ x.restObserved → ¬ m.avms.Named a) ∧ (∀ a, a ∈ x.restExpected → ¬ m.avms.Named a) ∨
  strict = false ∧ m.policy.disjointWidgets = true ∧
    (∀ a, a ∈ x.restObserved → m.avms.Named a → ∀ b, b ∈ x.restExpected → m.avms.Named b →
      m.avms.widgetOf a ≠ m.avms.widgetOf b) ∨
  (∀ a, a ∈ x.restObserved → m.avms.Named a →
    ∃ w, m.avms.widgetOf a = some w ∧ k.Novel e.window e.version w) ∧
  (∀ a, a ∈ x.restExpected → m.avms.Named a →
    ∃ w, m.avms.widgetOf a = some w ∧ k.Novel o.window o.version w)

theorem Matching.Suffices.lax {x : Matching} {m : Model} {k : Catalog} {o e : State}
    (h : x.Suffices m k o e true) : x.Suffices m k o e false := by
  rcases h with nothing | ⟨strict, -⟩ | novel
  · exact .inl nothing
  · cases strict
  · exact .inr (.inr novel)

structure Model.Alike (m : Model) (o e : State) (x : Matching) (k : Catalog) (strict : Bool) :
    Prop where
  windows : m.catalog.Compatible o.window e.window
  rotation : o.rotation = e.rotation
  menu : o.menuOpen = e.menuOpen
  keyboard : o.keyboardOpen = e.keyboardOpen
  rest : x.Suffices m k o e strict

namespace Trial

variable {m : Model} {t : Trial} {x : Matching} {k : Catalog}

theorem Known.decides_rest (h : t.Known m) (comparable : m.Comparable)
    (run : Matching.run m.avms m.catalog m.policy t.observed.comparableAvms
      t.expected.comparableAvms = .ok (x, k)) :
    Decides [.avmMatch, .blankResourceId, .disjointWidgets, .runtimeWidgets] m t
      (x.Suffices m k t.observed t.expected t.strict) := by
  obtain ⟨⟨m₁, t₁⟩, matched⟩ := h.prepare_succeeds comparable .avmMatch
  have known := (h.prepare matched).1
  obtain ⟨rs, left⟩ := Rule.prepare_eq_ok matched
  have comparable := left ▸ comparable.ofReplacements rs
  obtain ⟨⟨m₂, t₂⟩, named⟩ := known.prepare_succeeds comparable .blankResourceId
  have known := (known.prepare named).1
  -- what the two preparations come to
  obtain ⟨⟨y, c⟩, run', done⟩ := Checked.bind_eq_ok.1 matched
  cases run.symm.trans run'
  cases done
  obtain ⟨ro, hro, kept⟩ := Checked.bind_eq_ok.1 named
  obtain ⟨re, hre, done⟩ := Checked.bind_eq_ok.1 kept
  cases done
  obtain ⟨v, judged⟩ := known.judge_succeeds comparable .runtimeWidgets
  obtain ⟨new, unknown, done⟩ := Checked.bind_eq_ok.1 judged
  cases done
  have decides := decides_accepting matched rfl <| decides_accepting named rfl <|
    decides_accepting (r := .disjointWidgets) rfl rfl <|
    decides_accepting (r := .runtimeWidgets) rfl judged decides_nil
  refine decides.congr ?_
  simp only [Bool.not_eq_true', hasRest_eq_false, Bool.and_eq_true, disjointWidgets_iff,
    unknownRuntimeWidgets_eq_ok unknown, AllNovel, mem_named hro, mem_named hre, and_imp, not_and,
    or_false, and_assoc]
  -- nothing that is left over at all is nothing that has an identifier
  refine or_iff_right_of_imp fun nothing => .inl ?_
  exact ⟨fun a left => absurd left (nothing.1 a), fun a left => absurd left (nothing.2 a)⟩

end Trial

namespace Model

variable {m : Model} {o e : StateId} {so se : State}

theorem Comparable.decides (h : m.Comparable) (ho : m.graph.states.get? o = some so)
    (he : m.graph.states.get? e = some se) {x : Matching} {k : Catalog}
    (run : Matching.run m.avms m.catalog m.policy so.comparableAvms se.comparableAvms =
      .ok (x, k)) (strict : Bool) :
    ∃ c m', m.compare o e strict = .ok (c, m') ∧ c.verdict.Decides (m.Alike so se x k strict) := by
  obtain ⟨same, windows⟩ := h.compatible_succeeds ho he
  have known : Trial.Known { observed := so, expected := se, strict } m :=
    ⟨⟨o, ho⟩, ⟨e, he⟩, nofun, nofun, nofun⟩
  have decides := Trial.decides_rejecting (r := .window) rfl
    (Checked.bind_eq_ok.2 ⟨_, windows, rfl⟩) <|
    Trial.decides_rejecting (r := .rotation) rfl rfl <|
    Trial.decides_rejecting (r := .menu) rfl rfl <|
    Trial.decides_rejecting (r := .keyboard) rfl rfl (known.decides_rest h run)
  simp only [Catalog.compatible_eq_ok windows, decide_eq_true_eq, beq_iff_eq] at decides
  obtain ⟨c, m', settled, decides⟩ := decides.congr (q := m.Alike so se x k strict)
    ⟨fun ⟨w, r, m, k, x⟩ => ⟨w, r, m, k, x⟩, fun ⟨w, r, m, k, x⟩ => ⟨w, r, m, k, x⟩⟩
  refine ⟨c, m', ?_, decides⟩
  exact Arena.get_bind_eq_ok.2 ⟨so, ho, Arena.get_bind_eq_ok.2 ⟨se, he, settled⟩⟩

/-- The rules of a comparison are one closed condition on the two states and their matching, and a
strict comparison accepts less. -/
theorem Comparable.compare_decides (h : m.Comparable) (ho : m.graph.states.get? o = some so)
    (he : m.graph.states.get? e = some se) :
    ∃ x k, Matching.run m.avms m.catalog m.policy so.comparableAvms se.comparableAvms =
        .ok (x, k) ∧
      (∀ strict, ∃ c m', m.compare o e strict = .ok (c, m') ∧
        (c.verdict = .equivalent ↔ m.Alike so se x k strict) ∧
        (c.verdict = .notEquivalent ↔ ¬ m.Alike so se x k strict)) ∧
      ∃ c m' c' m'', m.compare o e true = .ok (c, m') ∧ m.compare o e false = .ok (c', m'') ∧
        (c.verdict = .equivalent → c'.verdict = .equivalent) := by
  obtain ⟨⟨x, k⟩, run⟩ := h.run_succeeds ho he
  refine ⟨x, k, run, fun strict => h.decides ho he run strict, ?_⟩
  obtain ⟨c, m', compared, strict⟩ := h.decides ho he run true
  obtain ⟨c', m'', compared', lax⟩ := h.decides ho he run false
  refine ⟨c, m', c', m'', compared, compared', fun accepted => lax.1.2 ?_⟩
  have alike := strict.1.1 accepted
  exact { alike with rest := alike.rest.lax }

def relabelled : Model where
  catalog := {
    windows := (Arena.add ∅
      { className := "Main", identifier := "main", kind := .activity, version := .base }).2
    widgets := (Arena.add ∅ { window := ⟨0⟩, resourceId := "close", version := .base }).2 }
  avms := {
    AvmStore.addAll { signature := Attributes.spelling }
      [(⟨0⟩, { resourceId := "close" }), (⟨1⟩, { resourceId := "ok" })] with
    bindings := .ofList [(⟨0⟩, ⟨0⟩)] }
  graph := { states := ((Arena.add ∅
      { window := ⟨0⟩, version := .base, avms := .ofList [⟨0⟩] }).2.add
      { window := ⟨0⟩, version := .running, avms := .ofList [⟨1⟩] }).2 }

theorem comparable_relabelled : relabelled.Comparable where
  window {_ st} live := by
    have window : st.window = ⟨0⟩ := by
      rcases Arena.of_get?_add live with live | ⟨-, rfl⟩
      · rcases Arena.of_get?_add live with live | ⟨-, rfl⟩
        · cases live
        · rfl
      · rfl
    rw [window]
    rfl
  valued live := by
    rcases Arena.of_get?_add live with live | ⟨-, rfl⟩
    · rcases Arena.of_get?_add live with live | ⟨-, rfl⟩
      · cases live
      · simp only [State.comparableAvms, Option.getD_none, OrderedSet.mem_ofList,
          List.mem_singleton, forall_eq]
        rfl
    · simp only [State.comparableAvms, Option.getD_none, OrderedSet.mem_ofList,
        List.mem_singleton, forall_eq]
      rfl
  bound held := by
    rcases OrderedMap.of_get?_insert held with none | rfl
    · cases none
    · rfl
  widget live x mem := by
    rcases Arena.of_get?_add live with live | ⟨-, rfl⟩
    · cases live
    · cases mem

theorem compare_decides_relabelled : ∃ x k, Matching.run relabelled.avms relabelled.catalog
      relabelled.policy (.ofList [⟨1⟩]) (.ofList [⟨0⟩]) = .ok (x, k) ∧
    ∃ o e, relabelled.graph.states.get? ⟨1⟩ = some o ∧ relabelled.graph.states.get? ⟨0⟩ = some e ∧
      ¬ relabelled.Alike o e x k true ∧ relabelled.Alike o e x k false := by
  obtain ⟨x, k, run, decides, -⟩ :=
    comparable_relabelled.compare_decides (o := ⟨1⟩) (e := ⟨0⟩) rfl rfl
  obtain ⟨c, m', strict, -, refuses⟩ := decides true
  obtain ⟨c', m'', lax, accepts, -⟩ := decides false
  have refused : (relabelled.compare ⟨1⟩ ⟨0⟩ true).toOption.map (·.1.verdict) =
      some .notEquivalent := by decide +kernel
  have accepted : (relabelled.compare ⟨1⟩ ⟨0⟩ false).toOption.map (·.1.verdict) =
      some .equivalent := by decide +kernel
  rw [strict] at refused
  rw [lax] at accepted
  refine ⟨x, k, run, _, _, rfl, rfl, ?_, ?_⟩
  · exact refuses.1 (Option.some.inj refused)
  · exact accepts.1 (Option.some.inj accepted)

end Model

end ScreenGraph
