import ScreenGraph.Proofs.Deciding
import ScreenGraph.Proofs.Migrating

namespace ScreenGraph

theorem Catalog.Compatible.symm {c : Catalog} {a b : WindowId} (h : c.Compatible a b) :
    c.Compatible b a := by
  rcases h with rfl | ⟨wa, wb, owner, ha, hb, ofA, ofB⟩
  · exact .inl rfl
  · exact .inr ⟨wb, wa, owner, hb, ha, ofB, ofA⟩

theorem State.sameFlags_comm (s t : State) : s.sameFlags t = t.sameFlags s := by
  simp only [sameFlags, eq_comm (a := s.rotation), Bool.beq_comm (a := s.menuOpen),
    Bool.beq_comm (a := s.keyboardOpen)]

theorem filterChecked_eq_filter {α : Type} {test : α → Checked Bool} {xs : List α}
    (goes : ∀ a ∈ xs, Succeeds (test a)) :
    ∃ p : α → Bool, filterChecked test xs = .ok (xs.filter p) ∧ ∀ a ∈ xs, test a = .ok (p a) := by
  have tested : ∀ a ∈ xs, test a = .ok ((test a).toOption.getD false) := by
    intro a mem
    obtain ⟨b, hb⟩ := goes a mem
    rw [hb]
    rfl
  exact ⟨_, filterChecked_ok tested, tested⟩

theorem Trial.settle_rejects {r : Rule} {rules : List Rule} {m : Model} {t : Trial} {same : Bool}
    (prepared : r.prepare m t = .ok (m, t)) (judged : r.judge m t = .ok (.rejectUnless same))
    (rest : same = true →
      ∃ c, settle rules m t = .ok (c, m) ∧ c.verdict = .notEquivalent) :
    ∃ c, settle (r :: rules) m t = .ok (c, m) ∧ c.verdict = .notEquivalent := by
  have settled := settle_cons rules prepared judged
  cases same with
  | true =>
    obtain ⟨c, ok, rejects⟩ := rest rfl
    exact ⟨c, settled.trans ok, rejects⟩
  | false => exact ⟨_, settled, rfl⟩

theorem Model.Comparable.compare_rejects {m : Model} (h : m.Comparable) {o e : StateId}
    {so se : State} (ho : m.graph.states.get? o = some so) (he : m.graph.states.get? e = some se)
    (unlike : m.catalog.Compatible so.window se.window → so.sameFlags se = false)
    (strict : Bool) :
    ∃ c, m.compare o e strict = .ok (c, m) ∧ c.verdict = .notEquivalent := by
  obtain ⟨same, windows⟩ := h.compatible_succeeds ho he
  suffices rejects : ∃ c, Trial.settle Rule.all m { observed := so, expected := se, strict } =
      .ok (c, m) ∧ c.verdict = .notEquivalent by
    obtain ⟨c, settled, rejects⟩ := rejects
    refine ⟨c, ?_, rejects⟩
    exact Arena.get_bind_eq_ok.2 ⟨so, ho, Arena.get_bind_eq_ok.2 ⟨se, he, settled⟩⟩
  refine Trial.settle_rejects (r := .window) rfl (Checked.bind_eq_ok.2 ⟨_, windows, rfl⟩) ?_
  intro compatible
  have flags := unlike ((Catalog.compatible_eq_ok windows).1 compatible)
  refine Trial.settle_rejects (r := .rotation) rfl rfl fun rotation => ?_
  refine Trial.settle_rejects (r := .menu) rfl rfl fun menu => ?_
  refine Trial.settle_rejects (r := .keyboard) rfl rfl fun keyboard => ?_
  simp [State.sameFlags, rotation, menu, keyboard] at flags

namespace Classifier

def isRecorded (s : State) : Bool := s.version = .base && !s.isVirtual && !s.isHome

def baseStates (m : Model) : List StateId :=
  (m.graph.states.entries.filter fun (_, s) => isRecorded s).map Prod.fst

def exhaustiveScan : Classifier := fun g s => do
  let (found, s) ← s.firstEquivalent s.model.policy.strictScan g (baseStates s.model)
  return (found.map fun (base, rule) => .equivalent base rule, s)

theorem isScanned_iff {m : Model} (h : m.Comparable) {o e : StateId} {so se : State}
    (observed : m.graph.states.get? o = some so) (running : so.version = .running)
    (live : m.graph.states.get? e = some se) :
    ∃ kept, (do if e = o then return false else isScanned m.catalog so se) = .ok kept ∧
      (kept = true ↔ isRecorded se = true ∧ se.sameFlags so = true ∧
        m.catalog.Compatible se.window so.window) := by
  obtain ⟨same, windows⟩ := h.compatible_succeeds live observed
  rw [← Catalog.compatible_eq_ok windows, ← and_assoc, ← Bool.and_eq_true]
  split
  · next itself =>
    rw [itself] at live
    cases live.symm.trans observed
    exact ⟨false, rfl, by simp [isRecorded, running]⟩
  unfold isScanned
  split
  · next shape => exact ⟨same, windows, iff_and_self.2 fun _ => shape⟩
  · next shape => exact ⟨false, rfl, iff_of_false nofun fun h => shape h.1⟩

end Classifier

namespace Session

open Classifier

variable {s s' : Session} {g : Sighting}

theorem search_filter {strict : Bool} {es : List (StateId × State)} {p : StateId × State → Bool}
    (skipped : ∀ s', s.Compared s' → ∀ e ∈ es, p e = false →
      ∃ c, s'.model.compare g.state e.1 strict = .ok (c, s'.model) ∧ c.verdict = .notEquivalent) :
    search strict g ((es.filter p).map Prod.fst) s = search strict g (es.map Prod.fst) s := by
  induction es generalizing s with
  | nil => rfl
  | cons e r ih =>
    have rest : ∀ {s'}, s.Compared s' → search strict g ((r.filter p).map Prod.fst) s' =
        search strict g (r.map Prod.fst) s' := fun step =>
      ih fun s'' later e' mem => skipped s'' (step.trans later) e' (by simp [mem])
    cases kept : p e with
    | true =>
      rw [List.filter_cons_of_pos kept, List.map_cons, List.map_cons, search, search]
      cases compared : s.model.compare g.state e.1 strict with
      | error _ => rfl
      | ok made =>
        obtain ⟨c, m⟩ := made
        have same := rest (.compare compared)
        simp only [bind, Except.bind, same]
    | false =>
      obtain ⟨c, compared, rejects⟩ := skipped s (.refl s) e (by simp) kept
      have refused : c.accepted? = none := by simp [Comparison.accepted?, rejects]
      rw [List.filter_cons_of_neg (by simp [kept]), List.map_cons, search, compared]
      simp only [bind, Except.bind, refused]
      exact rest (.refl s)

theorem windowBases_eq (h : s.model.Comparable) {so : State}
    (observed : s.model.graph.states.get? g.state = some so) (running : so.version = .running)
    (fresh : s.ledger.basesOf g.snapshot = []) (strict : Bool) :
    ∃ (es : List (StateId × State)) (p : StateId × State → Bool),
      baseStates s.model = es.map Prod.fst ∧
      windowBases s g = .ok ((es.filter p).map Prod.fst) ∧
      ∀ s', s.Compared s' → ∀ e ∈ es, p e = false →
        ∃ c, s'.model.compare g.state e.1 strict = .ok (c, s'.model) ∧
          c.verdict = .notEquivalent := by
  have test (e) (mem : e ∈ s.model.graph.states.entries) :=
    isScanned_iff h observed running (Arena.mem_entries.1 mem)
  obtain ⟨p, found, tested⟩ :=
    filterChecked_eq_filter fun e mem => (test e mem).imp fun _ => And.left
  have kept : ∀ e ∈ s.model.graph.states.entries, p e = true ↔ isRecorded e.2 = true ∧
      e.2.sameFlags so = true ∧ s.model.catalog.Compatible e.2.window so.window := by
    intro e mem
    obtain ⟨kept, test, means⟩ := test e mem
    cases test.symm.trans (tested e mem)
    exact means
  have scanned : scanned s.model g.state =
      .ok ((s.model.graph.states.entries.filter p).map Prod.fst) :=
    Arena.get_bind_eq_ok.2 ⟨so, observed, Checked.bind_eq_ok.2 ⟨_, found, rfl⟩⟩
  refine ⟨_, p, rfl, ?_, ?_⟩
  · rw [windowBases, fresh, List.filter_filter]
    refine scanned.trans ?_
    congr 2
    refine List.filter_congr fun e mem => Bool.eq_iff_iff.2 ?_
    rw [Bool.and_eq_true]
    exact iff_self_and.2 fun scanned => ((kept e mem).1 scanned).1
  · intro s' compared e mem skipped
    obtain ⟨mem, recorded⟩ := List.mem_filter.1 mem
    obtain ⟨-, r, same⟩ := compared
    rw [same]
    refine (h.ofReplacements r).compare_rejects observed (Arena.mem_entries.1 mem) ?_ strict
    intro compatible
    rw [State.sameFlags_comm, ← Bool.not_eq_true]
    exact fun flags => Bool.eq_false_iff.1 skipped
      ((kept e mem).2 ⟨recorded, flags, Catalog.Compatible.symm compatible⟩)

/-- The scan answers and does what the search through all base states would. It looks at a part of
these in the same order, and a comparison with any of the others rejects it and changes nothing. -/
structure Exhausts (s : Session) (g : Sighting) : Prop where
  agree : ∃ k s', windowScan g s = .ok (k, s') ∧ exhaustiveScan g s = .ok (k, s')
  part : ∃ bases, windowBases s g = .ok bases ∧ bases.Sublist (baseStates s.model) ∧
    ∀ b ∈ baseStates s.model, b ∉ bases → ∃ c,
      s.model.compare g.state b s.model.policy.strictScan = .ok (c, s.model) ∧
        c.verdict = .notEquivalent

theorem Sound.exhausts (h : s.Sound) {so : State}
    (observed : s.model.graph.states.get? g.state = some so) (running : so.version = .running)
    (fresh : s.ledger.basesOf g.snapshot = []) : s.Exhausts g := by
  obtain ⟨es, p, all, part, skipped⟩ := windowBases_eq h.model.states.comparable observed running
    fresh s.model.policy.strictScan
  refine ⟨?_, _, part, ?_, ?_⟩
  · obtain ⟨⟨k, s'⟩, scanned⟩ := windowScan_succeeds h (Arena.contains_of_get? observed)
    refine ⟨k, s', scanned, ?_⟩
    rw [← scanned, windowScan, part, exhaustiveScan, all]
    simp only [firstEquivalent, ← search_filter skipped, bind, Except.bind]
  · rw [all]
    exact List.filter_sublist.map Prod.fst
  · intro b mem left
    rw [all] at mem
    obtain ⟨e, entry, rfl⟩ := List.mem_map.1 mem
    refine skipped s (.refl s) e entry (Bool.eq_false_iff.2 fun kept => left ?_)
    exact List.mem_map.2 ⟨e, List.mem_filter.2 ⟨entry, kept⟩, rfl⟩

/-- The selection of candidates loses nothing, also where the scan is reached in a check. -/
theorem Used.scan_exhausts (used : s.Used) (wf : s.model.WellFormed) :
    (∀ g so, s.model.graph.states.get? g.state = some so → so.version = .running →
      s.ledger.basesOf g.snapshot = [] → s.Exhausts g) ∧
    ∀ o g s₁ s₂, o.Live s.model → s.sight o = .ok (some g, s₁) →
      firstOf Classifier.all.dropLast g s₁ = .ok (none, s₂) →
      s₂.ledger.basesOf g.snapshot = [] → s₂.Exhausts g := by
  have sound := used.sound wf
  refine ⟨fun g so => sound.exhausts, fun o g s₁ s₂ live sighted passed => ?_⟩
  obtain ⟨⟨⟨so, observed, -, running⟩, -, -⟩, passed⟩ := passed_to_scan passed
  rw [← passed.aside.graph] at observed
  exact ((sound.sight live sighted).1.passed passed).exhausts observed running

end Session

def Model.turned : Model where
  catalog := ((Catalog.openWindow {} "Main" "main" .activity .base).2.openWindow "Help" "help"
    .activity .base).2
  actions := (ActionTable.intern {} ⟨1⟩ { kind := .pressBack }).2
  graph := Graph.withEdge
    { states := ((((Arena.add ∅
        { window := ⟨1⟩, version := .base }).2.add
        { window := ⟨0⟩, version := .base, rotation := .landscape }).2.add
        { window := ⟨0⟩, version := .base }).2.add
        { window := ⟨0⟩, version := .running }).2 }
    { source := ⟨0⟩, action := ⟨0⟩, dest := ⟨3⟩, version := .running } ∅
  snapshots := (Arena.add ∅ { windowClass := "Main", elements := [{}] }).2

namespace Session

open Classifier

theorem built_turned : Built { model := .turned } := by
  have main := (Built.start {} hash).edit (.openWindow "Main" "main" .activity .base)
  have window := main.edit (.openWindow "Help" "help" .activity .base)
  have help := window.addState ⟨1⟩ .base [] rfl
  have turned := help.addState ⟨0⟩ .base [.rotation .landscape] rfl
  have alike := turned.addState ⟨0⟩ .base [] rfl
  have running := alike.addState ⟨0⟩ .running [] rfl
  have back := running.edit (@Model.Edit.internAction _ ⟨1⟩ { kind := .pressBack } _ _ rfl)
  have returned := back.withEdge
    { source := ⟨0⟩, action := ⟨0⟩, dest := ⟨3⟩, version := .running } ∅
    rfl rfl (.of_all rfl rfl)
  exact returned.edit (.addSnapshot { windowClass := "Main", elements := [{}] })

theorem scan_exhausts_turned : ∃ g s₁ s₂ s',
    sight { model := .turned } ⟨⟨0⟩, ⟨3⟩, ⟨0⟩, none⟩ = .ok (some g, s₁) ∧
    firstOf Classifier.all.dropLast g s₁ = .ok (none, s₂) ∧
    baseStates s₂.model = [⟨0⟩, ⟨1⟩, ⟨2⟩] ∧ windowBases s₂ g = .ok [⟨2⟩] ∧
    windowScan g s₂ = .ok (some (.equivalent ⟨2⟩ .avmMatch), s') ∧
    exhaustiveScan g s₂ = .ok (some (.equivalent ⟨2⟩ .avmMatch), s') := by
  have evaluated : ((sight { model := .turned } ⟨⟨0⟩, ⟨3⟩, ⟨0⟩, none⟩).toOption.bind fun r =>
      r.1.bind fun g => (firstOf Classifier.all.dropLast g r.2).toOption.map fun q =>
        (q.1.isNone && (q.2.ledger.basesOf g.snapshot).isEmpty, baseStates q.2.model,
          (windowBases q.2 g).toOption, (windowScan g q.2).toOption.map (·.1))) =
      some (true, [⟨0⟩, ⟨1⟩, ⟨2⟩], some [⟨2⟩], some (some (.equivalent ⟨2⟩ .avmMatch))) := by
    decide +kernel
  obtain ⟨⟨seen, s₁⟩, sighted, evaluated⟩ := Option.bind_eq_some_iff.1 evaluated
  obtain ⟨g, rfl, evaluated⟩ := Option.bind_eq_some_iff.1 evaluated
  obtain ⟨⟨k, s₂⟩, passed, evaluated⟩ := Option.map_eq_some_iff.1 evaluated
  obtain ⟨undecided, evaluated⟩ := Prod.mk.inj evaluated
  obtain ⟨undecided, fresh⟩ := Bool.and_eq_true_iff.1 undecided
  cases Option.isNone_iff_eq_none.1 undecided
  obtain ⟨all, evaluated⟩ := Prod.mk.inj evaluated
  obtain ⟨part, answer⟩ := Prod.mk.inj evaluated
  have sighted := toOption_eq_some.1 sighted
  have passed := toOption_eq_some.1 passed
  obtain ⟨-, inCheck⟩ := (Used.start .turned).scan_exhausts built_turned.sound.model
  obtain ⟨k, s', scanned, exhausted⟩ :=
    (inCheck ⟨⟨0⟩, ⟨3⟩, ⟨0⟩, none⟩ g s₁ s₂ ⟨rfl, rfl, rfl, nofun⟩ sighted passed
      (List.isEmpty_iff.1 fresh)).agree
  rw [scanned] at answer
  cases Option.some.inj answer
  exact ⟨g, s₁, s₂, s', sighted, passed, all, toOption_eq_some.1 part, scanned, exhausted⟩

end Session

end ScreenGraph
