import ScreenGraph.Proofs.Copying
import ScreenGraph.Proofs.Recording
import ScreenGraph.Proofs.Tabulating

namespace ScreenGraph

namespace Report

variable {r : Report}

structure Line where
  source : String
  action : Action
  dest : String

namespace Line

variable {l : Line} {c : Char}

def label (l : Line) : String := l.source ++ ";" ++ l.action.label ++ ";" ++ l.dest

def fields (l : Line) : List String := ["Incorrect", l.source, l.action.label, l.dest]

/-- A separator is in none of the texts that a line is made of. It does no harm as a line feed in
the payload of an action that is not an intent. -/
structure Avoids (l : Line) (c : Char) : Prop where
  source : c ∉ l.source.toList
  action : c ∉ l.action.kind.data.toList ∨ c = '\n' ∧ l.action.type ≠ .sendIntent
  dest : c ∉ l.dest.toList

theorem avoids_iff (sep : Text.IsSeparator c) :
    l.Avoids c ↔ ∀ f ∈ l.fields, c ∉ f.toList := by
  have keyword : c ∉ "Incorrect".toList := by rcases sep with rfl | rfl <;> decide
  have action : c ∉ l.action.label.toList ↔
      c ∉ l.action.kind.data.toList ∨ c = '\n' ∧ l.action.type ≠ .sendIntent := by
    rw [Action.mem_label sep, not_and_or, Classical.not_imp]
  simp only [fields, List.forall_mem_cons, List.not_mem_nil, false_implies, implies_true, and_true,
    keyword, not_false_eq_true, true_and, action]
  exact ⟨fun h => ⟨h.source, h.action, h.dest⟩, fun h => ⟨h.1, h.2.1, h.2.2⟩⟩

theorem clean_iff : (∀ f ∈ l.fields, Text.IsClean f) ↔ l.Avoids ';' ∧ l.Avoids '\n' := by
  rw [avoids_iff (.inl rfl), avoids_iff (.inr rfl), ← forall₂_and]
  exact forall₂_congr fun _ _ => Text.isClean_iff

end Line

def heading (r : Report) : List (List String) :=
  [r.columns.map Prod.fst, r.columns.map fun c => toString c.2]

theorem heading_clean : ∀ row ∈ r.heading, row ≠ [] ∧ ∀ f ∈ row, Text.IsClean f := by
  intro row mem
  rcases List.mem_pair.1 mem with rfl | rfl
  · have names : ∀ f ∈ r.columns.map Prod.fst, ';' ∉ f.toList ∧ '\n' ∉ f.toList := by
      simp [columns]
    exact ⟨List.cons_ne_nil _ _, fun f field => Text.isClean_iff.2 (names f field)⟩
  · refine ⟨List.cons_ne_nil _ _, fun f field c sep => ?_⟩
    obtain ⟨column, -, rfl⟩ := List.mem_map.1 field
    exact sep.not_mem_toString column.2

theorem render_eq {ls : List Line} (same : r.incorrect = ls.map Line.label) :
    r.render = Text.written (r.heading ++ ls.map Line.fields) := by
  have rows (l : Line) : row ["Incorrect", l.label] = row l.fields := by
    apply String.toList_inj.1
    simp [row, Line.label, Line.fields]
  rw [render, lines, same, Text.written, List.map_append, List.map_map, List.map_map]
  simp only [Function.comp_def, rows]
  rfl

theorem table_render {ls : List Line} (same : r.incorrect = ls.map Line.label) :
    (Text.table r.render).take 2 = r.heading ∧
    ((Text.table r.render).length = 2 + ls.length ↔ ∀ l ∈ ls, l.Avoids '\n') ∧
    (Text.table r.render = r.heading ++ ls.map Line.fields ↔
      ∀ l ∈ ls, l.Avoids ';' ∧ l.Avoids '\n') := by
  have clean := heading_clean (r := r)
  have feeds : ∀ row ∈ r.heading, ∀ f ∈ row, '\n' ∉ f.toList :=
    fun row mem f field => (clean row mem).2 f field _ (.inr rfl)
  rw [render_eq same]
  refine ⟨?_, ?_, ?_⟩
  · obtain ⟨some, names⟩ := clean _ (.head _)
    obtain ⟨some', counts⟩ := clean _ (.tail _ (.head _))
    rw [heading, List.cons_append, List.cons_append, Text.table_cons some names,
      Text.table_cons some' counts]
    rfl
  · have length : (r.heading ++ ls.map Line.fields).length = 2 + ls.length := by
      rw [List.length_append, List.length_map]
      rfl
    rw [← length, Text.length_table_iff, List.forall_mem_append, and_iff_right feeds,
      List.forall_mem_map]
    exact forall₂_congr fun l _ => (Line.avoids_iff (.inr rfl)).symm
  · rw [Text.table_written_iff, List.forall_mem_append, List.forall_mem_map,
      and_iff_right fun row mem => (clean row mem).2]
    · exact forall₂_congr fun l _ => Line.clean_iff
    · intro row mem
      rcases List.mem_append.1 mem with mem | mem
      · exact (clean row mem).1
      · obtain ⟨l, -, rfl⟩ := List.mem_map.1 mem
        exact List.cons_ne_nil _ _

end Report

structure Model.Labels (m : Model) (k : EdgeKey) : Prop where
  source : m.graph.states.contains k.source = true
  dest : m.graph.states.contains k.dest = true
  action : m.actions.entries.contains k.action = true

namespace Model

variable {m m' : Model} {key : EdgeKey}

theorem Labels.extends (h : m.Labels key) (k : m.Extends m') : m'.Labels key :=
  ⟨k.state h.source, k.state h.dest, k.action h.action⟩

structure Refers (m : Model) : Prop where
  window : ∀ {s st}, m.graph.states.get? s = some st → m.catalog.windows.contains st.window = true
  edge : ∀ {id e}, m.graph.transitions.get? id = some e → m.Labels e.key

theorem WellFormed.refers (wf : m.WellFormed) : m.Refers where
  window := wf.states.window
  edge live := ⟨wf.graph.source live, wf.graph.dest live, (wf.edge live).action⟩

theorem Refers.windowClass_succeeds (refers : m.Refers) {s : StateId}
    (live : m.graph.states.contains s = true) : Succeeds (m.windowClass s) := by
  obtain ⟨st, hst⟩ := Arena.contains_iff.1 live
  exact (windowClass_succeeds_iff hst).2 (refers.window hst)

theorem Refers.edgeLabel_succeeds (refers : m.Refers) (labels : m.Labels key) :
    Succeeds (m.edgeLabel key) :=
  edgeLabel_succeeds_iff.2 ⟨refers.windowClass_succeeds labels.source,
    refers.windowClass_succeeds labels.dest, labels.action⟩

theorem Refers.edgeLabels_succeed (refers : m.Refers) {keys : List EdgeKey}
    (labels : ∀ k ∈ keys, m.Labels k) :
    Succeeds (flatMapChecked (fun k => return [← m.edgeLabel k]) keys) := by
  refine flatMapChecked_succeeds fun k mem => ?_
  exact (refers.edgeLabel_succeeds (labels k mem)).bind fun _ _ => succeeds_pure _

end Model

structure Model.Shows (m : Model) (k : EdgeKey) (l : Report.Line) : Prop where
  source : m.windowClass k.source = .ok l.source
  action : m.actions.action k.action = .ok l.action
  dest : m.windowClass k.dest = .ok l.dest

theorem Model.Shows.unique {m : Model} {k : EdgeKey} {l l' : Report.Line} (shows : m.Shows k l)
    (shows' : m.Shows k l') : l = l' := by
  obtain ⟨source, action, dest⟩ := l
  cases shows.source.symm.trans shows'.source
  cases shows.action.symm.trans shows'.action
  cases shows.dest.symm.trans shows'.dest
  rfl

theorem Model.edgeLabel_eq_ok {m : Model} {k : EdgeKey} {text : String} :
    m.edgeLabel k = .ok text ↔ ∃ l, m.Shows k l ∧ l.label = text := by
  simp only [edgeLabel, Checked.bind_eq_ok, pure_eq_ok]
  constructor
  · rintro ⟨source, hs, dest, hd, a, ha, rfl⟩
    exact ⟨⟨source, a, dest⟩, ⟨hs, ha, hd⟩, rfl⟩
  · rintro ⟨⟨source, a, dest⟩, ⟨hs, ha, hd⟩, rfl⟩
    exact ⟨source, hs, dest, hd, a, ha, rfl⟩

theorem Model.edgeLabels_eq_ok {m : Model} {keys : List EdgeKey} {texts : List String}
    (ok : flatMapChecked (fun k => return [← m.edgeLabel k]) keys = .ok texts) :
    ∃ ls, List.Forall₂ m.Shows keys ls ∧ texts = ls.map Report.Line.label := by
  induction keys generalizing texts with
  | nil =>
    cases ok
    exact ⟨[], .nil, rfl⟩
  | cons k keys ih =>
    obtain ⟨_, labelled, ok⟩ := Checked.bind_eq_ok.1 ok
    obtain ⟨rest, others, ok⟩ := Checked.bind_eq_ok.1 ok
    obtain ⟨text, label, done⟩ := Checked.bind_eq_ok.1 labelled
    cases done
    cases ok
    obtain ⟨l, shows, rfl⟩ := edgeLabel_eq_ok.1 label
    obtain ⟨ls, shown, rfl⟩ := ih others
    exact ⟨l :: ls, .cons shows shown, rfl⟩

namespace Session

variable {s s' : Session} {o : Observation} {g : Sighting} {k : Classification}

theorem report_lines (refers : s.model.Refers)
    (labels : ∀ k ∈ s.ledger.incorrect, s.model.Labels k) : ∃ r ls, s.report = .ok r ∧
      List.Forall₂ s.model.Shows s.ledger.incorrect.toList ls ∧
      r.incorrect = ls.map Report.Line.label ∧ r.incorrectTransitions = ls.length := by
  obtain ⟨texts, labelled⟩ := refers.edgeLabels_succeed labels
  obtain ⟨ls, shown, same⟩ := Model.edgeLabels_eq_ok labelled
  exact ⟨_, ls, Checked.bind_eq_ok.2 ⟨texts, labelled, rfl⟩, shown, same, shown.length_eq⟩

theorem register_incorrect {o b : StateId} {n : SnapshotId} {x : Matching}
    (ok : s.register o b n x = .ok s') : s'.ledger.incorrect = s.ledger.incorrect := by
  obtain ⟨-, rfl⟩ | ⟨-, plan, planned, entered, applied⟩ := register_cases ok
  · rfl
  · have book := (applyAll_keeps applied).book.trans (enter_aside entered).book
    exact (congrArg Ledger.incorrect book :)

theorem Answers.incorrect (answers : s.Answers g k s') :
    s'.ledger.incorrect = s.ledger.incorrect ∨
      s'.ledger.incorrect = s.ledger.incorrect.insertMany g.pruned := by
  cases answers with
  | homeScreen => exact .inl rfl
  | knownNew => exact .inl rfl
  | cached => exact .inl rfl
  | observedBase => exact .inl rfl
  | equivalent _ _ registered before =>
    rw [register_incorrect registered]
    rcases before with ⟨-, same⟩ | same
    · exact .inl (by rw [same])
    · exact .inr (by rw [same]; rfl)
  | reproduces _ _ registered _ _ before =>
    exact .inl ((register_incorrect registered).trans (by rw [before]))
  | @new s₁ _ _ refuted =>
    have same : s₁.ledger.incorrect = s.ledger.incorrect.insertMany g.pruned := by
      rw [refuted]
      rfl
    exact .inr same

theorem check_incorrect {c : Except Refusal Classification} (ok : s.check o = .ok (c, s')) :
    s'.ledger.incorrect = s.ledger.incorrect ∨
      ∃ keys, s.Prunes o keys ∧ s'.ledger.incorrect = s.ledger.incorrect.insertMany keys := by
  obtain ⟨r, -, rfl, rfl⟩ | ⟨-, sighted, rfl⟩ | ⟨-, g, s₁, k, sighted, classified, rfl⟩ :=
    check_eq_ok ok
  · exact .inl rfl
  · obtain ⟨n, ledger⟩ := sight_ledger sighted
    exact .inl (by rw [ledger])
  · obtain ⟨n, ledger⟩ := sight_ledger sighted
    have before : s₁.ledger.incorrect = s.ledger.incorrect := by rw [ledger]
    rw [← before]
    refine (classify_cases classified).incorrect.imp_right fun added => ?_
    exact ⟨g.pruned, ⟨some g, s₁, sighted, rfl⟩, added⟩

theorem Prunes.live {keys : List EdgeKey} (prunes : s.Prunes o keys) :
    ∀ k ∈ keys, ∃ id e, s.model.graph.transitions.get? id = some e ∧ e.key = k := by
  obtain ⟨seen, s₁, sighted, rfl⟩ := prunes
  obtain ⟨-, -, -, -, ⟨rfl, -⟩ | ⟨keys, s₂, pruned, -, rfl⟩⟩ := sight_eq_ok sighted
  · nofun
  obtain ⟨ids, g₁, -, removed, rfl⟩ := pruneObsolete_eq_ok pruned
  intro k mem
  obtain ⟨id, -, e, live, key⟩ := Graph.prune_key removed mem
  rw [attachSnapshot_transitions] at live
  exact ⟨id, e, live, key⟩

/-- Sessions that checks and registrations lead to, while the model grows in between. Every check
starts from a model that stores no handle of anything that is missing. -/
inductive Kept : Session → Prop
  | start (m : Model) : Kept { model := m }
  | grow {s m} (kept : Kept s) (more : s.model.Extends m) : Kept { s with model := m }
  | check {s o c s'} (kept : Kept s) (refers : s.model.Refers) (ok : s.check o = .ok (c, s')) :
      Kept s'
  | register {s k b n x s'} (kept : Kept s) (ok : s.register k b n x = .ok s') : Kept s'

theorem Kept.labels (kept : s.Kept) : ∀ k ∈ s.ledger.incorrect, s.model.Labels k := by
  induction kept with
  | start => exact nofun
  | grow _ more ih => exact fun k mem => (ih k mem).extends more
  | @check s o c s' _ refers ok ih =>
    intro k mem
    have more := check_extends ok
    rcases check_incorrect ok with same | ⟨keys, prunes, added⟩
    · exact (ih k (same ▸ mem)).extends more
    · rw [added] at mem
      rcases OrderedSet.mem_insertMany.1 mem with old | pruned
      · exact (ih k old).extends more
      · obtain ⟨id, e, live, rfl⟩ := prunes.live k pruned
        exact (refers.edge live).extends more
  | register _ ok ih =>
    intro k mem
    rw [register_incorrect ok] at mem
    exact (ih k mem).extends (register_keeps ok).extends

theorem Leads.incorrect (leads : s.Leads s') :
    s.ledger.incorrect.toList <+: s'.ledger.incorrect.toList := by
  induction leads with
  | refl => exact List.prefix_rfl
  | change _ ih => exact ih
  | check _ ok ih =>
    refine ih.trans ?_
    rcases check_incorrect ok with same | ⟨keys, -, added⟩
    · exact same.symm ▸ List.prefix_rfl
    · exact added.symm ▸ OrderedSet.toList_insertMany ..
  | register _ ok ih => exact (register_incorrect ok).symm ▸ ih

/-- Every report goes through, and its header and its counts can be read back. It has a line for
each incorrect edge, in the order in which these were found, exactly if no line feed is in the class
of a window or in an intent. The fields of all lines are read back exactly if there is no semicolon
in a class or in a payload either. -/
theorem Kept.report_reads (kept : s.Kept) (refers : s.model.Refers) : ∃ r ls,
    s.report = .ok r ∧ List.Forall₂ s.model.Shows s.ledger.incorrect.toList ls ∧
    r.incorrectTransitions = ls.length ∧ (Text.table r.render).take 2 = r.heading ∧
    ((Text.table r.render).length = 2 + ls.length ↔ ∀ l ∈ ls, l.Avoids '\n') ∧
    (Text.table r.render = r.heading ++ ls.map Report.Line.fields ↔
      ∀ l ∈ ls, l.Avoids ';' ∧ l.Avoids '\n') ∧
    ∀ s', s.Leads s' → s.ledger.incorrect.toList <+: s'.ledger.incorrect.toList := by
  obtain ⟨r, ls, reported, shown, same, counted⟩ := report_lines refers kept.labels
  obtain ⟨heading, lines, table⟩ := Report.table_render same
  exact ⟨r, ls, reported, shown, counted, heading, lines, table, fun _ leads => leads.incorrect⟩

end Session

def Model.diverted (intent : String) : Model where
  catalog := ((Catalog.openWindow {} "Main" "main" .activity .base).2.openWindow
    "Error" "error" .activity .running).2
  actions := (ActionTable.intern {} ⟨0⟩ { kind := .sendIntent intent }).2
  graph := Graph.withEdge
    (Graph.withEdge
      { states := (((Arena.add ∅ { window := ⟨0⟩, version := .base }).2.add
          { window := ⟨0⟩, version := .base }).2.add
          { window := ⟨1⟩, version := .running }).2 }
      { source := ⟨0⟩, action := ⟨0⟩, dest := ⟨1⟩, version := .base } ∅)
    { source := ⟨0⟩, action := ⟨0⟩, dest := ⟨2⟩, version := .running } ∅
  snapshots := (Arena.add ∅ { windowClass := "Error", elements := [{}] }).2

namespace Session

theorem built_diverted (intent : String) : Built { model := .diverted intent } := by
  have main := (Built.start {} hash).edit (.openWindow "Main" "main" .activity .base)
  have error := main.edit (.openWindow "Error" "error" .activity .running)
  have first := error.addState ⟨0⟩ .base [] rfl
  have second := first.addState ⟨0⟩ .base [] rfl
  have seen := second.addState ⟨1⟩ .running [] rfl
  have sent := seen.edit (@Model.Edit.internAction _ ⟨0⟩ { kind := .sendIntent intent } _ _ rfl)
  have expected := sent.withEdge
    { source := ⟨0⟩, action := ⟨0⟩, dest := ⟨1⟩, version := .base } ∅ rfl rfl (.of_all rfl rfl)
  have led := expected.withEdge
    { source := ⟨0⟩, action := ⟨0⟩, dest := ⟨2⟩, version := .running } ∅ rfl rfl (.of_all rfl rfl)
  exact led.edit (.addSnapshot { windowClass := "Error", elements := [{}] })

theorem check_diverted (intent : String) : ∃ c s',
    check { model := .diverted intent } ⟨⟨0⟩, ⟨2⟩, ⟨1⟩, none⟩ = .ok (c, s') ∧ Kept s' ∧
    s'.model.Refers ∧ s'.ledger.incorrect.toList = [⟨⟨0⟩, ⟨0⟩, ⟨1⟩⟩] ∧
    s'.model.Shows ⟨⟨0⟩, ⟨0⟩, ⟨1⟩⟩ ⟨"Main", { kind := .sendIntent intent }, "Main"⟩ := by
  obtain ⟨c, s', checked, found⟩ : ∃ c s',
      check { model := .diverted intent } ⟨⟨0⟩, ⟨2⟩, ⟨1⟩, none⟩ = .ok (c, s') ∧
      s'.ledger.incorrect.toList = [⟨⟨0⟩, ⟨0⟩, ⟨1⟩⟩] ∧
      s'.model.Shows ⟨⟨0⟩, ⟨0⟩, ⟨1⟩⟩ ⟨"Main", { kind := .sendIntent intent }, "Main"⟩ :=
    ⟨_, _, rfl, rfl, rfl, rfl, rfl⟩
  have built := built_diverted intent
  have kept := (Kept.start _).check built.sound.model.refers checked
  exact ⟨c, s', checked, kept, (built.check checked).sound.model.refers, found⟩

/-- An intent goes into its line as it is, and a line feed in it makes two lines of one. -/
theorem not_tabular_diverted : ¬ ∀ s r ls, Kept s → s.model.Refers → s.report = .ok r →
    List.Forall₂ s.model.Shows s.ledger.incorrect.toList ls →
    (Text.table r.render).length = 2 + ls.length ∧
      Text.table r.render = r.heading ++ ls.map Report.Line.fields := by
  intro tabular
  obtain ⟨-, s', -, kept, refers, incorrect, shows⟩ := check_diverted "a\nb"
  obtain ⟨r, ls, reported, shown, same, -⟩ := report_lines refers kept.labels
  obtain ⟨length, -⟩ := tabular s' r ls kept refers reported shown
  have avoids := (Report.table_render same).2.1.1 length
  rw [incorrect] at shown
  obtain _ | ⟨line, -⟩ := shown
  cases line.unique shows
  rcases (avoids _ (.head _)).action with absent | ⟨-, other⟩
  · exact absurd absent (by decide)
  · exact other rfl

theorem report_reads_diverted : ∃ c s' r,
    check { model := .diverted "open" } ⟨⟨0⟩, ⟨2⟩, ⟨1⟩, none⟩ = .ok (c, s') ∧
    s'.report = .ok r ∧ Text.table r.render =
      r.heading ++ [["Incorrect", "Main", "SendIntent(open)", "Main"]] := by
  obtain ⟨c, s', checked, kept, refers, incorrect, shows⟩ := check_diverted "open"
  obtain ⟨r, ls, reported, shown, -, -, -, table, -⟩ := kept.report_reads refers
  rw [incorrect] at shown
  obtain _ | ⟨line, rest⟩ := shown
  cases rest
  cases line.unique shows
  refine ⟨c, s', r, checked, reported, table.2 ?_⟩
  intro l mem
  rw [List.mem_singleton.1 mem]
  exact ⟨⟨by decide, .inl (by decide), by decide⟩, ⟨by decide, .inl (by decide), by decide⟩⟩

end Session

end ScreenGraph
