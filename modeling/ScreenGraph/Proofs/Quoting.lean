import ScreenGraph.Proofs.Drawing

namespace ScreenGraph.Dot

def Statement.label? : Statement → Option String
  | .clusterLabel label | .node _ _ label | .edge _ _ _ label _ => some label
  | _ => none

inductive LabelOf (m : Model) : String → Prop
  | window {w : WindowId} {win : Window} (live : m.catalog.windows.get? w = some win) :
      LabelOf m win.className
  | state {s : StateId} {st : State} (live : m.graph.states.get? s = some st) :
      LabelOf m (stateLabel s st)
  | transition {id : TransitionId} {t : Transition} {a : Action}
      (live : m.graph.transitions.get? id = some t) (named : m.actions.action t.action = .ok a) :
      LabelOf m (id.label ++ ": " ++ a.label)

/-- Whatever comes after its line, a label is read from its opening quote on as it is, and what is
left is what stands behind its closing quote. -/
def Statement.Legible (st : Statement) (label : String) : Prop :=
  ∃ before after, st.render = before ++ "label=" ++ quote label ++ after ∧
    ∀ rest, readQuoted ((quote label).toList ++ (after.toList ++ rest)) =
      some (label.toList, after.toList ++ rest)

section

variable {m : Model} {style : Style} {sts : List Statement} {st : Statement} {label : String}

theorem Statement.legible (labelled : st.label? = some label) : st.Legible label := by
  have first : "" ++ "label=" = "label=" := by decide
  have later : ", label=" = ", " ++ "label=" := by decide
  have parts : ∃ before after, st.render = before ++ "label=" ++ quote label ++ after := by
    -- the lines are written out here, since the equations of the rendering are slow to make
    cases st with
    | clusterLabel =>
      cases labelled
      refine ⟨"", ";", ?_⟩
      rw [first]
      rfl
    | node s shape =>
      cases labelled
      refine ⟨toString s.index ++ " [shape=" ++ shape ++ ", ", "];", ?_⟩
      change toString s.index ++ " [shape=" ++ shape ++ ", label=" ++ quote label ++ "];" = _
      simp only [later, String.append_assoc]
    | edge source dest line _ color =>
      cases labelled
      refine ⟨toString source.index ++ " -> " ++ toString dest.index ++ " [style=" ++ line ++ ", ",
        ((color.map fun c => ", color=" ++ c).getD "") ++ "];", ?_⟩
      change toString source.index ++ " -> " ++ toString dest.index ++ " [style=" ++ line ++
        ", label=" ++ quote label ++ ((color.map fun c => ", color=" ++ c).getD "") ++ "];" = _
      simp only [later, String.append_assoc]
    | _ => cases labelled
  obtain ⟨before, after, text⟩ := parts
  exact ⟨before, after, text, fun rest => readQuoted_append label _⟩

theorem className_of_clusterLabel (ok : statements m style = .ok sts)
    (mem : .clusterLabel label ∈ sts) : ∃ w win, m.catalog.windows.get? w = some win ∧
      win.className = label := by
  obtain ⟨nodes, lines, hnodes, traced, rfl⟩ := statements_parts ok
  simp only [List.mem_append, List.mem_cons, List.not_mem_nil, or_false, reduceCtorEq,
    false_or] at mem
  rcases mem with mem | mem
  · obtain ⟨w, -, bs, made, mem⟩ := (mem_flatMapChecked hnodes).1 mem
    obtain ⟨win, live, rfl⟩ := windowStatements_eq_ok.1 made
    have free : .clusterLabel label ∉ nodesOf m.graph style w := by
      intro mem
      obtain ⟨s, state, -, other⟩ := mem_nodesOf.1 mem
      cases other
    split at mem
    · simp only [List.mem_append, List.mem_cons, List.not_mem_nil, or_false, reduceCtorEq,
        false_or, free, Statement.clusterLabel.injEq] at mem
      exact ⟨w, win, live, mem.symm⟩
    · exact absurd mem free
  · cases isEdge_of_traced traced mem

theorem labelOf_statements (ok : statements m style = .ok sts) (mem : st ∈ sts)
    (labelled : st.label? = some label) : LabelOf m label := by
  rcases mem_statements ok mem with ⟨s, state, ⟨live, -⟩, rfl⟩ | ⟨⟨id, t⟩, shown, a, named, rfl⟩ |
    rfl | rfl | ⟨w, rfl⟩ | ⟨l, rfl⟩ | rfl
  · cases labelled
    exact .state live
  · cases labelled
    exact .transition (mem_shownTransitions.1 shown).1 named
  case inr.inr.inr.inr.inr.inl =>
    cases labelled
    obtain ⟨w, win, live, rfl⟩ := className_of_clusterLabel ok mem
    exact .window live
  all_goals cases labelled

end

theorem escape_digits (n : Nat) : escape (toString n).toList = (toString n).toList := by
  have digits : ∀ c ∈ Nat.toDigits 10 n, c.isDigit = true :=
    fun c => Nat.isDigit_of_mem_toDigits (by decide) (by decide)
  rw [Nat.toString_eq_repr, Nat.toList_repr]
  exact escape_eq_self (fun mem => by cases digits _ mem) (fun mem => by cases digits _ mem)

theorem escape_stateLabel (id : StateId) (s : State) :
    escape (stateLabel id s).toList = (stateLabel id s).toList := by
  have version : escape s.version.label.toList = s.version.label.toList := by
    cases s.version <;> decide
  have marks (b : Bool) : ∀ mark ∈ [" initial", " home"],
      escape (if b then mark else "").toList = (if b then mark else "").toList := by
    cases b <;> decide
  have initial := marks s.isInitial " initial" (by simp)
  have home := marks s.isHome " home" (by simp)
  have letter : escape (Entity.letter .state).toList = (Entity.letter .state).toList := by decide
  have opening : escape " (".toList = " (".toList := by decide
  have closing : escape ")".toList = ")".toList := by decide
  simp only [stateLabel, Handle.label, String.toList_append, escape_append, escape_digits, version,
    initial, home, letter, opening, closing]

theorem quote_stateLabel (id : StateId) (s : State) :
    quote (stateLabel id s) = "\"" ++ stateLabel id s ++ "\"" := by
  rw [quote, escape_stateLabel]
  apply String.toList_injective
  simp

/-- Escaping loses nothing: what is escaped is read as it was, and the reading never breaks off. So
every label of a drawing ends at the quote that closes it. -/
theorem escape_reads_back :
    (∀ s : List Char,
      escape s = replace '"' ['\\', '"'] (replace '\\' ['\\', '\\'] s) ∧
      unescape (escape s) = .ok s ∧
      Enclosable (escape s) ∧
      (∀ rest, readLabel (escape s ++ '"' :: rest) = some (s, rest)) ∧
      ('"' ∈ s → unescape (replace '\\' ['\\', '\\'] (replace '"' ['\\', '"'] s)) =
        .error .bareQuote)) ∧
    (∀ id s, quote (stateLabel id s) = "\"" ++ stateLabel id s ++ "\"") ∧
    ∀ m style text, draw m style = .ok text →
      ∃ sts, statements m style = .ok sts ∧ text = render sts ∧
        ∀ st ∈ sts, ∀ label ∈ st.label?, LabelOf m label ∧ st.Legible label := by
  refine ⟨fun s => ?_, quote_stateLabel, fun m style text drawn => ?_⟩
  · exact ⟨escape_eq_replace s, unescape_escape s, enclosable_escape s, readLabel_append s,
      unescape_quotes_first⟩
  · obtain ⟨sts, ok, written⟩ := Checked.bind_eq_ok.1 drawn
    refine ⟨sts, ok, (pure_eq_ok.1 written).symm, fun st mem label labelled => ?_⟩
    exact ⟨labelOf_statements ok mem labelled, Statement.legible labelled⟩

def sending : Model where
  catalog := { windows := (Arena.add ∅
    { className := "Ma\"in\\", identifier := "main", kind := .activity, version := .base }).2 }
  actions := (ActionTable.intern {} ⟨0⟩ { kind := .sendIntent "\\\"" }).2
  graph := Graph.withEdge { states := (Arena.add ∅ { window := ⟨0⟩, version := .base }).2 }
    { source := ⟨0⟩, action := ⟨0⟩, dest := ⟨0⟩, version := .base } ∅

theorem escape_reads_back_sending : ∃ sts, draw sending {} = .ok (render sts) ∧
    sts.filterMap Statement.label? = ["Ma\"in\\", "S1 (BASE)", "T1: SendIntent(\\\")"] ∧
    ∀ st ∈ sts, ∀ label ∈ st.label?, LabelOf sending label ∧ st.Legible label := by
  have labels : (statements sending {}).toOption.map (·.filterMap Statement.label?) =
      some ["Ma\"in\\", "S1 (BASE)", "T1: SendIntent(\\\")"] := by decide +kernel
  cases ok : statements sending {} with
  | error fault =>
    rw [ok] at labels
    cases labels
  | ok sts =>
    rw [ok] at labels
    have drawn : draw sending {} = .ok (render sts) := Checked.bind_eq_ok.2 ⟨sts, ok, rfl⟩
    obtain ⟨sts', ok', -, legible⟩ := escape_reads_back.2.2 sending {} _ drawn
    cases ok.symm.trans ok'
    exact ⟨sts, drawn, Option.some.inj labels, legible⟩

end ScreenGraph.Dot
