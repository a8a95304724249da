import Mathlib.Data.List.Basic
import ScreenGraph.Proofs.Escaping

/-!
Drawings read back. A label ends at the first quote that does not stand after a backslash. The words
for shapes, lines and colours are written as they are, so a word that brings a comma or a bracket of
its own is not read as one word, unless it is quoted. All other words are, and then the statements
that are read are those that were written.
-/

namespace ScreenGraph.Dot

variable {s rest : List Char} {c : Char} {inside : Bool}

def expect (start : String) (s : List Char) : Option (List Char) := start.toList.isPrefixOf? s

def readNumber (s : List Char) : Option (Nat × List Char) :=
  let digits := s.takeWhile Char.isDigit
  if digits.isEmpty then none
  else some (Nat.ofDigitChars 10 digits 0, s.dropWhile Char.isDigit)

def readHandle {e : Entity} (s : List Char) : Option (Handle e × List Char) := do
  let (n, rest) ← readNumber s
  return (← Handle.ofIndex? n, rest)

def readLabel : List Char → Option (List Char × List Char)
  | [] => none
  | '"' :: rest => some ([], rest)
  | '\\' :: c :: rest => (readLabel rest).map fun (label, rest) => (c :: label, rest)
  | c :: rest => (readLabel rest).map fun (label, rest) => (c :: label, rest)

/-- A word up to the comma or the bracket that ends it, where what is quoted is one unit. -/
def readWord : Bool → List Char → Option (List Char × List Char)
  | _, [] => none
  | true, '\\' :: c :: rest =>
    (readWord true rest).map fun (word, rest) => ('\\' :: c :: word, rest)
  | inside, c :: rest =>
    if !inside && (c = ',' || c = ']') then some ([], c :: rest)
    else (readWord (inside != (c = '"')) rest).map fun (word, rest) => (c :: word, rest)

/-- Text in which all quotes are closed and no comma and no bracket stands outside of them. -/
def isWord : Bool → List Char → Bool
  | inside, [] => !inside
  | true, '\\' :: _ :: rest => isWord true rest
  | inside, c :: rest => (inside || c ≠ ',' && c ≠ ']') && isWord (inside != (c = '"')) rest

def readQuoted (s : List Char) : Option (List Char × List Char) := do
  readLabel (← expect "\"" s)

def readNode (state : StateId) (s : List Char) : Option (Statement × List Char) := do
  let (shape, s) ← readWord false s
  let (label, s) ← readQuoted (← expect ", label=" s)
  return (.node state (.ofList shape) (.ofList label), ← expect "];" s)

def readColor (s : List Char) : Option (Option String × List Char) :=
  match expect ", color=" s with
  | none => some (none, s)
  | some s => (readWord false s).map fun (color, s) => (some (.ofList color), s)

def readEdge (source : StateId) (s : List Char) : Option (Statement × List Char) := do
  let (dest, s) ← readHandle s
  let (line, s) ← readWord false (← expect " [style=" s)
  let (label, s) ← readQuoted (← expect ", label=" s)
  let (color, s) ← readColor s
  return (.edge source dest (.ofList line) (.ofList label) color, ← expect "];" s)

def readNumbered (s : List Char) : Option (Statement × List Char) := do
  let (state, s) ← readHandle s
  match expect " [shape=" s with
  | some s => readNode state s
  | none => readEdge state (← expect " -> " s)

def readGraph (s : List Char) : Option (Statement × List Char) :=
  return (.graph, ← expect "digraph \x7b" s)

def readDefaultShape (s : List Char) : Option (Statement × List Char) := do
  let (shape, s) ← readWord false (← expect "node [shape=" s)
  return (.defaultShape (.ofList shape), ← expect "];" s)

def readCluster (s : List Char) : Option (Statement × List Char) := do
  let (window, s) ← readHandle (← expect "subgraph cluster_" s)
  return (.cluster window, ← expect " \x7b" s)

def readClusterLabel (s : List Char) : Option (Statement × List Char) := do
  let (label, s) ← readQuoted (← expect "label=" s)
  return (.clusterLabel (.ofList label), ← expect ";" s)

def readClose (s : List Char) : Option (Statement × List Char) :=
  return (.close, ← expect "\x7d" s)

def readStatement (s : List Char) : Option (Statement × List Char) :=
  match s.head? with
  | some 'd' => readGraph s
  | some 'n' => readDefaultShape s
  | some 's' => readCluster s
  | some 'l' => readClusterLabel s
  | some '\x7d' => readClose s
  | _ => readNumbered s

def readLine (s : List Char) : Option (Statement × List Char) := do
  let (statement, s) ← readStatement s
  return (statement, ← expect "\n" s)

def readAll (s : List Char) : Option (List Statement) :=
  match s with
  | [] => some []
  | c :: r =>
    match readLine (c :: r) with
    | none => none
    | some (statement, rest) =>
      if _ : rest.length < (c :: r).length then (readAll rest).map (statement :: ·) else none
termination_by s.length
decreasing_by assumption

@[simp] theorem expect_append (start : String) (s : List Char) :
    expect start (start.toList ++ s) = some s :=
  List.isPrefixOf?_eq_some_iff_append_eq.2 rfl

theorem readNumber_append (n : Nat) (stop : s.takeWhile Char.isDigit = []) :
    readNumber ((toString n).toList ++ s) = some (n, s) := by
  have digits : ∀ d ∈ Nat.toDigits 10 n, d.isDigit = true :=
    fun d => Nat.isDigit_of_mem_toDigits (by decide) (by decide)
  have rest : s.dropWhile Char.isDigit = s := by
    simpa [stop] using List.takeWhile_append_dropWhile (p := Char.isDigit) (l := s)
  rw [Nat.toString_eq_repr, Nat.toList_repr, readNumber, List.takeWhile_append_of_pos digits,
    List.dropWhile_append_of_pos digits]
  simp [stop, rest, Nat.toDigits_ne_nil, Nat.ofDigitChars_toDigits]

theorem readHandle_append {e : Entity} (h : Handle e) (stop : s.takeWhile Char.isDigit = []) :
    readHandle ((toString h.index).toList ++ s) = some (h, s) := by
  rw [readHandle, readNumber_append h.index stop]
  simp [Handle.ofIndex?_index]

theorem readLabel_of_unescape {t : List Char} (ok : unescape t = .ok s) (rest : List Char) :
    readLabel (t ++ '"' :: rest) = some (s, rest) := by
  fun_induction unescape t generalizing s with
  | case1 =>
    cases ok
    rfl
  | case2 => cases ok
  | case3 c t ih =>
    obtain ⟨label, inner, rfl⟩ := map_cons_eq_ok.1 ok
    rw [List.cons_append, List.cons_append, readLabel, ih inner]
    rfl
  | case4 => cases ok
  | case5 c t lone taken quote ih =>
    obtain ⟨label, inner, rfl⟩ := map_cons_eq_ok.1 ok
    have next : readLabel (c :: (t ++ '"' :: rest)) =
        (readLabel (t ++ '"' :: rest)).map fun (label, rest) => (c :: label, rest) := by
      rw [readLabel]
      · exact quote
      · exact fun _ _ slash => absurd slash (ne_backslash lone taken)
    rw [List.cons_append, next, ih inner]
    rfl

theorem readLabel_append (label rest : List Char) :
    readLabel (escape label ++ '"' :: rest) = some (label, rest) :=
  readLabel_of_unescape (unescape_escape label) rest

theorem readQuoted_append (label : String) (s : List Char) :
    readQuoted ((quote label).toList ++ s) = some (label.toList, s) := by
  have text : (quote label).toList ++ s =
      "\"".toList ++ (escape label.toList ++ '"' :: s) := by simp [quote]
  rw [text, readQuoted, expect_append]
  exact readLabel_append label.toList s

theorem readWord_append (word : isWord inside s = true)
    (stop : rest.head? = some ',' ∨ rest.head? = some ']') :
    readWord inside (s ++ rest) = some (s, rest) := by
  fun_induction isWord inside s with
  | case1 inside =>
    rw [Bool.not_eq_true'] at word
    cases rest with
    | nil => simp at stop
    | cons c rest =>
      simp only [List.head?_cons, Option.some.injEq] at stop
      rcases stop with rfl | rfl <;> simp [readWord, word]
  | case2 d s ih => simp [readWord, ih word]
  | case3 inside d s other ih =>
    rw [Bool.and_eq_true] at word
    obtain ⟨open', closed⟩ := word
    -- a backslash at the very end would leave the quote open
    have plain : inside = true → d ≠ '\\' := by
      rintro rfl rfl
      cases s with
      | nil => cases closed
      | cons d s => exact other d s rfl rfl rfl
    have goes : (!inside && (decide (d = ',') || decide (d = ']'))) = false := by
      cases inside <;> simp_all
    rw [List.cons_append, readWord, ih closed]
    · simp [goes]
    · exact fun _ _ inside' slash => absurd slash (plain inside')

def Statement.Plain : Statement → Prop
  | .defaultShape shape => isWord false shape.toList = true
  | .node _ shape _ => isWord false shape.toList = true
  | .edge _ _ line _ color =>
    isWord false line.toList = true ∧ ∀ word ∈ color, isWord false word.toList = true
  | _ => True

theorem readStatement_numbered (n : Nat) (s : List Char) :
    readStatement ((toString n).toList ++ s) = readNumbered ((toString n).toList ++ s) := by
  rw [Nat.toString_eq_repr, Nat.toList_repr]
  obtain ⟨d, digits, cut⟩ := List.exists_cons_of_ne_nil (Nat.toDigits_ne_nil (n := n) (b := 10))
  have digit : d.isDigit = true := by
    refine Nat.isDigit_of_mem_toDigits (b := 10) (n := n) (by decide) (by decide) ?_
    rw [cut]
    exact .head digits
  rw [cut, List.cons_append]
  unfold readStatement
  split
  case h_6 => rfl
  all_goals
    next begins =>
      cases Option.some.inj begins
      cases digit

theorem readNode_append (state : StateId) {shape : String} (word : isWord false shape.toList = true)
    (label : String) (s : List Char) :
    readNode state (shape.toList ++ (", label=".toList ++ ((quote label).toList ++
      ("];".toList ++ s)))) = some (.node state shape label, s) := by
  rw [readNode, readWord_append word (.inl (by simp))]
  simp only [Option.bind_eq_bind, Option.bind_some, expect_append, readQuoted_append,
    String.ofList_toList]
  rfl

theorem readColor_append {color : Option String}
    (word : ∀ word ∈ color, isWord false word.toList = true) (s : List Char) :
    readColor (((color.map fun c => ", color=" ++ c).getD "").toList ++ ("];".toList ++ s)) =
      some (color, "];".toList ++ s) := by
  cases color with
  | none => rfl
  | some c =>
    have word := word c rfl
    rw [readColor]
    simp only [Option.map_some, Option.getD_some, String.toList_append,
      List.append_assoc, expect_append]
    rw [readWord_append word (.inr (by simp))]
    simp

theorem readEdge_append (source dest : StateId) {line : String} {color : Option String}
    (word : isWord false line.toList = true)
    (words : ∀ word ∈ color, isWord false word.toList = true) (label : String) (s : List Char) :
    readEdge source ((toString dest.index).toList ++ (" [style=".toList ++ (line.toList ++
      (", label=".toList ++ ((quote label).toList ++
        (((color.map fun c => ", color=" ++ c).getD "").toList ++ ("];".toList ++ s))))))) =
      some (.edge source dest line label color, s) := by
  rw [readEdge, readHandle_append dest (by simp)]
  simp only [Option.bind_eq_bind, Option.bind_some, expect_append]
  rw [readWord_append word (.inl (by simp))]
  simp only [Option.bind_some, expect_append, readQuoted_append, readColor_append words,
    String.ofList_toList]
  rfl

theorem readStatement_render {statement : Statement} (plain : statement.Plain) (s : List Char) :
    readStatement (statement.render.toList ++ s) = some (statement, s) := by
  cases statement with
  | graph =>
    have begins : ("digraph \x7b".toList ++ s).head? = some 'd' := by simp
    change readStatement ("digraph \x7b".toList ++ s) = _
    rw [readStatement, begins]
    simp only [readGraph, expect_append]
    rfl
  | defaultShape shape =>
    have begins (s : List Char) : ("node [shape=".toList ++ s).head? = some 'n' := by simp
    change readStatement (("node [shape=" ++ shape ++ "];").toList ++ s) = _
    rw [String.toList_append, String.toList_append, List.append_assoc, List.append_assoc,
      readStatement, begins]
    simp only [readDefaultShape, expect_append, Option.bind_eq_bind, Option.bind_some]
    rw [readWord_append plain (.inr (by simp))]
    simp only [Option.bind_some, expect_append, String.ofList_toList]
    rfl
  | cluster w =>
    have begins (s : List Char) : ("subgraph cluster_".toList ++ s).head? = some 's' := by simp
    change readStatement (("subgraph cluster_" ++ toString w.index ++ " \x7b").toList ++ s) = _
    rw [String.toList_append, String.toList_append, List.append_assoc, List.append_assoc,
      readStatement, begins]
    simp only [readCluster, expect_append, Option.bind_eq_bind, Option.bind_some]
    rw [readHandle_append w (by simp)]
    simp only [Option.bind_some, expect_append]
    rfl
  | clusterLabel label =>
    have begins (s : List Char) : ("label=".toList ++ s).head? = some 'l' := by simp
    change readStatement (("label=" ++ quote label ++ ";").toList ++ s) = _
    rw [String.toList_append, String.toList_append, List.append_assoc, List.append_assoc,
      readStatement, begins]
    simp only [readClusterLabel, expect_append, readQuoted_append, Option.bind_eq_bind,
      Option.bind_some, String.ofList_toList]
    rfl
  | node id shape label =>
    change readStatement ((toString id.index ++ " [shape=" ++ shape ++ ", label=" ++ quote label ++
      "];").toList ++ s) = _
    simp only [String.toList_append, List.append_assoc]
    rw [readStatement_numbered, readNumbered, readHandle_append id (by simp)]
    simp only [expect_append, Option.bind_eq_bind, Option.bind_some]
    exact readNode_append id plain label s
  | edge source dest line label color =>
    change readStatement ((toString source.index ++ " -> " ++ toString dest.index ++ " [style=" ++
      line ++ ", label=" ++ quote label ++ ((color.map fun c => ", color=" ++ c).getD "") ++
      "];").toList ++ s) = _
    simp only [String.toList_append, List.append_assoc]
    have other (s : List Char) : expect " [shape=" (" -> ".toList ++ s) = none := by
      simp [expect, List.isPrefixOf?]
    rw [readStatement_numbered, readNumbered, readHandle_append source (by simp)]
    simp only [other, expect_append, Option.bind_eq_bind, Option.bind_some]
    exact readEdge_append source dest plain.1 plain.2 label s
  | close =>
    have begins : ("\x7d".toList ++ s).head? = some '\x7d' := by simp
    change readStatement ("\x7d".toList ++ s) = _
    rw [readStatement, begins]
    simp only [readClose, expect_append]
    rfl

theorem readLine_append {statement : Statement} (plain : statement.Plain) (s : List Char) :
    readLine (statement.render.toList ++ '\n' :: s) = some (statement, s) := by
  have ends : expect "\n" ('\n' :: s) = some s := expect_append "\n" s
  rw [readLine, readStatement_render plain]
  simp only [Option.bind_eq_bind, Option.bind_some, ends]
  rfl

theorem readAll_append {statement : Statement} (plain : statement.Plain) (s : List Char) :
    readAll (statement.render.toList ++ '\n' :: s) = (readAll s).map (statement :: ·) := by
  have line := readLine_append plain s
  have longer : s.length < (statement.render.toList ++ '\n' :: s).length := by
    simp only [List.length_append, List.length_cons]
    omega
  obtain ⟨c, r, cut⟩ : ∃ c r, statement.render.toList ++ '\n' :: s = c :: r :=
    List.exists_cons_of_ne_nil (by simp)
  rw [cut] at line longer ⊢
  rw [readAll, line]
  exact dif_pos longer

theorem readAll_render {statements : List Statement} (plain : ∀ st ∈ statements, st.Plain) :
    readAll (render statements).toList = some statements := by
  induction statements with
  | nil =>
    have text : (render []).toList = [] := rfl
    rw [text, readAll]
  | cons st rest ih =>
    obtain ⟨first, plain⟩ := List.forall_mem_cons.1 plain
    have text : (render (st :: rest)).toList =
        st.render.toList ++ '\n' :: (render rest).toList := by
      simp [render, String.toList_join]
    rw [text, readAll_append first, ih plain]
    rfl

end ScreenGraph.Dot
