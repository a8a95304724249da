import ScreenGraph.Model

namespace ScreenGraph.Dot

structure Style where
  stateShape : String := "box"
  virtualShape : String := "ellipse"
  activeLine : String := "solid"
  inactiveLine : String := "dashed"
  implicitColor : String := "gray"
  clusterWindows : Bool := true
  version : Option Version := none

def Style.shows (s : Style) (v : Version) : Bool :=
  match s.version with
  | none => true
  | some w => w = v

inductive Statement
  | graph
  | defaultShape (shape : String)
  | cluster (window : WindowId)
  | clusterLabel (label : String)
  | node (state : StateId) (shape label : String)
  | edge (source dest : StateId) (line label : String) (color : Option String)
  | close
  deriving DecidableEq

def escapeChar (c : Char) : List Char := if c = '"' ∨ c = '\\' then ['\\', c] else [c]

def escape (s : List Char) : List Char := s.flatMap escapeChar

def quote (s : String) : String := String.ofList ('"' :: escape s.toList ++ ['"'])

def Statement.render : Statement → String
  | .graph => "digraph \x7b"
  | .defaultShape shape => "node [shape=" ++ shape ++ "];"
  | .cluster w => "subgraph cluster_" ++ toString w.index ++ " \x7b"
  | .clusterLabel label => "label=" ++ quote label ++ ";"
  | .node s shape label =>
    toString s.index ++ " [shape=" ++ shape ++ ", label=" ++ quote label ++ "];"
  | .edge source dest line label color =>
    toString source.index ++ " -> " ++ toString dest.index ++ " [style=" ++ line ++
      ", label=" ++ quote label ++ ((color.map fun c => ", color=" ++ c).getD "") ++ "];"
  | .close => "\x7d"

def render (statements : List Statement) : String :=
  String.join (statements.map fun s => s.render ++ "\n")

def stateLabel (id : StateId) (s : State) : String :=
  id.label ++ " (" ++ s.version.label ++ ")" ++
    (if s.isInitial then " initial" else "") ++ (if s.isHome then " home" else "")

def stateNode (style : Style) (id : StateId) (s : State) : Statement :=
  .node id (if s.isVirtual then style.virtualShape else style.stateShape) (stateLabel id s)

def transitionEdge (style : Style) (id : TransitionId) (t : Transition) (a : Action) : Statement :=
  .edge t.source t.dest (if t.isActive then style.activeLine else style.inactiveLine)
    (id.label ++ ": " ++ a.label) (if t.isImplicit then some style.implicitColor else none)

def shownStates (g : Graph) (style : Style) : List (StateId × State) :=
  g.states.entries.filter fun (_, s) => style.shows s.version

def shownTransitions (g : Graph) (style : Style) : List (TransitionId × Transition) :=
  g.transitions.entries.filter fun (_, t) => style.shows t.version

def shownWindows (g : Graph) (style : Style) : List WindowId :=
  let windows := OrderedSet.ofList ((shownStates g style).map fun (_, s) => s.window)
  windows.toList.mergeSort fun v w => v.slot ≤ w.slot

def windowStatements (m : Model) (style : Style) (w : WindowId) : Checked (List Statement) := do
  let window ← m.catalog.window w
  let owned := (shownStates m.graph style).filter fun (_, s) => s.window = w
  let nodes := owned.map fun (id, s) => stateNode style id s
  return if style.clusterWindows
    then [.cluster w, .clusterLabel window.className] ++ nodes ++ [.close]
    else nodes

def edgeStatement (m : Model) (style : Style) (id : TransitionId) (t : Transition) :
    Checked Statement :=
  return transitionEdge style id t (← m.actions.action t.action)

def statements (m : Model) (style : Style) : Checked (List Statement) := do
  let nodes ← flatMapChecked (windowStatements m style) (shownWindows m.graph style)
  let edges ← flatMapChecked (fun (id, t) => return [← edgeStatement m style id t])
    (shownTransitions m.graph style)
  return [.graph, .defaultShape style.stateShape] ++ nodes ++ edges ++ [.close]

def draw (m : Model) (style : Style) : Checked String := return render (← statements m style)

end ScreenGraph.Dot
