import Mathlib.Data.List.Nodup
import ScreenGraph.Proofs.Allocating
import ScreenGraph.Proofs.Reading
import ScreenGraph.Proofs.WellFormed

namespace ScreenGraph

theorem Arena.filter_entries_ascending {e : Entity} {α : Type} (a : Arena e α)
    (p : Handle e × α → Bool) :
    (((a.entries.filter p).map Prod.fst).map Handle.index).Pairwise (· < ·) :=
  a.handles_ascending.sublist ((List.filter_sublist.map Prod.fst).map Handle.index)

theorem Handle.nodup_of_ascending {e : Entity} {hs : List (Handle e)}
    (ascending : (hs.map Handle.index).Pairwise (· < ·)) : hs.Nodup :=
  (List.pairwise_map.1 ascending).imp fun less same => absurd (same ▸ less) (Nat.lt_irrefl _)

section

variable {α β γ : Type} {xs : List α} {ys : List β}

theorem filterMap_flatMapChecked {f : α → Checked (List β)} {pick : β → Option γ}
    {g : α → List γ} (each : ∀ a ∈ xs, ∀ bs, f a = .ok bs → bs.filterMap pick = g a)
    (ok : flatMapChecked f xs = .ok ys) : ys.filterMap pick = xs.flatMap g := by
  induction xs generalizing ys with
  | nil =>
    cases ok
    rfl
  | cons a r ih =>
    obtain ⟨bs, first, ok⟩ := Checked.bind_eq_ok.1 ok
    obtain ⟨rest, others, done⟩ := Checked.bind_eq_ok.1 ok
    cases done
    rw [List.filterMap_append, each a (by simp) bs first,
      ih (fun b mem => each b (by simp [mem])) others, List.flatMap_cons]

theorem forall₂_of_flatMapChecked {f : α → Checked β}
    (ok : flatMapChecked (fun a => return [← f a]) xs = .ok ys) :
    List.Forall₂ (fun a b => f a = .ok b) xs ys := by
  induction xs generalizing ys with
  | nil =>
    cases ok
    exact .nil
  | cons a r ih =>
    obtain ⟨bs, first, ok⟩ := Checked.bind_eq_ok.1 ok
    obtain ⟨b, made, single⟩ := Checked.bind_eq_ok.1 first
    obtain ⟨rest, others, done⟩ := Checked.bind_eq_ok.1 ok
    cases single
    cases done
    exact .cons made (ih others)

theorem exists_mem_of_forall₂ {R : α → β → Prop} (all : List.Forall₂ R xs ys) {b : β}
    (mem : b ∈ ys) : ∃ a ∈ xs, R a b := by
  induction all with
  | nil => cases mem
  | cons related _ ih =>
    cases mem with
    | head => exact ⟨_, .head _, related⟩
    | tail _ mem =>
      obtain ⟨a, mem, related⟩ := ih mem
      exact ⟨a, .tail _ mem, related⟩

end

namespace Dot

def Statement.node? : Statement → Option StateId
  | .node s _ _ => some s
  | _ => none

def Statement.isEdge : Statement → Bool
  | .edge .. => true
  | _ => false

def declared (statements : List Statement) : List StateId := statements.filterMap Statement.node?

def edges (statements : List Statement) : List Statement := statements.filter Statement.isEdge

def clusters : List Statement → List (WindowId × List StateId)
  | [] => []
  | .cluster w :: rest => (w, declared (rest.takeWhile (· ≠ .close))) :: clusters rest
  | _ :: rest => clusters rest

def owned (g : Graph) (style : Style) (w : WindowId) : List (StateId × State) :=
  (shownStates g style).filter fun (_, s) => s.window = w

section Shown

variable {g : Graph} {style : Style} {w : WindowId} {s : StateId} {st : State}

theorem mem_shownStates : (s, st) ∈ shownStates g style ↔
    g.states.get? s = some st ∧ style.shows st.version = true := by
  rw [shownStates, List.mem_filter, Arena.mem_entries]

theorem mem_shownTransitions {id : TransitionId} {t : Transition} :
    (id, t) ∈ shownTransitions g style ↔
      g.transitions.get? id = some t ∧ style.shows t.version = true := by
  rw [shownTransitions, List.mem_filter, Arena.mem_entries]

theorem mem_owned : (s, st) ∈ owned g style w ↔
    (g.states.get? s = some st ∧ style.shows st.version = true) ∧ st.window = w := by
  simp [owned, mem_shownStates]

theorem mem_shownWindows : w ∈ shownWindows g style ↔
    ∃ s st, (g.states.get? s = some st ∧ style.shows st.version = true) ∧ st.window = w := by
  simp [shownWindows, ← OrderedSet.mem_def, mem_shownStates]

theorem owned_ascending (g : Graph) (style : Style) (w : WindowId) :
    (((owned g style w).map Prod.fst).map Handle.index).Pairwise (· < ·) := by
  rw [owned, shownStates, List.filter_filter]
  exact g.states.filter_entries_ascending _

theorem shownWindows_ascending (g : Graph) (style : Style) :
    ((shownWindows g style).map Handle.index).Pairwise (· < ·) := by
  let windows := OrderedSet.ofList ((shownStates g style).map fun (_, s) => s.window)
  have sorted : (shownWindows g style).Pairwise fun v w => decide (v.slot ≤ w.slot) = true := by
    refine List.pairwise_mergeSort ?_ ?_ windows.toList
    · intro a b c ab bc
      simp only [decide_eq_true_eq] at *
      omega
    · intro a b
      simp only [Bool.or_eq_true, decide_eq_true_eq]
      omega
  have nodup : (shownWindows g style).Nodup :=
    (List.mergeSort_perm windows.toList _).nodup_iff.2 windows.nodup
  rw [List.pairwise_map]
  refine (sorted.and nodup).imp fun {v w} ⟨le, other⟩ => ?_
  simp only [decide_eq_true_eq] at le
  exact Nat.succ_lt_succ (Nat.lt_of_le_of_ne le fun same => other (Handle.ext same))

end Shown

section Parts

variable {m : Model} {style : Style} {w : WindowId} {ws : List WindowId}
  {sts nodes : List Statement}

def nodesOf (g : Graph) (style : Style) (w : WindowId) : List Statement :=
  (owned g style w).map fun (id, s) => stateNode style id s

theorem windowStatements_eq_ok : windowStatements m style w = .ok sts ↔
    ∃ win, m.catalog.windows.get? w = some win ∧
      (if style.clusterWindows then
        [.cluster w, .clusterLabel win.className] ++ nodesOf m.graph style w ++ [.close]
      else nodesOf m.graph style w) = sts := by
  unfold windowStatements Catalog.window
  rw [Arena.get_bind_eq_ok]
  simp only [pure_eq_ok, nodesOf, owned]

theorem edgeStatement_eq_ok {id : TransitionId} {t : Transition} {st : Statement} :
    edgeStatement m style id t = .ok st ↔
      ∃ a, m.actions.action t.action = .ok a ∧ transitionEdge style id t a = st := by
  simp only [edgeStatement, Checked.bind_eq_ok, pure_eq_ok]

theorem mem_nodesOf {st : Statement} : st ∈ nodesOf m.graph style w ↔ ∃ s state,
    ((m.graph.states.get? s = some state ∧ style.shows state.version = true) ∧
      state.window = w) ∧ stateNode style s state = st := by
  simp only [nodesOf, List.mem_map, Prod.exists, mem_owned]

theorem declared_nodesOf (g : Graph) (style : Style) (w : WindowId) :
    declared (nodesOf g style w) = (owned g style w).map Prod.fst := by
  unfold declared nodesOf
  induction owned g style w with
  | nil => rfl
  | cons p r ih => exact congrArg (p.1 :: ·) ih

theorem declared_windowStatements (ok : windowStatements m style w = .ok sts) :
    declared sts = (owned m.graph style w).map Prod.fst := by
  obtain ⟨win, -, rfl⟩ := windowStatements_eq_ok.1 ok
  rw [← declared_nodesOf]
  split
  · simp [declared, List.filterMap_cons, Statement.node?]
  · rfl

theorem clusters_append (free : ∀ st ∈ nodes, ∀ w, st ≠ .cluster w) (rest : List Statement) :
    clusters (nodes ++ rest) = clusters rest := by
  induction nodes with
  | nil => rfl
  | cons st nodes ih =>
    have step : clusters (st :: (nodes ++ rest)) = clusters (nodes ++ rest) := by
      cases st with
      | cluster w => exact absurd rfl (free _ (by simp) w)
      | _ => rfl
    exact step.trans (ih fun st mem => free st (by simp [mem]))

theorem clusters_cluster (free : ∀ st ∈ nodes, st ≠ .close ∧ ∀ w, st ≠ .cluster w)
    (rest : List Statement) :
    clusters (.cluster w :: (nodes ++ .close :: rest)) = (w, declared nodes) :: clusters rest := by
  have inner : (nodes ++ .close :: rest).takeWhile (· ≠ .close) = nodes := by
    rw [List.takeWhile_append_of_pos fun st mem => decide_eq_true (free st mem).1]
    simp
  rw [clusters, inner, clusters_append fun st mem => (free st mem).2]
  rfl

theorem clusters_windowStatements (clustered : style.clusterWindows = true)
    (ok : windowStatements m style w = .ok sts) (rest : List Statement) :
    clusters (sts ++ rest) = (w, (owned m.graph style w).map Prod.fst) :: clusters rest := by
  obtain ⟨win, -, rfl⟩ := windowStatements_eq_ok.1 ok
  have free : ∀ st ∈ .clusterLabel win.className :: nodesOf m.graph style w,
      st ≠ .close ∧ ∀ w, st ≠ .cluster w := by
    rw [List.forall_mem_cons]
    refine ⟨⟨nofun, nofun⟩, fun st mem => ?_⟩
    obtain ⟨s, state, -, rfl⟩ := mem_nodesOf.1 mem
    exact ⟨nofun, nofun⟩
  have text : [.cluster w, .clusterLabel win.className] ++ nodesOf m.graph style w ++ [.close] ++
      rest = .cluster w :: ((.clusterLabel win.className :: nodesOf m.graph style w) ++
        .close :: rest) := by simp
  rw [if_pos clustered, text, clusters_cluster free, ← declared_nodesOf]
  rfl

theorem clusters_nodes (clustered : style.clusterWindows = true)
    (ok : flatMapChecked (windowStatements m style) ws = .ok nodes) (rest : List Statement) :
    clusters (nodes ++ rest) =
      (ws.map fun w => (w, (owned m.graph style w).map Prod.fst)) ++ clusters rest := by
  induction ws generalizing nodes with
  | nil =>
    cases ok
    rfl
  | cons w ws ih =>
    obtain ⟨bs, first, ok⟩ := Checked.bind_eq_ok.1 ok
    obtain ⟨others, ok', done⟩ := Checked.bind_eq_ok.1 ok
    cases done
    rw [List.append_assoc, clusters_windowStatements clustered first, ih ok', List.map_cons,
      List.cons_append]

theorem mem_windowStatements (ok : windowStatements m style w = .ok sts) {st : Statement} :
    st ∈ sts → st ∈ nodesOf m.graph style w ∨ st = .cluster w ∨ (∃ l, st = .clusterLabel l) ∨
      st = .close := by
  obtain ⟨win, -, rfl⟩ := windowStatements_eq_ok.1 ok
  split
  · simp only [List.mem_append, List.mem_cons, List.not_mem_nil, or_false]
    rintro (((rfl | rfl) | mem) | rfl)
    · exact .inr (.inl rfl)
    · exact .inr (.inr (.inl ⟨_, rfl⟩))
    · exact .inl mem
    · exact .inr (.inr (.inr rfl))
  · intro mem
    exact .inl mem

theorem nodesOf_subset (ok : windowStatements m style w = .ok sts) :
    nodesOf m.graph style w ⊆ sts := by
  obtain ⟨win, -, rfl⟩ := windowStatements_eq_ok.1 ok
  intro st mem
  split <;> simp [mem]

end Parts

structure Drawable (m : Model) : Prop where
  audited : m.graph.audit = .ok ()
  window : ∀ {s st}, m.graph.states.get? s = some st → m.catalog.windows.contains st.window = true
  action : ∀ {id t}, m.graph.transitions.get? id = some t →
    m.actions.entries.contains t.action = true

def Traces (m : Model) (style : Style) (p : TransitionId × Transition) (st : Statement) : Prop :=
  ∃ a, m.actions.action p.2.action = .ok a ∧ transitionEdge style p.1 p.2 a = st

/-- A list of statements that draws a model as a style has it. -/
structure Draws (m : Model) (style : Style) (sts : List Statement) : Prop where
  nodes : ∀ s shape label, .node s shape label ∈ sts ↔ ∃ st, m.graph.states.get? s = some st ∧
    style.shows st.version = true ∧ stateNode style s st = .node s shape label
  once : (declared sts).Nodup
  edges : ∃ shown, ((shown.map Prod.fst).map Handle.index).Pairwise (· < ·) ∧
    (∀ id t, (id, t) ∈ shown ↔
      m.graph.transitions.get? id = some t ∧ style.shows t.version = true) ∧
    List.Forall₂ (Traces m style) shown (edges sts)
  windows : style.clusterWindows = true →
    (((clusters sts).map Prod.fst).map Handle.index).Pairwise (· < ·) ∧
    ∀ w, w ∈ (clusters sts).map Prod.fst ↔ ∃ s st, m.graph.states.get? s = some st ∧
      style.shows st.version = true ∧ st.window = w
  /-- A state is declared in the cluster of its window and nowhere else. -/
  members : style.clusterWindows = true → declared sts = (clusters sts).flatMap Prod.snd ∧
    ∀ w ids, (w, ids) ∈ clusters sts → (ids.map Handle.index).Pairwise (· < ·) ∧
      ∀ s, s ∈ ids ↔ ∃ st, m.graph.states.get? s = some st ∧
        style.shows st.version = true ∧ st.window = w
  ends : style.version = none → ∀ source dest line label color,
    .edge source dest line label color ∈ sts → source ∈ declared sts ∧ dest ∈ declared sts

section Whole

variable {m : Model} {style : Style} {sts nodes lines : List Statement} {st : Statement}

theorem Traces.isEdge {p : TransitionId × Transition} (traces : Traces m style p st) :
    st.isEdge = true := by
  obtain ⟨a, -, rfl⟩ := traces
  rfl

theorem node?_of_isEdge (edge : st.isEdge = true) : st.node? = none := by
  cases st with
  | edge => rfl
  | _ => cases edge

theorem mem_declared {s : StateId} :
    s ∈ declared sts ↔ ∃ shape label, .node s shape label ∈ sts := by
  rw [declared, List.mem_filterMap]
  constructor
  · rintro ⟨st, mem, isNode⟩
    cases st with
    | node id shape label =>
      cases isNode
      exact ⟨shape, label, mem⟩
    | _ => cases isNode
  · rintro ⟨shape, label, mem⟩
    exact ⟨_, mem, rfl⟩

theorem statements_parts (ok : statements m style = .ok sts) : ∃ nodes lines,
    flatMapChecked (windowStatements m style) (shownWindows m.graph style) = .ok nodes ∧
    List.Forall₂ (Traces m style) (shownTransitions m.graph style) lines ∧
    sts = [.graph, .defaultShape style.stateShape] ++ nodes ++ lines ++ [.close] := by
  obtain ⟨nodes, hnodes, ok⟩ := Checked.bind_eq_ok.1 ok
  obtain ⟨lines, hlines, ok⟩ := Checked.bind_eq_ok.1 ok
  have traced := (forall₂_of_flatMapChecked hlines).imp fun _ _ => edgeStatement_eq_ok.1
  exact ⟨nodes, lines, hnodes, traced, (pure_eq_ok.1 ok).symm⟩

theorem isEdge_of_traced (traced : List.Forall₂ (Traces m style) (shownTransitions m.graph style)
    lines) (mem : st ∈ lines) : st.isEdge = true := by
  obtain ⟨p, -, traces⟩ := exists_mem_of_forall₂ traced mem
  exact traces.isEdge

theorem mem_nodes (ok : flatMapChecked (windowStatements m style) (shownWindows m.graph style) =
    .ok nodes) (mem : st ∈ nodes) :
    (∃ s state, (m.graph.states.get? s = some state ∧ style.shows state.version = true) ∧
      stateNode style s state = st) ∨
    (∃ w, st = .cluster w) ∨ (∃ l, st = .clusterLabel l) ∨ st = .close := by
  obtain ⟨w, -, bs, made, mem⟩ := (mem_flatMapChecked ok).1 mem
  rcases mem_windowStatements made mem with mem | rfl | label | rfl
  · obtain ⟨s, state, ⟨shown, -⟩, drawn⟩ := mem_nodesOf.1 mem
    exact .inl ⟨s, state, shown, drawn⟩
  · exact .inr (.inl ⟨w, rfl⟩)
  · exact .inr (.inr (.inl label))
  · exact .inr (.inr (.inr rfl))

theorem node_mem_nodes (ok : flatMapChecked (windowStatements m style)
    (shownWindows m.graph style) = .ok nodes) {s : StateId} {state : State}
    (live : m.graph.states.get? s = some state) (shown : style.shows state.version = true) :
    stateNode style s state ∈ nodes := by
  have owner := mem_shownWindows.2 ⟨s, state, ⟨live, shown⟩, rfl⟩
  obtain ⟨bs, made⟩ := flatMapChecked_each ok owner
  refine (mem_flatMapChecked ok).2 ⟨_, owner, bs, made, nodesOf_subset made ?_⟩
  exact mem_nodesOf.2 ⟨s, state, ⟨⟨live, shown⟩, rfl⟩, rfl⟩

theorem mem_statements (ok : statements m style = .ok sts) (mem : st ∈ sts) :
    (∃ s state, (m.graph.states.get? s = some state ∧ style.shows state.version = true) ∧
      stateNode style s state = st) ∨
    (∃ p ∈ shownTransitions m.graph style, Traces m style p st) ∨
    st = .graph ∨ st = .defaultShape style.stateShape ∨ (∃ w, st = .cluster w) ∨
    (∃ l, st = .clusterLabel l) ∨ st = .close := by
  obtain ⟨nodes, lines, hnodes, traced, rfl⟩ := statements_parts ok
  simp only [List.mem_append, List.mem_cons, List.not_mem_nil, or_false] at mem
  rcases mem with (((rfl | rfl) | mem) | mem) | rfl
  · simp
  · simp
  · rcases mem_nodes hnodes mem with node | other
    · exact .inl node
    · simp [other]
  · exact .inr (.inl (exists_mem_of_forall₂ traced mem))
  · simp

theorem declared_statements (ok : statements m style = .ok sts) : declared sts =
    (shownWindows m.graph style).flatMap fun w => (owned m.graph style w).map Prod.fst := by
  obtain ⟨nodes, lines, hnodes, traced, rfl⟩ := statements_parts ok
  have first : declared nodes = (shownWindows m.graph style).flatMap fun w =>
      (owned m.graph style w).map Prod.fst :=
    filterMap_flatMapChecked (fun w _ bs ok => declared_windowStatements ok) hnodes
  have last : declared lines = [] :=
    List.filterMap_eq_nil_iff.2 fun st mem => node?_of_isEdge (isEdge_of_traced traced mem)
  rw [← first]
  simp only [declared, List.filterMap_append] at last ⊢
  rw [last]
  simp [List.filterMap_cons, Statement.node?]

theorem edges_statements (ok : statements m style = .ok sts) :
    List.Forall₂ (Traces m style) (shownTransitions m.graph style) (edges sts) := by
  obtain ⟨nodes, lines, hnodes, traced, rfl⟩ := statements_parts ok
  have first : edges nodes = [] := by
    refine List.filter_eq_nil_iff.2 fun st mem => ?_
    rcases mem_nodes hnodes mem with ⟨s, state, -, rfl⟩ | ⟨w, rfl⟩ | ⟨l, rfl⟩ | rfl <;> nofun
  have last : edges lines = lines :=
    List.filter_eq_self.2 fun st mem => isEdge_of_traced traced mem
  have whole : edges ([.graph, .defaultShape style.stateShape] ++ nodes ++ lines ++ [.close]) =
      edges nodes ++ edges lines := by
    simp only [edges, List.filter_append]
    simp [Statement.isEdge]
  rwa [whole, first, last, List.nil_append]

theorem clusters_statements (clustered : style.clusterWindows = true)
    (ok : statements m style = .ok sts) : clusters sts =
      (shownWindows m.graph style).map fun w => (w, (owned m.graph style w).map Prod.fst) := by
  obtain ⟨nodes, lines, hnodes, traced, rfl⟩ := statements_parts ok
  have free : ∀ st ∈ lines, ∀ w, st ≠ .cluster w := by
    rintro st mem w rfl
    cases isEdge_of_traced traced mem
  have rest : clusters (lines ++ [.close]) = [] := clusters_append free [.close]
  have text : [.graph, .defaultShape style.stateShape] ++ nodes ++ lines ++ [.close] =
      .graph :: .defaultShape style.stateShape :: (nodes ++ (lines ++ [.close])) := by simp
  rw [text, clusters, clusters, clusters_nodes clustered hnodes, rest, List.append_nil]
  all_goals nofun

theorem node_mem_statements (ok : statements m style = .ok sts) (s : StateId)
    (shape label : String) : .node s shape label ∈ sts ↔ ∃ st, m.graph.states.get? s = some st ∧
      style.shows st.version = true ∧ stateNode style s st = .node s shape label := by
  constructor
  · intro mem
    rcases mem_statements ok mem with ⟨s', state, ⟨live, shown⟩, drawn⟩ |
      ⟨p, -, a, -, other⟩ | other
    · cases drawn
      exact ⟨state, live, shown, rfl⟩
    · cases other
    · simp at other
  · rintro ⟨st, live, shown, drawn⟩
    obtain ⟨nodes, lines, hnodes, traced, rfl⟩ := statements_parts ok
    have mem := node_mem_nodes hnodes live shown
    rw [drawn] at mem
    simp [mem]

theorem declared_nodup (ok : statements m style = .ok sts) : (declared sts).Nodup := by
  rw [declared_statements ok, List.nodup_flatMap]
  refine ⟨fun w _ => Handle.nodup_of_ascending (owned_ascending m.graph style w), ?_⟩
  refine (List.pairwise_map.1 (shownWindows_ascending m.graph style)).imp fun {v w} less => ?_
  -- a state that stood in two windows would be owned by both
  intro s first second
  obtain ⟨⟨s, st⟩, mem, rfl⟩ := List.mem_map.1 first
  obtain ⟨⟨_, st'⟩, mem', rfl⟩ := List.mem_map.1 second
  obtain ⟨⟨live, -⟩, rfl⟩ := mem_owned.1 mem
  obtain ⟨⟨live', -⟩, rfl⟩ := mem_owned.1 mem'
  cases live.symm.trans live'
  exact Nat.lt_irrefl _ less

theorem draws_statements (audited : m.graph.audit = .ok ()) (ok : statements m style = .ok sts) :
    Draws m style sts where
  nodes := node_mem_statements ok
  once := declared_nodup ok
  edges := ⟨shownTransitions m.graph style, m.graph.transitions.filter_entries_ascending _,
    fun _ _ => mem_shownTransitions, edges_statements ok⟩
  windows := by
    intro clustered
    have keys : (clusters sts).map Prod.fst = shownWindows m.graph style := by
      rw [clusters_statements clustered ok, List.map_map]
      exact List.map_id _
    rw [keys]
    refine ⟨shownWindows_ascending m.graph style, fun w => ?_⟩
    simp only [mem_shownWindows, and_assoc]
  members := by
    intro clustered
    rw [declared_statements ok, clusters_statements clustered ok, List.flatMap_map]
    refine ⟨rfl, fun w ids mem => ?_⟩
    obtain ⟨w, -, cluster⟩ := List.mem_map.1 mem
    cases cluster
    refine ⟨owned_ascending m.graph style w, fun s => ?_⟩
    simp [mem_owned, and_assoc]
  ends := by
    intro all source dest line label color mem
    have declares {s : StateId} (live : m.graph.states.contains s = true) : s ∈ declared sts := by
      obtain ⟨st, live⟩ := Arena.contains_iff.1 live
      have shown : style.shows st.version = true := by simp [Style.shows, all]
      exact mem_declared.2 ⟨_, _, (node_mem_statements ok ..).2 ⟨st, live, shown, rfl⟩⟩
    rcases mem_statements ok mem with ⟨s, state, -, other⟩ | ⟨⟨id, t⟩, shown, a, -, drawn⟩ | other
    · cases other
    · cases drawn
      have sound := (Graph.flaw?_eq_none.1 (Graph.audit_eq_ok_iff.1 audited)).1
      obtain ⟨⟨st, live, -⟩, target, -⟩ :=
        Graph.edgeFlaw?_eq_none.1 (sound id t (mem_shownTransitions.1 shown).1)
      exact ⟨declares (Arena.contains_iff.2 ⟨st, live⟩), declares target⟩
    · simp at other

theorem statements_succeeds (h : Drawable m) (style : Style) : Succeeds (statements m style) := by
  refine .bind (flatMapChecked_succeeds fun w mem => ?_) fun nodes _ =>
    .bind (flatMapChecked_succeeds fun ⟨id, t⟩ mem => ?_) fun edges _ => succeeds_pure _
  · obtain ⟨s, st, ⟨live, -⟩, rfl⟩ := mem_shownWindows.1 mem
    obtain ⟨win, hwin⟩ := Arena.contains_iff.1 (h.window live)
    exact ⟨_, windowStatements_eq_ok.2 ⟨win, hwin, rfl⟩⟩
  · obtain ⟨e, he⟩ := Arena.contains_iff.1 (h.action (mem_shownTransitions.1 mem).1)
    have action := ActionTable.action_eq_ok.2 ⟨e, he, rfl⟩
    exact .after (edgeStatement_eq_ok.2 ⟨_, action, rfl⟩) (succeeds_pure _)

def Style.words (style : Style) : List String :=
  [style.stateShape, style.virtualShape, style.activeLine, style.inactiveLine, style.implicitColor]

def Style.Plain (style : Style) : Prop := ∀ word ∈ style.words, isWord false word.toList = true

instance (style : Style) : Decidable style.Plain :=
  inferInstanceAs (Decidable (∀ word ∈ style.words, isWord false word.toList = true))

theorem stateNode_plain (plain : style.Plain) (id : StateId) (s : State) :
    (stateNode style id s).Plain := by
  refine plain _ ?_
  split <;> simp [Style.words]

theorem transitionEdge_plain (plain : style.Plain) (id : TransitionId) (t : Transition)
    (a : Action) : (transitionEdge style id t a).Plain := by
  refine ⟨plain _ ?line, fun word mem => plain _ ?color⟩
  case line => split <;> simp [Style.words]
  case color =>
    split at mem
    · cases mem
      simp [Style.words]
    · cases mem

theorem statements_plain (plain : style.Plain) (ok : statements m style = .ok sts)
    (mem : st ∈ sts) : st.Plain := by
  rcases mem_statements ok mem with ⟨s, state, -, rfl⟩ | ⟨p, -, a, -, rfl⟩ | rfl | rfl | ⟨w, rfl⟩ |
    ⟨l, rfl⟩ | rfl
  · exact stateNode_plain plain s state
  · exact transitionEdge_plain plain p.1 p.2 a
  case inr.inr.inr.inl => exact plain _ (.head _)
  all_goals trivial

end Whole

theorem length_edges {m : Model} {style : Style} {sts : List Statement} (h : Draws m style sts) :
    (edges sts).length = (shownTransitions m.graph style).length := by
  obtain ⟨shown, ascending, each, traced⟩ := h.edges
  have nodup := (Handle.nodup_of_ascending ascending).of_map
  have nodup' := (Handle.nodup_of_ascending
    (m.graph.transitions.filter_entries_ascending fun p => style.shows p.2.version)).of_map
  have perm : shown.Perm (shownTransitions m.graph style) :=
    (List.perm_ext_iff_of_nodup nodup nodup').2 fun p => (each p.1 p.2).trans
      mem_shownTransitions.symm
  exact traced.length_eq.symm.trans perm.length_eq

/-- A drawing loses nothing and draws nothing twice. What is read of it is what was drawn, if the
words of its style are plain. -/
theorem draw_loses_nothing (m : Model) (style : Style) (h : Drawable m) :
    ∃ sts, draw m style = .ok (render sts) ∧ Draws m style sts ∧
      (style.Plain → readAll (render sts).toList = some sts) := by
  obtain ⟨sts, ok⟩ := statements_succeeds h style
  refine ⟨sts, Checked.bind_eq_ok.2 ⟨sts, ok, rfl⟩, draws_statements h.audited ok, fun plain => ?_⟩
  exact readAll_render fun st mem => statements_plain plain ok mem

def wait : Transition where
  source := ⟨0⟩
  action := ⟨0⟩
  dest := ⟨1⟩
  version := .base
  isImplicit := true

def waits (n : Nat) : Model where
  catalog := { windows := (Arena.add ∅
    { className := "Main", identifier := "main", kind := .activity, version := .base }).2 }
  actions := (ActionTable.intern {} ⟨0⟩ { kind := .wait }).2
  graph := (List.replicate n wait).foldl (fun g t => g.withEdge t ∅)
    { states := ((Arena.add ∅ { window := ⟨0⟩, version := .base }).2.add
        { window := ⟨0⟩, version := .base, isInitial := true }).2 }

theorem drawable_waits {n : Nat} (few : n < 3) : Drawable (waits n) := by
  have flawless : ∀ n < 3, (waits n).graph.flaw?.isNone = true ∧
      (∀ p ∈ (waits n).graph.states.entries,
        (waits n).catalog.windows.contains p.2.window = true) ∧
      ∀ p ∈ (waits n).graph.transitions.entries,
        (waits n).actions.entries.contains p.2.action = true := by decide +kernel
  obtain ⟨passed, windows, actions⟩ := flawless n few
  exact {
    audited := Graph.audit_eq_ok_iff.2 (Option.isNone_iff_eq_none.1 passed)
    window := fun live => windows _ (Arena.mem_entries.2 live)
    action := fun live => actions _ (Arena.mem_entries.2 live) }

theorem draw_loses_nothing_waits : ∃ sts, draw (waits 2) {} = .ok (render sts) ∧
    Draws (waits 2) {} sts ∧ readAll (render sts).toList = some sts ∧ (edges sts).length = 2 := by
  obtain ⟨sts, drawn, draws, reads⟩ := draw_loses_nothing (waits 2) {} (drawable_waits (by decide))
  have two : (shownTransitions (waits 2).graph {}).length = 2 := by decide +kernel
  exact ⟨sts, drawn, draws, reads (by decide +kernel), (length_edges draws).trans two⟩

def trailing : Style where
  implicitColor := "gray];\n1 -> 2 [style=dashed, label=\"T2: Wait\", color=gray"

/-- No way to read drawings is right for all styles: with a colour that goes on after its bracket,
one edge is drawn as two edges are. -/
theorem not_draw_read_back : ¬ ∃ read : String → List Statement, ∀ m style, Drawable m →
    ∃ text, draw m style = .ok text ∧ Draws m style (read text) := by
  rintro ⟨read, reads⟩
  obtain ⟨one, drawn, draws⟩ := reads (waits 1) trailing (drawable_waits (by decide))
  obtain ⟨two, drawn', draws'⟩ := reads (waits 2) {} (drawable_waits (by decide))
  have same : (draw (waits 1) trailing).toOption = (draw (waits 2) {}).toOption := by decide +kernel
  rw [drawn, drawn'] at same
  cases Option.some.inj same
  have lengths := (length_edges draws).symm.trans (length_edges draws')
  revert lengths
  decide +kernel

end Dot

end ScreenGraph
