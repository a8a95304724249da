import ScreenGraph.Proofs.WellFormed

namespace ScreenGraph

namespace Graph

variable {g g' : Graph}

theorem Consistent.rivals_succeeds (h : g.Consistent) {t : TransitionId}
    (live : g.transitions.contains t = true) : Succeeds (g.rivals t) := by
  obtain ⟨e, he⟩ := Arena.contains_iff.1 live
  refine .get he ?_
  exact (h.outgoingBy_succeeds e.action (h.source he)).bind fun _ _ => succeeds_pure _

theorem mem_rivals {t : TransitionId} {ids : List TransitionId} (ok : g.rivals t = .ok ids)
    {id : TransitionId} (mem : id ∈ ids) : id ≠ t ∧ ∃ u st e, g.transitions.get? t = some u ∧
      g.states.get? u.source = some st ∧ id ∈ st.outgoing ∧ g.transitions.get? id = some e ∧
      e.action = u.action := by
  obtain ⟨u, hu, ok⟩ := Arena.get_bind_eq_ok.1 ok
  obtain ⟨all, by_action, done⟩ := Checked.bind_eq_ok.1 ok
  cases done
  obtain ⟨mem, other⟩ := List.mem_filter.1 mem
  obtain ⟨st, e, hst, listed, live, action⟩ := (mem_outgoingBy by_action).1 mem
  exact ⟨of_decide_eq_true other, u, st, e, hu, hst, listed, live, action⟩

theorem rivals_live {t : TransitionId} {ids : List TransitionId} (ok : g.rivals t = .ok ids)
    {id : TransitionId} (mem : id ∈ ids) : g.transitions.contains id = true := by
  obtain ⟨-, _, _, e, -, -, -, live, -⟩ := mem_rivals ok mem
  exact Arena.contains_of_get? live

def Leaves (g : Graph) (t : TransitionId) (s : StateId) (a : ActionId) : Prop :=
  ∃ e, g.transitions.get? t = some e ∧ e.source = s ∧ e.action = a

theorem leaves_congr {t : TransitionId}
    (same : g'.transitions.get? t = g.transitions.get? t) : g'.Leaves t = g.Leaves t := by
  unfold Leaves
  rw [same]

theorem Consistent.rivals_leave (h : g.Consistent) {t : TransitionId} {ids : List TransitionId}
    (ok : g.rivals t = .ok ids) {id : TransitionId} (mem : id ∈ ids) {e : Transition}
    (live : g.transitions.get? id = some e) : g.Leaves t e.source e.action := by
  obtain ⟨-, u, st, e', hu, hst, listed, live', action⟩ := mem_rivals ok mem
  obtain ⟨e'', live'', source⟩ := (h.listed hst id).1 listed
  cases live.symm.trans live'
  cases live.symm.trans live''
  exact ⟨u, hu, source.symm, action.symm⟩

theorem Consistent.obsolete_succeeds (h : g.Consistent) {t : TransitionId} (ps : List StateId)
    (live : g.transitions.contains t = true) : Succeeds (g.obsolete t ps) := by
  refine (Arena.get_succeeds live).bind fun e _ => ?_
  refine (h.rivals_succeeds live).bind fun ids hids => ?_
  refine Succeeds.bind ?_ fun stale hstale => ?_
  · refine filterChecked_succeeds fun id mem => ?_
    exact (Arena.get_succeeds (rivals_live hids mem)).bind fun _ _ => succeeds_pure _
  refine Succeeds.bind ?_ fun _ _ => succeeds_pure _
  refine filterChecked_succeeds fun id mem => ?_
  have live := rivals_live hids ((mem_filterChecked hstale).1 mem).1
  unfold isEntered
  split
  · exact succeeds_pure _
  · exact (Arena.get_succeeds live).bind fun _ _ => succeeds_pure _

theorem of_mem_obsolete {t : TransitionId} {ps : List StateId} {ids : List TransitionId}
    (ok : g.obsolete t ps = .ok ids) {id : TransitionId} (mem : id ∈ ids) :
    ∃ rivals d e, g.rivals t = .ok rivals ∧ id ∈ rivals ∧ g.transitions.get? id = some e ∧
      e.isObsolete d = true := by
  obtain ⟨u, -, ok⟩ := Checked.bind_eq_ok.1 ok
  obtain ⟨rivals, hrivals, ok⟩ := Checked.bind_eq_ok.1 ok
  obtain ⟨stale, hstale, ok⟩ := Checked.bind_eq_ok.1 ok
  obtain ⟨entered, hentered, done⟩ := Checked.bind_eq_ok.1 ok
  cases done
  have from_stale : id ∈ stale := by
    split at mem
    · exact mem
    · exact ((mem_filterChecked hentered).1 mem).1
  obtain ⟨rival, test⟩ := (mem_filterChecked hstale).1 from_stale
  obtain ⟨e, live, test⟩ := Arena.get_bind_eq_ok.1 test
  exact ⟨rivals, u.dest, e, hrivals, rival, live, pure_eq_ok.1 test⟩

theorem mem_obsolete {t : TransitionId} {ps : List StateId} {ids : List TransitionId}
    (ok : g.obsolete t ps = .ok ids) {id : TransitionId} (mem : id ∈ ids) : id ≠ t := by
  obtain ⟨rivals, -, -, hrivals, rival, -⟩ := of_mem_obsolete ok mem
  exact (mem_rivals hrivals rival).1

theorem Consistent.obsolete_edge (h : g.Consistent) {t : TransitionId} {ps : List StateId}
    {ids : List TransitionId} (ok : g.obsolete t ps = .ok ids) {id : TransitionId} (mem : id ∈ ids)
    {e : Transition} (live : g.transitions.get? id = some e) :
    g.Leaves t e.source e.action ∧ e.version = .base ∧ e.isExercisedIn .running = false := by
  obtain ⟨rivals, d, e', hrivals, rival, live', obsolete⟩ := of_mem_obsolete ok mem
  cases live.symm.trans live'
  simp only [Transition.isObsolete, Bool.and_eq_true, decide_eq_true_eq,
    Bool.not_eq_true'] at obsolete
  exact ⟨h.rivals_leave hrivals rival live, obsolete.1.1, obsolete.1.2⟩

theorem Consistent.prune_succeeds (h : g.Consistent) (ids : List TransitionId) :
    Succeeds (g.prune ids) := by
  induction ids generalizing g with
  | nil => exact succeeds_ok _
  | cons id r ih =>
    refine (h.removeTransition_succeeds id).bind fun ⟨old, g₁⟩ removed => ?_
    refine (ih (h.removeTransition removed)).bind fun _ _ => ?_
    exact succeeds_pure _

theorem Consistent.prune (h : g.Consistent) {ids : List TransitionId} {keys : List EdgeKey}
    (ok : g.prune ids = .ok (keys, g')) : g'.Consistent := by
  induction ids generalizing g keys with
  | nil =>
    cases ok
    exact h
  | cons id r ih =>
    obtain ⟨⟨old, g₁⟩, removed, ok⟩ := Checked.bind_eq_ok.1 ok
    obtain ⟨⟨rest, g₂⟩, pruned, ok⟩ := Checked.bind_eq_ok.1 ok
    cases ok
    exact ih (h.removeTransition removed) pruned

theorem removeTransition_get? {id k : TransitionId} {old : Option Transition}
    (ok : g.removeTransition id = .ok (old, g')) :
    g'.transitions.get? k = if id = k then none else g.transitions.get? k := by
  obtain ⟨-, ⟨vacant, rfl⟩ | ⟨t, -, rfl⟩⟩ := removeTransition_eq_ok ok
  · split
    · next same => rw [← same, vacant]
    · rfl
  · exact get?_withoutEdge ..

theorem prune_get? {ids : List TransitionId} {keys : List EdgeKey}
    (ok : g.prune ids = .ok (keys, g')) (k : TransitionId) :
    g'.transitions.get? k = if k ∈ ids then none else g.transitions.get? k := by
  induction ids generalizing g keys with
  | nil =>
    cases ok
    simp
  | cons id r ih =>
    obtain ⟨⟨old, g₁⟩, removed, ok⟩ := Checked.bind_eq_ok.1 ok
    obtain ⟨⟨rest, g₂⟩, pruned, ok⟩ := Checked.bind_eq_ok.1 ok
    cases ok
    rw [ih pruned, removeTransition_get? removed]
    by_cases here : id = k
    · simp [here]
    · simp [here, Ne.symm here]

theorem prune_frames {silenced : StateId → ActionId → Prop} {ids : List TransitionId}
    {keys : List EdgeKey} (ok : g.prune ids = .ok (keys, g')) :
    g.Frames g' (· ∈ ids) silenced := by
  induction ids generalizing g keys with
  | nil =>
    cases ok
    exact (Frames.refl _).congr fun _ => by simp
  | cons id r ih =>
    obtain ⟨⟨old, g₁⟩, removed, ok⟩ := Checked.bind_eq_ok.1 ok
    obtain ⟨⟨rest, g₂⟩, pruned, ok⟩ := Checked.bind_eq_ok.1 ok
    cases ok
    exact ((removeTransition_frames removed).trans (ih pruned)).congr fun _ => by simp [eq_comm]

theorem prune_key {ids : List TransitionId} {keys : List EdgeKey}
    (ok : g.prune ids = .ok (keys, g')) {k : EdgeKey} (mem : k ∈ keys) :
    ∃ id ∈ ids, ∃ e, g.transitions.get? id = some e ∧ e.key = k := by
  induction ids generalizing g keys with
  | nil =>
    cases ok
    cases mem
  | cons id r ih =>
    obtain ⟨⟨old, g₁⟩, removed, ok⟩ := Checked.bind_eq_ok.1 ok
    obtain ⟨⟨rest, g₂⟩, pruned, ok⟩ := Checked.bind_eq_ok.1 ok
    cases ok
    rcases List.mem_append.1 mem with mem | mem
    · obtain ⟨t, ht, rfl⟩ := List.mem_map.1 mem
      rw [Option.mem_toList, (removeTransition_eq_ok removed).1] at ht
      exact ⟨id, by simp, t, ht, rfl⟩
    · obtain ⟨id', listed, e, live, key⟩ := ih pruned mem
      rw [removeTransition_get? removed] at live
      split at live
      · cases live
      · exact ⟨id', by simp [listed], e, live, key⟩

theorem Consistent.prune_keys (h : g.Consistent) {ids : List TransitionId} {keys : List EdgeKey}
    (ok : g.prune ids = .ok (keys, g')) {k : EdgeKey} (mem : k ∈ keys) :
    g.states.contains k.dest = true := by
  obtain ⟨id, -, e, live, rfl⟩ := prune_key ok mem
  exact h.dest live

theorem deactivateAll_edge {ids : List TransitionId} (ok : g.deactivateAll ids = .ok g')
    {id : TransitionId} {e' : Transition} (live : g'.transitions.get? id = some e') :
    ∃ e, g.transitions.get? id = some e ∧ e' = { e with isActive := e'.isActive } := by
  refine foldChecked_induct (fun g' : Graph => ∀ {e'}, g'.transitions.get? id = some e' →
    ∃ e, g.transitions.get? id = some e ∧ e' = { e with isActive := e'.isActive }) ok
    (fun live => ⟨_, live, rfl⟩) ?_ live
  intro g₁ k _ g₂ before ok e' live
  obtain ⟨-, rfl⟩ := updateTransition_eq_ok.1 ok
  rcases Arena.of_get?_modify live with ⟨-, old⟩ | ⟨-, e₁, he₁, rfl⟩
  · exact before old
  · obtain ⟨e, he, same⟩ := before he₁
    exact ⟨e, he, by rw [same]⟩

theorem deactivate_frames {silenced : StateId → ActionId → Prop} {id : TransitionId}
    (ok : g.deactivate id = .ok g')
    (rivals : ∀ {e}, g.transitions.get? id = some e → silenced e.source e.action) :
    g.Frames g' (fun _ => False) silenced := by
  obtain ⟨-, rfl⟩ := updateTransition_eq_ok.1 ok
  refine ⟨fun {k e} live _ => ⟨?_, fun c hc => ⟨c, hc, .refl c⟩, rfl⟩, fun live => ?_⟩
  · by_cases here : id = k
    · subst here
      refine ⟨{ e with isActive := false }, by simp [Arena.get?_modify, live], rfl, ?_, .inl rfl⟩
      cases active : e.isActive with
      | true => exact .inr ⟨rivals live, rfl, rfl⟩
      | false => exact .inl rfl
    · exact ⟨e, by simp [Arena.get?_modify, here, live], .refl _ e⟩
  · rcases Arena.of_get?_modify live with ⟨-, old⟩ | ⟨-, e, he, -⟩
    · exact .inl ⟨_, old, not_false⟩
    · exact .inl ⟨e, he, not_false⟩

theorem deactivateAll_frames {silenced : StateId → ActionId → Prop} {ids : List TransitionId}
    (ok : g.deactivateAll ids = .ok g')
    (rivals : ∀ id ∈ ids, ∀ {e}, g.transitions.get? id = some e → silenced e.source e.action) :
    g.Frames g' (fun _ => False) silenced := by
  induction ids generalizing g with
  | nil =>
    cases ok
    exact .refl _
  | cons id r ih =>
    obtain ⟨g₁, first, ok⟩ := Checked.bind_eq_ok.1 ok
    refine ((deactivate_frames first (rivals id (by simp))).trans (ih ok ?_)).congr fun _ => by simp
    -- deactivation leaves the source and the action of an edge alone
    intro k mem e' live
    obtain ⟨-, rfl⟩ := updateTransition_eq_ok.1 first
    rcases Arena.of_get?_modify live with ⟨-, old⟩ | ⟨-, e, he, rfl⟩
    · exact rivals k (by simp [mem]) old
    · exact (rivals k (by simp [mem]) he :)

theorem Consistent.deactivateAll (h : g.Consistent) {ids : List TransitionId}
    (ok : g.deactivateAll ids = .ok g') : g'.Consistent := by
  refine foldChecked_induct (fun g : Graph => g.Consistent) ok h ?_
  intro g₁ id _ g₂ h ok
  obtain ⟨-, rfl⟩ := updateTransition_eq_ok.1 ok
  exact h.modify fun _ => ⟨rfl, rfl⟩

theorem deactivateAll_succeeds {ids : List TransitionId}
    (live : ∀ id ∈ ids, g.transitions.contains id = true) : Succeeds (g.deactivateAll ids) := by
  refine foldChecked_succeeds (fun g : Graph => ∀ id ∈ ids, g.transitions.contains id = true) live
    ?_ ?_
  · intro g₁ id mem live
    exact ⟨_, updateTransition_eq_ok.2 ⟨live id mem, rfl⟩⟩
  · intro g₁ id _ g₂ live ok k mem
    obtain ⟨-, rfl⟩ := updateTransition_eq_ok.1 ok
    exact (Arena.contains_modify ..).trans (live k mem)

theorem Consistent.supersede_succeeds (h : g.Consistent) {t : TransitionId}
    (live : g.transitions.contains t = true) : Succeeds (g.supersede t) := by
  obtain ⟨e, he⟩ := Arena.contains_iff.1 live
  refine .get he ?_
  refine (h.rivals_succeeds live).bind fun ids hids => ?_
  refine Succeeds.bind ?_ fun active hactive => ?_
  · refine filterChecked_succeeds fun id mem => ?_
    obtain ⟨u, hu⟩ := Arena.contains_iff.1 (rivals_live hids mem)
    exact .get hu (succeeds_pure _)
  · refine deactivateAll_succeeds fun id mem => ?_
    exact rivals_live hids ((mem_filterChecked hactive).1 mem).1

theorem supersede_eq_ok {t : TransitionId} (ok : g.supersede t = .ok g') :
    ∃ ids, g.deactivateAll ids = .ok g' := by
  obtain ⟨u, -, ok⟩ := Checked.bind_eq_ok.1 ok
  obtain ⟨rivals, -, ok⟩ := Checked.bind_eq_ok.1 ok
  obtain ⟨ids, -, ok⟩ := Checked.bind_eq_ok.1 ok
  exact ⟨ids, ok⟩

theorem Consistent.supersede_frames (h : g.Consistent) {t : TransitionId}
    (ok : g.supersede t = .ok g') : g.Frames g' (fun _ => False) (g.Leaves t) := by
  obtain ⟨u, -, ok⟩ := Checked.bind_eq_ok.1 ok
  obtain ⟨rivals, hrivals, ok⟩ := Checked.bind_eq_ok.1 ok
  obtain ⟨ids, hids, ok⟩ := Checked.bind_eq_ok.1 ok
  refine deactivateAll_frames ok fun id mem e live => ?_
  exact h.rivals_leave hrivals ((mem_filterChecked hids).1 mem).1 live

end Graph

namespace Session

variable {s s' : Session} {t : TransitionId}

theorem Sound.pruneObsolete_succeeds (h : s.Sound) (p : Option StateId)
    (live : s.model.graph.transitions.contains t = true) : Succeeds (s.pruneObsolete t p) := by
  refine (h.model.graph.obsolete_succeeds _ live).bind fun ids _ => ?_
  refine (h.model.graph.prune_succeeds ids).bind fun _ _ => ?_
  exact succeeds_pure _

theorem Sound.pruneObsolete (h : s.Sound) {p : Option StateId} {keys : List EdgeKey}
    (ok : s.pruneObsolete t p = .ok (keys, s')) :
    s'.Sound ∧ s'.model.graph.transitions.get? t = s.model.graph.transitions.get? t ∧
      ∀ k ∈ keys, s'.model.graph.states.contains k.dest = true := by
  have keeps := pruneObsolete_keeps ok
  obtain ⟨ids, g, obsolete, removed, rfl⟩ := pruneObsolete_eq_ok ok
  have same := Graph.prune_sameStates removed
  have edge := Graph.prune_get? removed
  refine ⟨⟨h.model.withGraph (h.model.graph.prune removed) same ?_, ?_⟩, ?_, ?_⟩
  · intro id e live
    rw [edge] at live
    split at live
    · cases live
    · exact h.model.edge live
  · exact (h.ledger.keeps keeps.model).book rfl (h.ledger.keeps keeps.model).input
  · exact (edge t).trans (if_neg fun mem => Graph.mem_obsolete obsolete mem rfl)
  · intro k mem
    rw [keeps.model.contains_state]
    exact h.model.graph.prune_keys removed mem

theorem Sound.supersede_succeeds (h : s.Sound)
    (live : s.model.graph.transitions.contains t = true) : Succeeds (s.supersede t) :=
  (h.model.graph.supersede_succeeds live).bind fun _ _ => succeeds_pure _

theorem Sound.supersede (h : s.Sound) (ok : s.supersede t = .ok s') : s'.Sound := by
  have keeps := supersede_keeps ok
  obtain ⟨g, superseded, rfl⟩ := supersede_eq_ok ok
  obtain ⟨ids, deactivated⟩ := Graph.supersede_eq_ok superseded
  refine ⟨h.model.withGraph (h.model.graph.deactivateAll deactivated) ?_ ?_, ?_⟩
  · exact fun k => by rw [Graph.deactivateAll_states deactivated]
  · intro id e' live
    obtain ⟨e, he, same⟩ := Graph.deactivateAll_edge deactivated live
    rw [same]
    exact ⟨(h.model.edge he).action, (h.model.edge he).guards⟩
  · exact h.ledger.keeps keeps.model

end Session

end ScreenGraph
