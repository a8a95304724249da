import ScreenGraph.Proofs.Frame

namespace ScreenGraph

theorem OrderedSet.ofList_append {α : Type} [DecidableEq α] (xs ys : List α) :
    OrderedSet.ofList (xs ++ ys) = (OrderedSet.ofList xs).insertMany ys := List.foldl_append

namespace ActionTable

inductive Call
  | intern (window : WindowId) (a : Action)
  | find (window : WindowId) (a : Action)
  | markNavigateBack (id : ActionId)
  | bindInput (id : ActionId) (input : InputId)
  deriving DecidableEq

namespace Call

def handle? : Call → Option ActionId
  | .intern _ _ => none
  | .find _ _ => none
  | .markNavigateBack id => some id
  | .bindInput id _ => some id

def isFind : Call → Bool
  | .find _ _ => true
  | _ => false

def inputOf? (id : ActionId) : Call → Option InputId
  | .bindInput k input => if k = id then some input else none
  | _ => none

end Call

def perform (t : ActionTable) : Call → Checked (Option ActionId × ActionTable)
  | .intern w a => .ok (some (t.intern w a).1, (t.intern w a).2)
  | .find w a => .ok (t.find? w a, t)
  | .markNavigateBack id => return (none, ← t.markNavigateBack id)
  | .bindInput id input => return (none, ← t.bindInput id input)

abbrev Log := List (Call × Option ActionId)

def performAll (t : ActionTable) : List Call → Checked (Log × ActionTable)
  | [] => .ok ([], t)
  | call :: rest => do
    let (answer, t) ← t.perform call
    let (log, t) ← performAll t rest
    return ((call, answer) :: log, t)

namespace Log

def calls (log : Log) : List Call := log.map Prod.fst

def Gives (log : Log) (w : WindowId) (a : Action) (id : ActionId) : Prop :=
  (.intern w a, some id) ∈ log

def entry (log : Log) (a : Action) (id : ActionId) : ActionEntry where
  action := a
  navigateBack := decide (.markNavigateBack id ∈ log.calls)
  inputs := .ofList (log.calls.filterMap (Call.inputOf? id))

variable {log : Log} {call : Call} {answer : Option ActionId} {w : WindowId} {a : Action}
  {id : ActionId}

theorem gives_snoc : Gives (log ++ [(call, answer)]) w a id ↔
    log.Gives w a id ∨ call = .intern w a ∧ answer = some id := by
  simp only [Gives, List.mem_append, List.mem_singleton, Prod.mk.injEq, eq_comm]

theorem entry_snoc (a : Action) (id : ActionId) : entry (log ++ [(call, answer)]) a id =
    { log.entry a id with
      navigateBack := (log.entry a id).navigateBack || decide (call = .markNavigateBack id)
      inputs := (log.entry a id).inputs.insertMany (call.inputOf? id).toList } := by
  have calls : calls (log ++ [(call, answer)]) = log.calls ++ [call] := List.map_append
  apply congrArg₂ (ActionEntry.mk a)
  · simp [calls, entry, eq_comm]
  · rw [calls, List.filterMap_append, OrderedSet.ofList_append]
    cases h : call.inputOf? id <;> simp [h, entry]

theorem entry_snoc_of_ne (other : call.handle? ≠ some id) :
    entry (log ++ [(call, answer)]) a id = log.entry a id := by
  rw [entry_snoc]
  cases call with
  | intern => simp [Call.inputOf?, OrderedSet.insertMany]
  | find => simp [Call.inputOf?, OrderedSet.insertMany]
  | markNavigateBack k =>
    have other : k ≠ id := fun same => other (congrArg some same)
    simp [Call.inputOf?, OrderedSet.insertMany, other]
  | bindInput k input =>
    have other : k ≠ id := fun same => other (congrArg some same)
    simp [Call.inputOf?, OrderedSet.insertMany, other]

end Log

variable {t t' : ActionTable} {log : Log} {call : Call} {answer : Option ActionId}

inductive Step (t : ActionTable) : Call → Option ActionId → ActionTable → Prop
  | found {w a id} (known : t.find? w a = some id) : Step t (.intern w a) (some id) t
  | created {w a} (unknown : t.find? w a = none) :
      Step t (.intern w a) (some t.entries.next)
        { entries := (t.entries.add { action := a }).2
          index := t.index.insert (w, a) t.entries.next }
  | looked (w a) : Step t (.find w a) (t.find? w a) t
  | marked {id} (live : t.entries.contains id = true) :
      Step t (.markNavigateBack id) none
        { t with entries := t.entries.modify id fun e => { e with navigateBack := true } }
  | bound {id input} (live : t.entries.contains id = true) :
      Step t (.bindInput id input) none
        { t with entries :=
            t.entries.modify id fun e => { e with inputs := e.inputs.insert input } }

theorem perform_step (ok : t.perform call = .ok (answer, t')) : t.Step call answer t' := by
  cases call with
  | intern w a =>
    cases ok
    unfold intern
    split
    · next known => exact .found known
    · next unknown => exact .created unknown
  | find w a =>
    cases ok
    exact .looked w a
  | markNavigateBack id =>
    obtain ⟨t₁, marked, done⟩ := Checked.bind_eq_ok.1 ok
    cases done
    obtain ⟨live, rfl⟩ := update_eq_ok.1 marked
    exact .marked live
  | bindInput id input =>
    obtain ⟨t₁, bound, done⟩ := Checked.bind_eq_ok.1 ok
    cases done
    obtain ⟨live, rfl⟩ := update_eq_ok.1 bound
    exact .bound live

theorem update_of_vacant {id : ActionId} (vacant : t.entries.contains id = false)
    (f : ActionEntry → ActionEntry) : t.update id f = .error (.vacant id) := by
  have none : t.entries.get? id = none := by simpa [Arena.contains] using vacant
  simp [update, Arena.update, Arena.get, none, bind, Except.bind]

theorem perform_fails (t : ActionTable) (call : Call) : Succeeds (t.perform call) ∨
    ∃ id, call.handle? = some id ∧ t.entries.contains id = false ∧
      t.perform call = .error (.vacant id) := by
  have change (id : ActionId) (f : ActionEntry → ActionEntry) :
      Succeeds (t.update id f >>= fun t => pure ((none : Option ActionId), t)) ∨
        t.entries.contains id = false ∧
          (t.update id f >>= fun t => pure ((none : Option ActionId), t)) =
            .error (.vacant id) := by
    cases known : t.entries.contains id with
    | true => exact .inl (.after (update_eq_ok.2 ⟨known, rfl⟩) (succeeds_pure _))
    | false =>
      rw [update_of_vacant known]
      exact .inr ⟨rfl, rfl⟩
  cases call with
  | intern w a => exact .inl (succeeds_ok _)
  | find w a => exact .inl (succeeds_ok _)
  | markNavigateBack id =>
    exact (change id _).imp_right fun ⟨vacant, fails⟩ => ⟨id, rfl, vacant, fails⟩
  | bindInput id input =>
    exact (change id _).imp_right fun ⟨vacant, fails⟩ => ⟨id, rfl, vacant, fails⟩

/-- A table holds what its history says. Both the index and the entries are read off the history,
and a handle is given for one window only. -/
structure Reflects (t : ActionTable) (log : Log) : Prop where
  index : ∀ {w a id}, t.find? w a = some id ↔ log.Gives w a id
  entry : ∀ {w a id}, log.Gives w a id → t.entries.get? id = some (log.entry a id)
  window : ∀ {w a v b id}, log.Gives w a id → log.Gives v b id → w = v
  given : ∀ {id}, t.entries.contains id = true → ∃ w a, log.Gives w a id
  named : ∀ {call id}, call ∈ log.calls → call.handle? = some id → t.entries.contains id = true

namespace Reflects

theorem start : Reflects {} [] where
  index := iff_of_false nofun nofun
  entry := nofun
  window := nofun
  given := nofun
  named := nofun

theorem contains_iff (h : t.Reflects log) {id : ActionId} :
    t.entries.contains id = true ↔ ∃ w a, log.Gives w a id := by
  constructor
  · exact h.given
  · rintro ⟨w, a, gives⟩
    exact Arena.contains_of_get? (h.entry gives)

theorem named_snoc (h : t.Reflects log) (still : ∀ {id}, t.entries.contains id = true →
      t'.entries.contains id = true)
    (live : ∀ {id}, call.handle? = some id → t'.entries.contains id = true) {c : Call}
    {id : ActionId} (mem : c ∈ Log.calls (log ++ [(call, answer)])) (on : c.handle? = some id) :
    t'.entries.contains id = true := by
  rw [Log.calls, List.map_append, List.mem_append] at mem
  rcases mem with old | new
  · exact still (h.named old on)
  · cases List.mem_singleton.1 new
    exact live on

theorem quiet (h : t.Reflects log) (idle : call.handle? = none)
    (known : ∀ {w a id}, call = .intern w a → answer = some id → log.Gives w a id) :
    t.Reflects (log ++ [(call, answer)]) := by
  have gives {w a id} : Log.Gives (log ++ [(call, answer)]) w a id ↔ log.Gives w a id := by
    rw [Log.gives_snoc]
    exact or_iff_left_of_imp fun ⟨same, answered⟩ => known same answered
  constructor
  case index => exact h.index.trans gives.symm
  case entry =>
    intro w a id given
    rw [Log.entry_snoc_of_ne (by simp [idle])]
    exact h.entry (gives.1 given)
  case window => exact fun given given' => h.window (gives.1 given) (gives.1 given')
  case given =>
    intro id live
    obtain ⟨w, a, given⟩ := h.given live
    exact ⟨w, a, gives.2 given⟩
  case named => exact h.named_snoc id fun on => by simp [idle] at on

theorem create (h : t.Reflects log) {w : WindowId} {a : Action} (unknown : t.find? w a = none) :
    Reflects { entries := (t.entries.add { action := a }).2
               index := t.index.insert (w, a) t.entries.next }
      (log ++ [(.intern w a, some t.entries.next)]) := by
  have vacant : t.entries.contains t.entries.next = false := by simp [Arena.contains]
  have fresh {v b id} (given : log.Gives v b id) : id ≠ t.entries.next := by
    rintro rfl
    cases vacant.symm.trans (h.contains_iff.2 ⟨v, b, given⟩)
  have blank : log.entry a t.entries.next = { action := a } := by
    have untouched {c : Call} (mem : c ∈ log.calls) : c.handle? ≠ some t.entries.next :=
      fun on => by cases vacant.symm.trans (h.named mem on)
    have unmarked : .markNavigateBack t.entries.next ∉ log.calls := fun mem => untouched mem rfl
    have unbound : log.calls.filterMap (Call.inputOf? t.entries.next) = [] := by
      refine List.filterMap_eq_nil_iff.2 fun c mem => ?_
      cases c with
      | bindInput k input => exact if_neg fun same => untouched mem (congrArg some same)
      | _ => rfl
    rw [Log.entry, unbound, decide_eq_false unmarked]
    rfl
  constructor
  case index =>
    intro v b id
    rw [Log.gives_snoc, find?, OrderedMap.get?_insert]
    split
    · next same =>
      obtain ⟨rfl, rfl⟩ := Prod.mk.inj same
      have never : ¬ log.Gives w a id := fun given => by
        cases unknown.symm.trans (h.index.2 given)
      simp [never]
    · next other =>
      rw [← find?, h.index]
      refine (or_iff_left ?_).symm
      rintro ⟨⟨⟩, -⟩
      exact other rfl
  case entry =>
    intro v b id given
    rw [Log.entry_snoc_of_ne (by simp [Call.handle?]), Arena.get?_add]
    rcases Log.gives_snoc.1 given with old | ⟨⟨⟩, ⟨⟩⟩
    · rw [if_neg (fresh old), h.entry old]
    · rw [if_pos rfl, blank]
  case window =>
    intro v b v' b' id given given'
    rcases Log.gives_snoc.1 given with old | ⟨⟨⟩, ⟨⟩⟩
    · rcases Log.gives_snoc.1 given' with old' | ⟨⟨⟩, ⟨⟩⟩
      · exact h.window old old'
      · exact absurd rfl (fresh old)
    · rcases Log.gives_snoc.1 given' with old' | ⟨⟨⟩, -⟩
      · exact absurd rfl (fresh old')
      · rfl
  case given =>
    intro id live
    obtain ⟨e, live⟩ := Arena.contains_iff.1 live
    rcases Arena.of_get?_add live with old | ⟨rfl, -⟩
    · obtain ⟨v, b, given⟩ := h.given (Arena.contains_of_get? old)
      exact ⟨v, b, Log.gives_snoc.2 (.inl given)⟩
    · exact ⟨w, a, Log.gives_snoc.2 (.inr ⟨rfl, rfl⟩)⟩
  case named => exact h.named_snoc (fun live => Arena.contains_add live _) (by simp [Call.handle?])

theorem amend (h : t.Reflects log) {id : ActionId} {f : ActionEntry → ActionEntry}
    (on : call.handle? = some id) (live : t.entries.contains id = true)
    (does : ∀ a, f (log.entry a id) = Log.entry (log ++ [(call, none)]) a id) :
    Reflects { t with entries := t.entries.modify id f } (log ++ [(call, none)]) := by
  have gives {w a k} : Log.Gives (log ++ [(call, none)]) w a k ↔ log.Gives w a k := by
    simp [Log.gives_snoc]
  have still {k : ActionId} : (t.entries.modify id f).contains k = t.entries.contains k :=
    Arena.contains_modify ..
  constructor
  case index => exact h.index.trans gives.symm
  case entry =>
    intro w a k given
    rw [Arena.get?_modify, h.entry (gives.1 given)]
    split
    · next same =>
      subst same
      exact congrArg some (does a)
    · next other =>
      rw [Log.entry_snoc_of_ne]
      rw [on]
      exact fun same => other (Option.some.inj same)
  case window => exact fun given given' => h.window (gives.1 given) (gives.1 given')
  case given =>
    intro k live
    obtain ⟨w, a, given⟩ := h.given (still.symm.trans live)
    exact ⟨w, a, gives.2 given⟩
  case named =>
    refine h.named_snoc still.trans fun on' => still.trans ?_
    cases on.symm.trans on'
    exact live

theorem step (h : t.Reflects log) (step : t.Step call answer t') :
    t'.Reflects (log ++ [(call, answer)]) := by
  cases step with
  | found known =>
    refine h.quiet rfl ?_
    rintro w a id ⟨⟩ ⟨⟩
    exact h.index.1 known
  | created unknown => exact h.create unknown
  | looked w a => exact h.quiet rfl nofun
  | marked live =>
    refine h.amend rfl live fun a => ?_
    simp [Log.entry_snoc, Call.inputOf?, OrderedSet.insertMany]
  | bound live =>
    refine h.amend rfl live fun a => ?_
    simp [Log.entry_snoc, Call.inputOf?, OrderedSet.insertMany]

theorem run (h : t.Reflects log) {calls : List Call} {log' : Log}
    (ok : t.performAll calls = .ok (log', t')) :
    t'.Reflects (log ++ log') ∧ log'.calls = calls := by
  induction calls generalizing t log log' with
  | nil =>
    cases ok
    rw [List.append_nil]
    exact ⟨h, rfl⟩
  | cons call rest ih =>
    obtain ⟨⟨answer, t₁⟩, performed, ok⟩ := Checked.bind_eq_ok.1 ok
    obtain ⟨⟨log₁, t₂⟩, followed, ok⟩ := Checked.bind_eq_ok.1 ok
    cases ok
    obtain ⟨reflects, calls⟩ := ih (h.step (perform_step performed)) followed
    rw [List.append_assoc] at reflects
    exact ⟨reflects, congrArg (call :: ·) calls⟩

theorem goes (h : t.Reflects log) (calls : List Call) : Succeeds (t.performAll calls) ∨
    ∃ before call rest log' t' id, calls = before ++ call :: rest ∧
      t.performAll before = .ok (log', t') ∧ call.handle? = some id ∧
      (∀ w a, ¬ Log.Gives (log ++ log') w a id) ∧ t.performAll calls = .error (.vacant id) := by
  induction calls generalizing t log with
  | nil => exact .inl (succeeds_ok _)
  | cons call rest ih =>
    rcases perform_fails t call with ⟨⟨answer, t₁⟩, performed⟩ | ⟨id, on, vacant, fails⟩
    · rcases ih (h.step (perform_step performed)) with followed | ended
      · exact .inl (.after performed (followed.bind fun _ _ => succeeds_pure _))
      · obtain ⟨before, c, rest', log', t', id, rfl, ran, on, unknown, fails⟩ := ended
        refine .inr ⟨call :: before, c, rest', (call, answer) :: log', t', id, rfl, ?_, on, ?_, ?_⟩
        · exact Checked.bind_eq_ok.2 ⟨_, performed, Checked.bind_eq_ok.2 ⟨_, ran, rfl⟩⟩
        · rwa [List.append_assoc] at unknown
        · simp [performAll, performed, fails, bind, Except.bind]
    · refine .inr ⟨[], call, rest, [], t, id, rfl, rfl, on, fun w a given => ?_, ?_⟩
      · rw [List.append_nil] at given
        cases vacant.symm.trans (h.contains_iff.2 ⟨w, a, given⟩)
      · simp [performAll, fails, bind, Except.bind]

end Reflects

theorem performAll_without_finds (t : ActionTable) (calls : List Call) :
    t.performAll (calls.filter fun call => !call.isFind) =
      (t.performAll calls).map fun (log, t') => (log.filter fun e => !e.1.isFind, t') := by
  induction calls generalizing t with
  | nil => rfl
  | cons call rest ih =>
    cases looks : call.isFind with
    | true =>
      rw [List.filter_cons_of_neg (by simp [looks]), ih]
      cases call <;> cases looks
      simp only [performAll, perform, bind, Except.bind]
      cases t.performAll rest <;> simp [Except.map, Call.isFind, pure, Except.pure]
    | false =>
      rw [List.filter_cons_of_pos (by simp [looks])]
      simp only [performAll, bind, Except.bind]
      cases t.perform call with
      | error => rfl
      | ok performed =>
        dsimp only
        rw [ih]
        cases performed.2.performAll rest <;> simp [Except.map, looks, pure, Except.pure]

structure Interns (t : ActionTable) (log : Log) : Prop where
  same : ∀ {w a id v b k}, log.Gives w a id → log.Gives v b k →
    (id = k ↔ w = v ∧ a.kind = b.kind ∧ a.target = b.target)
  action : ∀ {id a}, t.action id = .ok a ↔ ∃ w, log.Gives w a id
  find : ∀ {w a id}, t.find? w a = some id ↔ log.Gives w a id
  known : ∀ {w a id}, log.Gives w a id → t.intern w a = (id, t)
  new : ∀ {w a}, (∀ id, ¬ log.Gives w a id) → ∀ v b, ¬ log.Gives v b (t.intern w a).1
  navigateBack : ∀ {w a id}, log.Gives w a id →
    t.isNavigateBack id = .ok (decide (.markNavigateBack id ∈ log.calls))
  inputs : ∀ {w a id}, log.Gives w a id →
    t.inputsOf id = .ok (.ofList (log.calls.filterMap (Call.inputOf? id)))
  next : ∀ {w a id call answer t'}, log.Gives w a id → call.handle? ≠ some id →
    t.perform call = .ok (answer, t') →
    t'.isNavigateBack id = t.isNavigateBack id ∧ t'.inputsOf id = t.inputsOf id

theorem Reflects.interns (h : t.Reflects log) : t.Interns log := by
  have read {w a id} (given : log.Gives w a id) : t.entries.get id = .ok (log.entry a id) :=
    Arena.get_eq_ok_iff.2 (h.entry given)
  constructor
  case same =>
    intro w a id v b k given given'
    constructor
    · rintro rfl
      have entries := Option.some.inj ((h.entry given).symm.trans (h.entry given'))
      have action : a = b := congrArg ActionEntry.action entries
      exact ⟨h.window given given', congrArg _ action, congrArg _ action⟩
    · rintro ⟨rfl, kind, target⟩
      have action : a = b := by
        cases a
        cases b
        cases kind
        cases target
        rfl
      subst action
      exact Option.some.inj ((h.index.2 given).symm.trans (h.index.2 given'))
  case action =>
    intro id a
    rw [action_eq_ok]
    constructor
    · rintro ⟨e, live, rfl⟩
      obtain ⟨w, b, given⟩ := h.given (Arena.contains_of_get? live)
      cases live.symm.trans (h.entry given)
      exact ⟨w, given⟩
    · rintro ⟨w, given⟩
      exact ⟨_, h.entry given, rfl⟩
  case find => exact h.index
  case known =>
    intro w a id given
    rw [intern, h.index.2 given]
  case new =>
    intro w a unknown v b given
    have absent : t.find? w a = none := Option.eq_none_iff_forall_not_mem.2 fun id found =>
      unknown id (h.index.1 found)
    have next : (t.intern w a).1 = t.entries.next := by
      rw [intern, absent]
      rfl
    rw [next] at given
    cases (Arena.get?_next _).symm.trans (h.entry given)
  case navigateBack =>
    intro w a id given
    rw [isNavigateBack, read given]
    rfl
  case inputs =>
    intro w a id given
    rw [inputsOf, read given]
    rfl
  case next =>
    intro w a id call answer t' given other ok
    have step := perform_step ok
    have after : t'.entries.get id = .ok (log.entry a id) := by
      rw [Arena.get_eq_ok_iff, (h.step step).entry (Log.gives_snoc.2 (.inl given)),
        Log.entry_snoc_of_ne other]
    rw [isNavigateBack, isNavigateBack, inputsOf, inputsOf, after, read given]
    exact ⟨rfl, rfl⟩

/-- Whatever calls are made on a table, it interns. A run goes through unless it makes a call on a
handle that was never given, and lookups do not disturb it. -/
theorem performAll_interns (calls : List Call) :
    (∀ log t, performAll {} calls = .ok (log, t) → log.calls = calls ∧ t.Interns log) ∧
    (Succeeds (performAll {} calls) ∨
      ∃ before call rest log t id, calls = before ++ call :: rest ∧
        performAll {} before = .ok (log, t) ∧ call.handle? = some id ∧
        (∀ w a, ¬ log.Gives w a id) ∧ performAll {} calls = .error (.vacant id)) ∧
    performAll {} (calls.filter fun call => !call.isFind) =
      (performAll {} calls).map fun (log, t) => (log.filter fun e => !e.1.isFind, t) := by
  refine ⟨fun log t ok => ?_, Reflects.start.goes calls, performAll_without_finds {} calls⟩
  obtain ⟨reflects, same⟩ := Reflects.start.run ok
  exact ⟨same, reflects.interns⟩

example :
    let click : Action := { kind := .click, target := some ⟨3⟩ }
    (performAll {} [.intern ⟨1⟩ click, .intern ⟨1⟩ click, .find ⟨2⟩ click, .intern ⟨2⟩ click]).map
      (fun (log, _) => log.map Prod.snd) = .ok [some ⟨0⟩, some ⟨0⟩, none, some ⟨1⟩] := rfl

end ActionTable

end ScreenGraph
