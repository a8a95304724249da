import ScreenGraph.Proofs.Pruning
import ScreenGraph.Proofs.Registering

namespace ScreenGraph

namespace Session

variable {s s' s'' : Session} {g : Sighting}

def Compared (s s' : Session) : Prop :=
  s'.ledger = s.ledger ∧
    ∃ r, s'.model = { s.model with catalog := { s.model.catalog with replacements := r } }

theorem Compared.refl (s : Session) : s.Compared s := ⟨rfl, s.model.catalog.replacements, rfl⟩

theorem Compared.trans (h : s.Compared s') (h' : s'.Compared s'') : s.Compared s'' := by
  obtain ⟨ledger, r, model⟩ := h
  obtain ⟨ledger', r', model'⟩ := h'
  exact ⟨ledger'.trans ledger, r', by rw [model', model]⟩

theorem Compared.aside (h : s.Compared s') : s.Aside s' := by
  obtain ⟨ledger, r, model⟩ := h
  refine ⟨?_, by rw [ledger]⟩
  rw [model]
  exact ⟨.ofReplacements r, rfl⟩

theorem Compared.compare {o b : StateId} {strict : Bool} {c : Comparison} {m : Model}
    (ok : s.model.compare o b strict = .ok (c, m)) : s.Compared { s with model := m } :=
  ⟨rfl, Model.compare_eq_ok ok⟩

theorem Sound.compared (h : s.Sound) (k : s.Compared s') : s'.Sound := by
  have aside := k.aside.model
  obtain ⟨ledger, r, model⟩ := k
  refine ⟨h.model.aside aside (h.model.actions.keeps aside.toKeeps ?_), ?_⟩
  · rw [model]
  · rw [ledger]
    exact h.ledger.keeps aside.toKeeps

theorem search_none {strict : Bool} {bases : List StateId}
    (ok : search strict g bases s = .ok (none, s')) : s.Compared s' := by
  induction bases generalizing s with
  | nil =>
    cases ok
    exact .refl _
  | cons b r ih =>
    obtain ⟨⟨c, m⟩, compared, ok⟩ := Checked.bind_eq_ok.1 ok
    have step := Compared.compare compared
    dsimp only at ok
    split at ok
    · cases ok
    · exact step.trans (ih ok)

theorem search_some {strict : Bool} {bases : List StateId} {b : StateId} {r : Rule} {x : Matching}
    (ok : search strict g bases s = .ok (some (b, r, x), s')) :
    b ∈ bases ∧ s.Compared s' ∧ ∃ s₀ c, s.Compared s₀ ∧
      s₀.model.compare g.state b strict = .ok (c, s'.model) ∧ c.accepted? = some (r, x) := by
  induction bases generalizing s with
  | nil => cases ok
  | cons b₀ rest ih =>
    obtain ⟨⟨c, m⟩, compared, ok⟩ := Checked.bind_eq_ok.1 ok
    have step := Compared.compare compared
    dsimp only at ok
    split at ok
    · next accepted =>
      cases ok
      exact ⟨by simp, step, s, c, .refl s, compared, accepted⟩
    · obtain ⟨mem, rest, s₀, c₀, before, last, accepted⟩ := ih ok
      exact ⟨by simp [mem], step.trans rest, s₀, c₀, step.trans before, last, accepted⟩

theorem search_succeeds {strict : Bool} {bases : List StateId} (h : s.Sound)
    (ho : s.model.graph.states.contains g.state = true)
    (hb : ∀ b ∈ bases, s.model.graph.states.contains b = true) :
    Succeeds (search strict g bases s) := by
  induction bases generalizing s with
  | nil => exact succeeds_ok _
  | cons b r ih =>
    refine (h.model.states.compare_succeeds ho (hb b (by simp))).bind fun ⟨c, m⟩ compared => ?_
    have step := Compared.compare compared
    dsimp only
    split
    · exact succeeds_pure _
    · refine ih (h.compared step) ?_ fun b' mem => ?_
      · exact (step.aside.model.contains_state _).trans ho
      · exact (step.aside.model.contains_state _).trans (hb b' (by simp [mem]))

theorem search_places {strict : Bool} {bases : List StateId} {b : StateId} {r : Rule}
    {x : Matching} (h : s.Sound) (ok : search strict g bases s = .ok (some (b, r, x), s')) :
    s'.Places g.state x := by
  obtain ⟨-, compared, s₀, c, before, last, accepted⟩ := search_some ok
  obtain ⟨rfl, -⟩ := Model.compare_accepted last accepted
  obtain ⟨so, sb, hso, -, within⟩ := Model.compare_within last
  have placed := (h.compared before).places hso within
  exact placed.keeps (Model.compare_aside last).toKeeps

/-- Where the classifiers that read what is known leave a state undecided. -/
structure Undecided (s : Session) (g : Sighting) : Prop where
  state : ∃ st, s.model.graph.states.get? g.state = some st ∧ st.isHome = false ∧
    st.version = .running
  unknown : g.state ∉ s.ledger.newStates
  uncached : ∀ b ∈ s.ledger.basesOf g.snapshot, s.ledger.isRecognised g.state b = false

/-- The searches that classifiers make: which classifiers passed before, how strictly the search
compares, and which candidates it goes through. -/
inductive Seeks (g : Sighting) (s : Session) : List Classifier → Bool → List StateId → Prop
  | initial {a} (action : s.model.actions.action g.action = .ok a)
      (restarts : a.isLaunchOrReset = true) : Seeks g s
      [Classifier.homeScreen, Classifier.knownNew, Classifier.cached, Classifier.observedBase]
      false (Classifier.initialBases s.model)
  | obsolete {bases} (dests : Classifier.obsoleteBases s.model g.pruned = .ok bases) : Seeks g s
      [Classifier.homeScreen, Classifier.knownNew, Classifier.cached, Classifier.observedBase,
        Classifier.initialState]
      false bases
  | scan {bases} (scanned : Classifier.windowBases s g = .ok bases) : Seeks g s
      [Classifier.homeScreen, Classifier.knownNew, Classifier.cached, Classifier.observedBase,
        Classifier.initialState, Classifier.obsoleteDestination]
      s.model.policy.strictScan bases

inductive Finds (s : Session) (g : Sighting) (b : StateId) (r : Rule) (x : Matching)
    (mid : Session) : Prop
  | intro {before strict bases s₀} (passed : Classifier.firstOf before g s = .ok (none, s₀))
      (seeks : Seeks g s₀ before strict bases)
      (found : search strict g bases s₀ = .ok (some (b, r, x), mid))

def Passed (g : Sighting) (s s' : Session) : Prop :=
  s.Compared { s' with ledger := s.ledger } ∧
    (s'.ledger = s.ledger ∨ s'.ledger = s.ledger.markIncorrect g.pruned)

/-- The answers to an observation that was sighted, and what was made of the pruned keys by then. -/
inductive Answers (s : Session) (g : Sighting) : Classification → Session → Prop
  | homeScreen {st} (state : s.model.graph.states.get? g.state = some st)
      (home : st.isHome = true) : Answers s g .homeScreen s
  | knownNew (known : g.state ∈ s.ledger.newStates) :
      Answers s g .knownNew { s with ledger := s.ledger.markNewSnapshot g.snapshot }
  | cached {b} (base : b ∈ s.ledger.basesOf g.snapshot)
      (entered : s.ledger.isRecognised g.state b = true) : Answers s g (.cached b) s
  | observedBase {st} (state : s.model.graph.states.get? g.state = some st)
      (version : st.version = .base) :
      Answers s g .observedBase { s with ledger := s.ledger.markObservedBase g.state }
  | equivalent {b r x mid} {s' : Session} (undecided : s.Undecided g) (found : s.Finds g b r x mid)
      (registered : mid.register g.state b g.snapshot x = .ok s')
      (before : (Classifier.initialState g s = .ok (some (.equivalent b r), s') ∧
        mid.ledger = s.ledger) ∨ mid.ledger = s.ledger.markIncorrect g.pruned) :
      Answers s g (.equivalent b r) s'
  | reproduces {b r x mid keys} {s' : Session} (undecided : s.Undecided g)
      (found : s.Finds g b r x mid) (registered : mid.register g.state b g.snapshot x = .ok s')
      (some : keys ≠ []) (within : ∀ k ∈ keys, k ∈ g.pruned) (before : mid.ledger = s.ledger)
      (leads : keys = g.pruned.filter fun k => k.dest = b) :
      Answers s g (.equivalent b r) { s' with ledger := s'.ledger.reproduce g.transition keys }
  | new {s' : Session} (undecided : s.Undecided g) (passed : Passed g s s')
      (refuted : s'.ledger = s.ledger.markIncorrect g.pruned) :
      Answers s g .new { s' with ledger := s'.ledger.markNew g.state g.snapshot }

end Session

namespace Classifier

variable {s s' : Session} {g : Sighting} {c : Classifier} {cs : List Classifier}

theorem firstOf_cons (passed : c g s = .ok (none, s')) :
    firstOf (c :: cs) g s = firstOf cs g s' := by
  rw [firstOf, passed]
  rfl

theorem firstOf_cases {k : Option Classification} (ok : firstOf (c :: cs) g s = .ok (k, s')) :
    (∃ d, k = some d ∧ c g s = .ok (some d, s')) ∨
      ∃ s₁, c g s = .ok (none, s₁) ∧ firstOf cs g s₁ = .ok (k, s') := by
  obtain ⟨⟨d, s₁⟩, first, ok⟩ := Checked.bind_eq_ok.1 ok
  cases d with
  | none => exact .inr ⟨s₁, first, ok⟩
  | some d =>
    cases ok
    exact .inl ⟨d, rfl, first⟩

theorem firstOf_append (passed : firstOf cs g s = .ok (none, s')) (cs' : List Classifier) :
    firstOf (cs ++ cs') g s = firstOf cs' g s' := by
  induction cs generalizing s with
  | nil =>
    cases passed
    rfl
  | cons c cs ih =>
    obtain ⟨d, ⟨⟩, -⟩ | ⟨s₁, first, passed⟩ := firstOf_cases passed
    exact (firstOf_cons first).trans (ih passed)

theorem homeScreen_eq_ok {k : Option Classification} (ok : homeScreen g s = .ok (k, s')) :
    s' = s ∧ ∃ st, s.model.graph.states.get? g.state = some st ∧
      k = if st.isHome then some .homeScreen else none := by
  obtain ⟨st, hst, done⟩ := Arena.get_bind_eq_ok.1 ok
  cases done
  exact ⟨rfl, st, hst, rfl⟩

theorem knownNew_eq_ok {k : Option Classification} (ok : knownNew g s = .ok (k, s')) :
    (g.state ∉ s.ledger.newStates ∧ k = none ∧ s' = s) ∨
      (g.state ∈ s.ledger.newStates ∧ k = some .knownNew ∧
        s' = { s with ledger := s.ledger.markNewSnapshot g.snapshot }) := by
  unfold knownNew at ok
  split at ok
  · next known =>
    cases ok
    exact .inr ⟨known, rfl, rfl⟩
  · next unknown =>
    cases ok
    exact .inl ⟨unknown, rfl, rfl⟩

theorem cached_eq_ok {k : Option Classification} (ok : cached g s = .ok (k, s')) :
    s' = s ∧ ((k = none ∧ ∀ b ∈ s.ledger.basesOf g.snapshot,
        s.ledger.isRecognised g.state b = false) ∨
      ∃ b ∈ s.ledger.basesOf g.snapshot, s.ledger.isRecognised g.state b = true ∧
        k = some (.cached b)) := by
  cases ok
  refine ⟨rfl, ?_⟩
  cases found : (s.ledger.basesOf g.snapshot).find? (s.ledger.isRecognised g.state) with
  | none => exact .inl ⟨rfl, by simpa using List.find?_eq_none.1 found⟩
  | some b => exact .inr ⟨b, List.mem_of_find?_eq_some found, List.find?_some found, rfl⟩

theorem observedBase_eq_ok {k : Option Classification} (ok : observedBase g s = .ok (k, s')) :
    ∃ st, s.model.graph.states.get? g.state = some st ∧
      ((st.version = .running ∧ k = none ∧ s' = s) ∨
        (st.version = .base ∧ k = some .observedBase ∧
          s' = { s with ledger := s.ledger.markObservedBase g.state })) := by
  obtain ⟨st, hst, ok⟩ := Arena.get_bind_eq_ok.1 ok
  refine ⟨st, hst, ?_⟩
  cases version : st.version with
  | base =>
    rw [if_pos version] at ok
    cases ok
    exact .inr ⟨rfl, rfl, rfl⟩
  | running =>
    rw [if_neg (by rw [version]; decide)] at ok
    cases ok
    exact .inl ⟨rfl, rfl, rfl⟩

end Classifier

namespace Session

variable {s s' s'' : Session} {g : Sighting}

theorem firstEquivalent_cases {strict : Bool} {bases : List StateId}
    {found : Option (StateId × Rule)}
    (ok : s.firstEquivalent strict g bases = .ok (found, s')) :
    (found = none ∧ s.Compared s') ∨
      ∃ b r x mid, found = some (b, r) ∧ search strict g bases s = .ok (some (b, r, x), mid) ∧
        mid.register g.state b g.snapshot x = .ok s' := by
  obtain ⟨⟨k, mid⟩, searched, ok⟩ := Checked.bind_eq_ok.1 ok
  cases k with
  | none =>
    cases ok
    exact .inl ⟨rfl, search_none searched⟩
  | some k =>
    obtain ⟨b, r, x⟩ := k
    obtain ⟨s₁, registered, done⟩ := Checked.bind_eq_ok.1 ok
    cases done
    exact .inr ⟨b, r, x, mid, rfl, searched, registered⟩

theorem Passed.refl (g : Sighting) (s : Session) : Passed g s s := ⟨.refl s, .inl rfl⟩

theorem Passed.compared (h : s.Compared s') : Passed g s s' := ⟨⟨rfl, h.2⟩, .inl h.1⟩

theorem Compared.passed (h : s.Compared s') (h' : Passed g s' s'') : Passed g s s'' := by
  refine ⟨⟨rfl, (h.trans h'.1).2⟩, ?_⟩
  rw [← h.1]
  exact h'.2

theorem Passed.then (h : Passed g s s') (h' : s'.Compared s'') : Passed g s s'' := by
  refine ⟨h.1.trans ⟨rfl, h'.2⟩, ?_⟩
  rw [h'.1]
  exact h.2

theorem Passed.aside (h : Passed g s s') : s.model.Aside s'.model := h.1.aside.model

theorem Passed.account (h : Passed g s s') : s'.ledger.account = s.ledger.account := by
  rcases h.2 with same | same
  · rw [same]
  · rw [same]
    rfl

theorem Answers.registers {c : Classification} (answers : s.Answers g c s') :
    ((∃ r, s'.model = { s.model with catalog := { s.model.catalog with replacements := r } }) ∧
        s'.ledger.account = s.ledger.account ∧ ∀ b r, c ≠ .equivalent b r) ∨
      ∃ b r x mid after, c = .equivalent b r ∧ s.Finds g b r x mid ∧
        mid.register g.state b g.snapshot x = .ok after ∧ s'.model = after.model ∧
        s'.ledger.account = after.ledger.account := by
  cases answers with
  | homeScreen => exact .inl ⟨⟨_, rfl⟩, rfl, nofun⟩
  | knownNew => exact .inl ⟨⟨_, rfl⟩, rfl, nofun⟩
  | cached => exact .inl ⟨⟨_, rfl⟩, rfl, nofun⟩
  | observedBase => exact .inl ⟨⟨_, rfl⟩, rfl, nofun⟩
  | equivalent _ found registered => exact .inr ⟨_, _, _, _, _, rfl, found, registered, rfl, rfl⟩
  | reproduces _ found registered => exact .inr ⟨_, _, _, _, _, rfl, found, registered, rfl, rfl⟩
  | new _ passed =>
    have account := passed.account
    exact .inl ⟨passed.1.2, account, nofun⟩

end Session

namespace Classifier

open Session

variable {s s' : Session} {g : Sighting} {k : Option Classification}

theorem initialState_cases (ok : initialState g s = .ok (k, s')) :
    (k = none ∧ s.Compared s') ∨
      ∃ a b r x mid, k = some (.equivalent b r) ∧ s.model.actions.action g.action = .ok a ∧
        a.isLaunchOrReset = true ∧
        search false g (initialBases s.model) s = .ok (some (b, r, x), mid) ∧
        mid.register g.state b g.snapshot x = .ok s' := by
  obtain ⟨a, ha, ok⟩ := Checked.bind_eq_ok.1 ok
  split at ok
  · cases ok
    exact .inl ⟨rfl, .refl _⟩
  next restarts =>
  obtain ⟨⟨found, s₁⟩, first, done⟩ := Checked.bind_eq_ok.1 ok
  cases done
  rcases firstEquivalent_cases first with
    ⟨rfl, compared⟩ | ⟨b, r, x, mid, rfl, searched, registered⟩
  · exact .inl ⟨rfl, compared⟩
  · exact .inr ⟨a, b, r, x, mid, rfl, ha, by simpa using restarts, searched, registered⟩

theorem mem_obsoleteBases {m : Model} {pruned : List EdgeKey} {bases : List StateId}
    (ok : obsoleteBases m pruned = .ok bases) {b : StateId} (mem : b ∈ bases) :
    (∃ k ∈ pruned, k.dest = b) ∧ ∃ st, m.graph.states.get? b = some st ∧ st.version = .base ∧
      st.isVirtual = false := by
  obtain ⟨dests, passed, done⟩ := Checked.bind_eq_ok.1 ok
  cases done
  obtain ⟨mem, test⟩ := (mem_filterChecked passed).1 (OrderedSet.mem_ofList.1 mem)
  obtain ⟨st, hst, test⟩ := Arena.get_bind_eq_ok.1 test
  refine ⟨List.mem_map.1 mem, st, hst, ?_⟩
  simpa using pure_eq_ok.1 test

theorem obsoleteDestination_cases (ok : obsoleteDestination g s = .ok (k, s')) :
    (k = none ∧ Passed g s s' ∧ s'.ledger = s.ledger.markIncorrect g.pruned) ∨
      ∃ bases b r x mid s₁ keys, k = some (.equivalent b r) ∧
        obsoleteBases s.model g.pruned = .ok bases ∧
        search false g bases s = .ok (some (b, r, x), mid) ∧
        mid.register g.state b g.snapshot x = .ok s₁ ∧ keys ≠ [] ∧ (∀ k ∈ keys, k ∈ g.pruned) ∧
        keys = (g.pruned.filter fun k => k.dest = b) ∧
        s' = { s₁ with ledger := s₁.ledger.reproduce g.transition keys } := by
  unfold obsoleteDestination at ok
  split at ok
  · next none =>
    cases ok
    refine .inl ⟨rfl, .refl g _, ?_⟩
    rw [List.isEmpty_iff.1 none]
    rfl
  obtain ⟨bases, hbases, ok⟩ := Checked.bind_eq_ok.1 ok
  obtain ⟨⟨found, s₁⟩, first, ok⟩ := Checked.bind_eq_ok.1 ok
  rcases firstEquivalent_cases first with
    ⟨rfl, compared⟩ | ⟨b, r, x, mid, rfl, searched, registered⟩
  · cases ok
    have refuted : s₁.ledger.markIncorrect g.pruned = s.ledger.markIncorrect g.pruned := by
      rw [compared.1]
    exact .inl ⟨rfl, ⟨⟨rfl, compared.2⟩, .inr refuted⟩, refuted⟩
  · cases ok
    refine .inr ⟨bases, b, r, x, mid, s₁, _, rfl, hbases, searched, registered, ?_, ?_, rfl, rfl⟩
    · obtain ⟨⟨key, mem, dest⟩, -⟩ := mem_obsoleteBases hbases (search_some searched).1
      exact List.ne_nil_of_mem (List.mem_filter.2 ⟨mem, decide_eq_true dest⟩)
    · exact fun key mem => List.mem_of_mem_filter mem

theorem windowScan_cases (ok : windowScan g s = .ok (k, s')) :
    (k = none ∧ s.Compared s') ∨
      ∃ bases b r x mid, k = some (.equivalent b r) ∧ windowBases s g = .ok bases ∧
        search s.model.policy.strictScan g bases s = .ok (some (b, r, x), mid) ∧
        mid.register g.state b g.snapshot x = .ok s' := by
  obtain ⟨bases, hbases, ok⟩ := Checked.bind_eq_ok.1 ok
  obtain ⟨⟨found, s₁⟩, first, done⟩ := Checked.bind_eq_ok.1 ok
  cases done
  rcases firstEquivalent_cases first with
    ⟨rfl, compared⟩ | ⟨b, r, x, mid, rfl, searched, registered⟩
  · exact .inl ⟨rfl, compared⟩
  · exact .inr ⟨bases, b, r, x, mid, rfl, hbases, searched, registered⟩

end Classifier

namespace Session

open Classifier

variable {s s' : Session} {g : Sighting}

theorem readers_cases {cs : List Classifier} {k : Option Classification}
    (ok : firstOf (homeScreen :: knownNew :: Classifier.cached :: observedBase :: cs) g s =
      .ok (k, s')) :
    (∃ d, k = some d ∧ s.Answers g d s') ∨ (s.Undecided g ∧ firstOf cs g s = .ok (k, s') ∧
      ∀ cs', firstOf (homeScreen :: knownNew :: Classifier.cached :: observedBase :: cs') g s =
        firstOf cs' g s) := by
  rcases firstOf_cases ok with ⟨d, rfl, home⟩ | ⟨s₁, home, ok₁⟩
  · obtain ⟨rfl, st, hst, found⟩ := homeScreen_eq_ok home
    split at found
    · next isHome =>
      cases found
      exact .inl ⟨_, rfl, .homeScreen hst isHome⟩
    · cases found
  obtain ⟨rfl, st, hst, found⟩ := homeScreen_eq_ok home
  split at found
  · cases found
  next foreign =>
  rcases firstOf_cases ok₁ with ⟨d, rfl, known⟩ | ⟨s₂, known, ok₂⟩
  · rcases knownNew_eq_ok known with ⟨-, ⟨⟩, -⟩ | ⟨isKnown, found, rfl⟩
    cases found
    exact .inl ⟨_, rfl, .knownNew isKnown⟩
  obtain ⟨unknown, -, rfl⟩ | ⟨-, ⟨⟩, -⟩ := knownNew_eq_ok known
  rcases firstOf_cases ok₂ with ⟨d, rfl, seen⟩ | ⟨s₃, seen, ok₃⟩
  · obtain ⟨rfl, ⟨⟨⟩, -⟩ | ⟨b, mem, entered, found⟩⟩ := cached_eq_ok seen
    cases found
    exact .inl ⟨_, rfl, .cached mem entered⟩
  obtain ⟨rfl, ⟨-, uncached⟩ | ⟨b, -, -, ⟨⟩⟩⟩ := cached_eq_ok seen
  rcases firstOf_cases ok₃ with ⟨d, rfl, old⟩ | ⟨s₄, old, ok₄⟩
  · obtain ⟨st', hst', ⟨-, ⟨⟩, -⟩ | ⟨version, found, rfl⟩⟩ := observedBase_eq_ok old
    cases found
    exact .inl ⟨_, rfl, .observedBase hst' version⟩
  obtain ⟨st', hst', ⟨version, -, rfl⟩ | ⟨-, ⟨⟩, -⟩⟩ := observedBase_eq_ok old
  cases hst.symm.trans hst'
  refine .inr ⟨⟨⟨st, hst, by simpa using foreign, version⟩, unknown, uncached⟩, ok₄, ?_⟩
  intro cs'
  rw [firstOf_cons home, firstOf_cons known, firstOf_cons seen, firstOf_cons old]

theorem classify_cases {c : Classification} (ok : s.classify g = .ok (c, s')) :
    s.Answers g c s' := by
  obtain ⟨⟨k, s₀⟩, decided, ok⟩ := Checked.bind_eq_ok.1 ok
  have ends : ∀ {d}, k = some d → c = d ∧ s' = s₀ := by
    rintro d rfl
    cases ok
    exact ⟨rfl, rfl⟩
  rcases readers_cases decided with ⟨d, rfl, answers⟩ | ⟨undecided, decided, passed⟩
  · obtain ⟨rfl, rfl⟩ := ends rfl
    exact answers
  rcases firstOf_cases decided with ⟨d, rfl, initial⟩ | ⟨s₁, initial, decided⟩
  · obtain ⟨rfl, rfl⟩ := ends rfl
    obtain ⟨⟨⟩, -⟩ | ⟨a, b, r, x, mid, found, action, restarts, searched, registered⟩ :=
      initialState_cases initial
    cases found
    exact .equivalent undecided (.intro (passed []) (.initial action restarts) searched) registered
      (.inl ⟨initial, (search_some searched).2.1.1⟩)
  obtain ⟨-, compared₁⟩ | ⟨-, -, -, -, -, ⟨⟩, -⟩ := initialState_cases initial
  rcases firstOf_cases decided with ⟨d, rfl, obsolete⟩ | ⟨s₂, obsolete, decided⟩
  · obtain ⟨rfl, rfl⟩ := ends rfl
    obtain ⟨⟨⟩, -⟩ |
        ⟨bases, b, r, x, mid, s₂, keys, found, dests, searched, registered, some, within, leads,
          rfl⟩ := obsoleteDestination_cases obsolete
    cases found
    have passed := (passed [initialState]).trans (firstOf_cons initial)
    have before := (search_some searched).2.1.1.trans compared₁.1
    exact .reproduces undecided (.intro passed (.obsolete dests) searched) registered some within
      before leads
  obtain ⟨-, passed₂, refuted⟩ | ⟨-, -, -, -, -, -, -, ⟨⟩, -⟩ := obsoleteDestination_cases obsolete
  rw [compared₁.1] at refuted
  rcases firstOf_cases decided with ⟨d, rfl, scan⟩ | ⟨s₃, scan, decided⟩
  · obtain ⟨rfl, rfl⟩ := ends rfl
    obtain ⟨⟨⟩, -⟩ | ⟨bases, b, r, x, mid, found, scanned, searched, registered⟩ :=
      windowScan_cases scan
    cases found
    have passed := ((passed [initialState, obsoleteDestination]).trans (firstOf_cons initial)).trans
      (firstOf_cons obsolete)
    exact .equivalent undecided (.intro passed (.scan scanned) searched) registered
      (.inr ((search_some searched).2.1.1.trans refuted))
  obtain ⟨-, compared₃⟩ | ⟨-, -, -, -, -, ⟨⟩, -⟩ := windowScan_cases scan
  cases decided
  cases ok
  exact .new undecided ((compared₁.passed passed₂).then compared₃) (compared₃.1.trans refuted)

theorem passed_to_scan
    (ok : firstOf [homeScreen, knownNew, Classifier.cached, observedBase, initialState,
      obsoleteDestination] g s = .ok (none, s')) : s.Undecided g ∧ Passed g s s' := by
  obtain ⟨d, ⟨⟩, -⟩ | ⟨undecided, ok, -⟩ := readers_cases ok
  obtain ⟨d, ⟨⟩, -⟩ | ⟨s₁, initial, ok⟩ := firstOf_cases ok
  obtain ⟨d, ⟨⟩, -⟩ | ⟨s₂, obsolete, done⟩ := firstOf_cases ok
  cases done
  obtain ⟨-, compared⟩ | ⟨-, -, -, -, -, ⟨⟩, -⟩ := initialState_cases initial
  obtain ⟨-, passed, -⟩ | ⟨-, -, -, -, -, -, -, ⟨⟩, -⟩ := obsoleteDestination_cases obsolete
  exact ⟨undecided, compared.passed passed⟩

theorem Seeks.passed {before : List Classifier} {strict : Bool} {bases : List StateId}
    (seeks : Seeks g s' before strict bases) (ok : firstOf before g s = .ok (none, s')) :
    Passed g s s' := by
  cases seeks with
  | initial =>
    obtain ⟨d, ⟨⟩, -⟩ | ⟨-, done, -⟩ := readers_cases ok
    cases done
    exact .refl g _
  | obsolete =>
    obtain ⟨d, ⟨⟩, -⟩ | ⟨-, ok, -⟩ := readers_cases ok
    obtain ⟨d, ⟨⟩, -⟩ | ⟨s₁, initial, done⟩ := firstOf_cases ok
    cases done
    obtain ⟨-, compared⟩ | ⟨-, -, -, -, -, ⟨⟩, -⟩ := initialState_cases initial
    exact .compared compared
  | scan => exact (passed_to_scan ok).2

theorem Finds.passed {b : StateId} {r : Rule} {x : Matching} {mid : Session}
    (found : s.Finds g b r x mid) : Passed g s mid := by
  obtain ⟨passed, seeks, searched⟩ := found
  exact (seeks.passed passed).then (search_some searched).2.1

theorem firstEquivalent_none {strict : Bool} {bases : List StateId}
    (ok : s.firstEquivalent strict g bases = .ok (none, s')) :
    search strict g bases s = .ok (none, s') := by
  obtain ⟨⟨k, mid⟩, searched, ok⟩ := Checked.bind_eq_ok.1 ok
  cases k with
  | none =>
    cases ok
    exact searched
  | some k =>
    obtain ⟨s₁, -, done⟩ := Checked.bind_eq_ok.1 ok
    cases done

theorem Seeks.decides {before : List Classifier} {strict : Bool} {bases : List StateId}
    (seeks : Seeks g s before strict bases) {k : StateId × Rule × Matching} {mid : Session}
    (found : search strict g bases s = .ok (some k, mid)) :
    ∃ c, before ++ [c] <+: Classifier.all ∧ ∀ s', c g s ≠ .ok (none, s') := by
  cases seeks with
  | initial action restarts =>
    refine ⟨initialState, ⟨_, rfl⟩, fun s' passed => ?_⟩
    obtain ⟨a, action', passed⟩ := Checked.bind_eq_ok.1 passed
    cases action.symm.trans action'
    rw [restarts] at passed
    obtain ⟨⟨_ | _, s₁⟩, first, done⟩ := Checked.bind_eq_ok.1 passed <;> cases done
    cases found.symm.trans (firstEquivalent_none first)
  | obsolete dests =>
    refine ⟨obsoleteDestination, ⟨_, rfl⟩, fun s' passed => ?_⟩
    unfold obsoleteDestination at passed
    split at passed
    · next none =>
      -- where nothing was pruned there is nothing to search
      rw [List.isEmpty_iff.1 none] at dests
      cases dests
      cases found
    obtain ⟨bases', dests', passed⟩ := Checked.bind_eq_ok.1 passed
    cases dests.symm.trans dests'
    obtain ⟨⟨_ | _, s₁⟩, first, done⟩ := Checked.bind_eq_ok.1 passed <;> cases done
    cases found.symm.trans (firstEquivalent_none first)
  | scan scanned =>
    refine ⟨windowScan, ⟨_, rfl⟩, fun s' passed => ?_⟩
    obtain ⟨bases', scanned', passed⟩ := Checked.bind_eq_ok.1 passed
    cases scanned.symm.trans scanned'
    obtain ⟨⟨_ | _, s₁⟩, first, done⟩ := Checked.bind_eq_ok.1 passed <;> cases done
    cases found.symm.trans (firstEquivalent_none first)

theorem Seeks.length_le {before before' : List Classifier} {strict strict' : Bool}
    {bases bases' : List StateId} {s₀ s₁ mid mid' : Session} {k k' : StateId × Rule × Matching}
    (passed : firstOf before g s = .ok (none, s₀)) (seeks : Seeks g s₀ before strict bases)
    (found : search strict g bases s₀ = .ok (some k, mid))
    (passed' : firstOf before' g s = .ok (none, s₁)) (seeks' : Seeks g s₁ before' strict' bases')
    (found' : search strict' g bases' s₁ = .ok (some k', mid')) :
    before'.length ≤ before.length := by
  obtain ⟨c, early, decides⟩ := seeks.decides found
  obtain ⟨c', late, -⟩ := seeks'.decides found'
  by_contra longer
  obtain ⟨cs, rfl⟩ : before ++ [c] <+: before' := by
    refine List.prefix_of_prefix_length_le early ((List.prefix_append ..).trans late) ?_
    simpa [Nat.succ_le_iff] using longer
  rw [List.append_assoc, firstOf_append passed] at passed'
  obtain ⟨d, ⟨⟩, -⟩ | ⟨s', first, -⟩ := firstOf_cases passed'
  exact decides s' first

theorem Finds.unique {b b' : StateId} {r r' : Rule} {x x' : Matching} {mid mid' : Session}
    (found : s.Finds g b r x mid) (found' : s.Finds g b' r' x' mid') :
    b' = b ∧ r' = r ∧ x' = x ∧ mid' = mid := by
  obtain @⟨before, _, _, _, passed, seeks, found⟩ := found
  obtain @⟨before', _, _, _, passed', seeks', found'⟩ := found'
  have same : before = before' := by
    obtain ⟨_, early, -⟩ := seeks.decides found
    obtain ⟨_, late, -⟩ := seeks'.decides found'
    have le := Seeks.length_le passed' seeks' found' passed seeks found
    have ge := Seeks.length_le passed seeks found passed' seeks' found'
    exact (List.prefix_of_prefix_length_le ((List.prefix_append ..).trans early)
      ((List.prefix_append ..).trans late) le).eq_of_length (Nat.le_antisymm le ge)
  subst same
  cases passed.symm.trans passed'
  cases seeks with
  | initial =>
    cases seeks'
    cases found.symm.trans found'
    exact ⟨rfl, rfl, rfl, rfl⟩
  | obsolete dests =>
    obtain _ | dests' | _ := seeks'
    cases dests.symm.trans dests'
    cases found.symm.trans found'
    exact ⟨rfl, rfl, rfl, rfl⟩
  | scan scanned =>
    obtain _ | _ | scanned' := seeks'
    cases scanned.symm.trans scanned'
    cases found.symm.trans found'
    exact ⟨rfl, rfl, rfl, rfl⟩

theorem Seeks.base {before : List Classifier} {strict : Bool} {bases : List StateId}
    (seeks : Seeks g s before strict bases) {b : StateId} (mem : b ∈ bases) :
    (∃ st, s.model.graph.states.get? b = some st ∧ st.version = .base ∧ st.isVirtual = false) ∨
      b ∈ s.ledger.basesOf g.snapshot := by
  cases seeks with
  | initial =>
    left
    obtain ⟨⟨b, st⟩, entry, rfl⟩ := List.mem_map.1 mem
    obtain ⟨live, initial⟩ := List.mem_filter.1 entry
    refine ⟨st, Arena.mem_entries.1 live, ?_⟩
    simp only [isInitialBase, Bool.and_eq_true, decide_eq_true_eq, Bool.not_eq_true'] at initial
    exact ⟨initial.1.2, initial.2⟩
  | obsolete dests => exact .inl (mem_obsoleteBases dests mem).2
  | scan found =>
    unfold windowBases at found
    split at found
    · left
      obtain ⟨so, -, found⟩ := Checked.bind_eq_ok.1 found
      obtain ⟨entries, passed, done⟩ := Checked.bind_eq_ok.1 found
      cases done
      obtain ⟨⟨b, st⟩, entry, rfl⟩ := List.mem_map.1 mem
      obtain ⟨live, test⟩ := (mem_filterChecked passed).1 entry
      refine ⟨st, Arena.mem_entries.1 live, ?_⟩
      dsimp only at test
      split at test
      · cases test
      unfold isScanned at test
      split at test
      · next shape =>
        simp only [Bool.and_eq_true, decide_eq_true_eq, Bool.not_eq_true'] at shape
        exact ⟨shape.1.1.1, shape.1.1.2⟩
      · cases test
    · cases found
      exact .inr mem

structure Sees (s : Session) (g : Sighting) : Prop where
  state : s.model.graph.states.contains g.state = true
  action : s.model.actions.entries.contains g.action = true
  dest : ∀ k ∈ g.pruned, s.model.graph.states.contains k.dest = true

theorem Sees.keeps (h : s.Sees g) (k : s.model.Keeps s'.model) : s'.Sees g where
  state := (k.contains_state _).trans h.state
  action := k.contains_action h.action
  dest key mem := (k.contains_state _).trans (h.dest key mem)

theorem Sound.passed (h : s.Sound) (passed : Passed g s s') : s'.Sound := by
  have sound := h.compared passed.1
  refine ⟨sound.model, ?_⟩
  rcases passed.2 with same | same
  · rw [same]
    exact sound.ledger
  · rw [same]
    exact ⟨sound.ledger.image, sound.ledger.base, sound.ledger.input⟩

theorem Seeks.contains (h : s.Sound) {before : List Classifier} {strict : Bool}
    {bases : List StateId} (seeks : Seeks g s before strict bases) :
    ∀ b ∈ bases, s.model.graph.states.contains b = true := by
  intro b mem
  rcases seeks.base mem with ⟨st, hst, -⟩ | cached
  · exact Arena.contains_of_get? hst
  · exact h.ledger.base cached

theorem firstEquivalent_succeeds (h : s.Sound)
    (state : s.model.graph.states.contains g.state = true) {before : List Classifier}
    {strict : Bool} {bases : List StateId} (seeks : Seeks g s before strict bases) :
    Succeeds (s.firstEquivalent strict g bases) := by
  have contains := seeks.contains h
  refine (search_succeeds h state contains).bind fun ⟨k, mid⟩ searched => ?_
  cases k with
  | none => exact succeeds_pure _
  | some k =>
    obtain ⟨b, r, x⟩ := k
    obtain ⟨mem, compared, -⟩ := search_some searched
    have keeps := compared.aside.keeps.model
    refine Succeeds.bind ?_ fun _ _ => succeeds_pure _
    refine (h.compared compared).register_succeeds ((keeps.contains_state _).trans state) ?_
      (search_places h searched) g.snapshot
    exact (keeps.contains_state _).trans (contains b mem)

end Session

namespace Classifier

open Session

variable {s s' : Session} {g : Sighting}

theorem initialState_succeeds (h : s.Sound) (sees : s.Sees g) : Succeeds (initialState g s) := by
  obtain ⟨e, he⟩ := Arena.contains_iff.1 sees.action
  have action := ActionTable.action_eq_ok.2 ⟨e, he, rfl⟩
  refine .after action ?_
  split
  · exact succeeds_pure _
  · next restarts =>
    refine Succeeds.bind ?_ fun _ _ => succeeds_pure _
    exact firstEquivalent_succeeds h sees.state (.initial action (by simpa using restarts))

theorem obsoleteBases_succeeds (sees : s.Sees g) :
    Succeeds (obsoleteBases s.model g.pruned) := by
  refine Succeeds.bind ?_ fun _ _ => succeeds_pure _
  refine filterChecked_succeeds fun d mem => ?_
  obtain ⟨k, pruned, rfl⟩ := List.mem_map.1 mem
  exact (Arena.get_succeeds (sees.dest k pruned)).bind fun _ _ => succeeds_pure _

theorem obsoleteDestination_succeeds (h : s.Sound) (sees : s.Sees g) :
    Succeeds (obsoleteDestination g s) := by
  unfold obsoleteDestination
  split
  · exact succeeds_pure _
  refine (obsoleteBases_succeeds sees).bind fun bases dests => ?_
  refine (firstEquivalent_succeeds h sees.state (.obsolete dests)).bind fun ⟨found, s₁⟩ _ => ?_
  cases found <;> exact succeeds_pure _

theorem windowBases_succeeds (h : s.Sound)
    (state : s.model.graph.states.contains g.state = true) : Succeeds (windowBases s g) := by
  unfold windowBases
  split
  · obtain ⟨so, hso⟩ := Arena.contains_iff.1 state
    refine .get hso ?_
    refine Succeeds.bind ?_ fun _ _ => succeeds_pure _
    refine filterChecked_succeeds fun ⟨b, st⟩ mem => ?_
    dsimp only
    split
    · exact succeeds_pure _
    unfold isScanned
    split
    · exact h.model.states.comparable.compatible_succeeds (Arena.mem_entries.1 mem) hso
    · exact succeeds_pure _
  · exact succeeds_ok _

theorem windowScan_succeeds (h : s.Sound)
    (state : s.model.graph.states.contains g.state = true) : Succeeds (windowScan g s) := by
  refine (windowBases_succeeds h state).bind fun bases scanned => ?_
  refine (firstEquivalent_succeeds h state (.scan scanned)).bind ?_
  exact fun _ _ => succeeds_pure _

theorem firstOf_succeeds {c : Classifier} {cs : List Classifier} (first : Succeeds (c g s))
    (others : ∀ s', c g s = .ok (none, s') → Succeeds (firstOf cs g s')) :
    Succeeds (firstOf (c :: cs) g s) := by
  refine first.bind fun ⟨k, s'⟩ decided => ?_
  cases k with
  | none => exact others s' decided
  | some k => exact succeeds_pure _

end Classifier

namespace Session

open Classifier

variable {s s' : Session} {g : Sighting}

theorem Sound.classify_succeeds (h : s.Sound) (sees : s.Sees g) : Succeeds (s.classify g) := by
  refine Succeeds.bind ?_ fun ⟨k, s'⟩ _ => ?_
  · refine firstOf_succeeds ((Arena.get_succeeds sees.state).bind fun _ _ => succeeds_pure _) ?_
    intro s₁ home
    obtain ⟨rfl, -⟩ := homeScreen_eq_ok home
    refine firstOf_succeeds ?_ ?_
    · unfold knownNew
      split <;> exact succeeds_pure _
    intro s₂ known
    obtain ⟨-, -, rfl⟩ | ⟨-, ⟨⟩, -⟩ := knownNew_eq_ok known
    refine firstOf_succeeds (succeeds_ok _) ?_
    intro s₃ seen
    obtain ⟨rfl, -⟩ := cached_eq_ok seen
    refine firstOf_succeeds ?_ ?_
    · refine (Arena.get_succeeds sees.state).bind fun _ _ => ?_
      split <;> exact succeeds_pure _
    intro s₄ old
    obtain ⟨st, -, ⟨-, -, rfl⟩ | ⟨-, ⟨⟩, -⟩⟩ := observedBase_eq_ok old
    refine firstOf_succeeds (initialState_succeeds h sees) ?_
    intro s₅ initial
    obtain ⟨-, compared⟩ | ⟨-, -, -, -, -, ⟨⟩, -⟩ := initialState_cases initial
    have h := h.compared compared
    have sees := sees.keeps compared.aside.keeps.model
    refine firstOf_succeeds (obsoleteDestination_succeeds h sees) ?_
    intro s₆ obsolete
    obtain ⟨-, passed, -⟩ | ⟨-, -, -, -, -, -, -, ⟨⟩, -⟩ := obsoleteDestination_cases obsolete
    have sees := sees.keeps passed.aside.toKeeps
    exact firstOf_succeeds (windowScan_succeeds (h.passed passed) sees.state) fun _ _ =>
      succeeds_ok _
  · cases k <;> exact succeeds_pure _

theorem Finds.contains (h : s.Sound) {b : StateId} {r : Rule} {x : Matching} {mid : Session}
    (found : s.Finds g b r x mid) : mid.model.graph.states.contains b = true := by
  obtain ⟨passed, seeks, searched⟩ := found
  have sound := h.passed (seeks.passed passed)
  obtain ⟨mem, compared, -⟩ := search_some searched
  exact (compared.aside.model.contains_state b).trans (seeks.contains sound b mem)

theorem Finds.places (h : s.Sound) {b : StateId} {r : Rule} {x : Matching} {mid : Session}
    (found : s.Finds g b r x mid) : mid.Places g.state x := by
  obtain ⟨passed, seeks, searched⟩ := found
  exact search_places (h.passed (seeks.passed passed)) searched

theorem Sound.registers (h : s.Sound) (sees : s.Sees g) {b : StateId} {r : Rule} {x : Matching}
    {mid : Session} (found : s.Finds g b r x mid)
    (registered : mid.register g.state b g.snapshot x = .ok s') : s'.Sound := by
  have state := (found.passed.aside.contains_state g.state).trans sees.state
  exact (h.passed found.passed).register state (found.contains h) (found.places h) registered

theorem Sound.answers (h : s.Sound) (sees : s.Sees g) {c : Classification}
    (answers : s.Answers g c s') : s'.Sound := by
  cases answers with
  | homeScreen => exact h
  | knownNew => exact ⟨h.model, h.ledger.image, h.ledger.base, h.ledger.input⟩
  | cached => exact h
  | observedBase => exact ⟨h.model, h.ledger.image, h.ledger.base, h.ledger.input⟩
  | equivalent undecided found registered => exact h.registers sees found registered
  | reproduces undecided found registered =>
    have sound := h.registers sees found registered
    exact ⟨sound.model, sound.ledger.image, sound.ledger.base, sound.ledger.input⟩
  | new undecided passed =>
    have sound := h.passed passed
    exact ⟨sound.model, sound.ledger.image, sound.ledger.base, sound.ledger.input⟩

end Session

end ScreenGraph
