import ScreenGraph.Proofs.Matching
import ScreenGraph.Proofs.Tallying

/-!
A ledger read as the entries that it holds. A check leaves every entry standing and adds those that
its answer says. The keys of the edges that it pruned become incorrect, or those that lead to the
accepted base state are reproduced, unless a rule that does not look at them gave the answer.
-/

namespace ScreenGraph

theorem OrderedMap.relates_insertMany {κ α : Type} [DecidableEq κ] [DecidableEq α]
    {m : OrderedMap κ (OrderedSet α)} {k k₂ : κ} {xs : List α} {a : α} :
    (m.update k fun old => (old.getD ∅).insertMany xs).Relates k₂ a ↔
      m.Relates k₂ a ∨ k = k₂ ∧ a ∈ xs := by
  rw [relates_iff, relates_iff, get?_update]
  by_cases same : k = k₂
  · subst same
    cases m.get? k <;> simp [← OrderedSet.mem_def]
  · simp [same]

inductive Entry
  | equivalent (observed base : StateId)
  | image (base observed : StateId)
  | snapshotBase (snapshot : SnapshotId) (base : StateId)
  | observedBase (state : StateId)
  | newState (state : StateId)
  | newSnapshot (snapshot : SnapshotId)
  | reproduced (edge : TransitionId) (key : EdgeKey)
  | incorrect (key : EdgeKey)
  | inputImage (merged : InputId × InputId)

namespace Ledger

variable {l l' l'' : Ledger} {es es' : List Entry} {images images' : List (InputId × InputId)}

def Holds (l : Ledger) : Entry → Prop
  | .equivalent o b => l.equivalents.Relates o b
  | .image b o => l.images.Relates b o
  | .snapshotBase n b => l.snapshotBases.Relates n b
  | .observedBase b => b ∈ l.observedBase
  | .newState o => o ∈ l.newStates
  | .newSnapshot n => n ∈ l.newSnapshots
  | .reproduced t k => l.reproduced.Relates t k
  | .incorrect k => k ∈ l.incorrect
  | .inputImage p => l.inputImages.get? p.1 = some p.2

def Gains (l : Ledger) (es : List Entry) (l' : Ledger) : Prop :=
  ∀ e, l'.Holds e ↔ l.Holds e ∨ e ∈ es

namespace Gains

theorem of_eq (book : l'.book = l.book) (images : l'.inputImages = l.inputImages) :
    l.Gains [] l' := by
  intro e
  have held (k : Ledger) : Holds { k.book with inputImages := k.inputImages } e ↔ k.Holds e := by
    cases e <;> rfl
  rw [← held l', book, images, held l]
  simp

theorem refl (l : Ledger) : l.Gains [] l := of_eq rfl rfl

theorem trans (h : l.Gains es l') (h' : l'.Gains es' l'') : l.Gains (es ++ es') l'' := by
  intro e
  rw [h' e, h e, List.mem_append, or_assoc]

theorem perm (h : l.Gains es l') (same : es.Perm es') : l.Gains es' l' := by
  intro e
  rw [h e, same.mem_iff]

theorem absorb (h : l.Gains es l') (held : ∀ e ∈ es', l'.Holds e) : l.Gains (es ++ es') l' := by
  intro e
  rw [List.mem_append, ← or_assoc, ← h e]
  exact ⟨.inl, fun either => either.elim id (held e)⟩

theorem markSnapshot (l : Ledger) (n : SnapshotId) (b : StateId) :
    l.Gains [.snapshotBase n b] (l.markSnapshot n b) := by
  intro e
  cases e <;> simp [Holds, Ledger.markSnapshot, OrderedMap.relates_addTo, eq_comm]

theorem recognise (l : Ledger) (o b : StateId) :
    l.Gains [.equivalent o b, .image b o] (l.recognise o b) := by
  intro e
  cases e <;> simp [Holds, Ledger.recognise, OrderedMap.relates_addTo, eq_comm]

theorem markNewSnapshot (l : Ledger) (n : SnapshotId) :
    l.Gains [.newSnapshot n] (l.markNewSnapshot n) := by
  intro e
  cases e <;> simp [Holds, Ledger.markNewSnapshot]

theorem markObservedBase (l : Ledger) (b : StateId) :
    l.Gains [.observedBase b] (l.markObservedBase b) := by
  intro e
  cases e <;> simp [Holds, Ledger.markObservedBase]

theorem markNew (l : Ledger) (o : StateId) (n : SnapshotId) :
    l.Gains [.newState o, .newSnapshot n] (l.markNew o n) := by
  intro e
  cases e <;> simp [Holds, Ledger.markNew]

theorem markIncorrect (l : Ledger) (keys : List EdgeKey) :
    l.Gains (keys.map .incorrect) (l.markIncorrect keys) := by
  intro e
  cases e <;> simp [Holds, Ledger.markIncorrect]

theorem reproduce (l : Ledger) (t : TransitionId) (keys : List EdgeKey) :
    l.Gains (keys.map (.reproduced t)) (l.reproduce t keys) := by
  intro e
  cases e <;> simp [Holds, Ledger.reproduce, OrderedMap.relates_insertMany, and_comm]

theorem insertImage {i : InputId} (fresh : l.inputImages.contains i = false) (j : InputId)
    (tally : Tally) :
    l.Gains [.inputImage (i, j)] { l with inputImages := l.inputImages.insert i j, tally } := by
  intro e
  cases e with
  | inputImage p =>
    obtain ⟨x, y⟩ := p
    simp only [Holds, OrderedMap.get?_insert, List.mem_singleton, Entry.inputImage.injEq,
      Prod.mk.injEq]
    by_cases same : i = x
    · subst same
      have absent : l.inputImages.get? i = none := by simpa [OrderedMap.contains] using fresh
      simp [absent, eq_comm]
    · simp [same, Ne.symm same]
  | _ => simp [Holds]

end Gains

def Merges (l l' : Ledger) (images : List (InputId × InputId)) : Prop :=
  l.Gains (images.map .inputImage) l' ∧ ∀ p ∈ images, l.inputImages.contains p.1 = false

namespace Merges

theorem of_eq (book : l'.book = l.book) (same : l'.inputImages = l.inputImages) :
    l.Merges l' [] :=
  ⟨.of_eq book same, nofun⟩

theorem trans (h : l.Merges l' images) (h' : l'.Merges l'' images') :
    l.Merges l'' (images ++ images') := by
  refine ⟨List.map_append ▸ h.1.trans h'.1, fun p mem => ?_⟩
  rcases List.mem_append.1 mem with early | late
  · exact h.2 p early
  · -- what has no image later had none before
    by_contra known
    obtain ⟨j, found⟩ := OrderedMap.contains_iff.1 (Bool.not_eq_false _ ▸ known)
    have held : l'.Holds (.inputImage (p.1, j)) := (h.1 _).2 (.inl found)
    exact Bool.false_ne_true ((h'.2 p late).symm.trans (OrderedMap.contains_of_get? held))

end Merges

def Mirrors (l : Ledger) : Prop := ∀ o b, l.Holds (.equivalent o b) ↔ l.Holds (.image b o)

theorem Mirrors.gains (h : l.Mirrors) (gains : l.Gains es l')
    (both : ∀ o b, .equivalent o b ∈ es ↔ .image b o ∈ es) : l'.Mirrors := by
  intro o b
  rw [gains, gains, h o b, both o b]

def Appends (l l' : Ledger) : Prop :=
  ∃ es, l.Gains es l' ∧ ∀ o b, .equivalent o b ∈ es ↔ .image b o ∈ es

theorem Appends.mirrors (h : l.Appends l') (mirrors : l.Mirrors) : l'.Mirrors := by
  obtain ⟨es, gains, both⟩ := h
  exact mirrors.gains gains both

theorem Appends.holds (h : l.Appends l') {e : Entry} (held : l.Holds e) : l'.Holds e := by
  obtain ⟨es, gains, -⟩ := h
  exact (gains e).2 (.inl held)

theorem isRecognised_iff {o b : StateId} :
    l.isRecognised o b = true ↔ l.Holds (.equivalent o b) := by
  rw [isRecognised, decide_eq_true_eq, Holds, OrderedMap.relates_iff]
  rfl

end Ledger

def Observation.entries (o : Observation) : Classification → List Entry
  | .knownNew => [.newSnapshot o.snapshot]
  | .observedBase => [.observedBase o.state]
  | .equivalent b _ => [.snapshotBase o.snapshot b, .equivalent o.state b, .image b o.state]
  | .new => [.newState o.state, .newSnapshot o.snapshot]
  | .ignored | .homeScreen | .cached _ => []

/-- A ledger records an answer with its entries, what becomes of pruned edges, and the images of the
inputs that are merged when a pair is recognised for the first time. A cached base state is on
record already. -/
structure Ledger.Records (l : Ledger) (o : Observation) (k : Classification) (fate : List Entry)
    (images : List (InputId × InputId)) (l' : Ledger) : Prop where
  gains : l.Gains (o.entries k ++ fate ++ images.map .inputImage) l'
  fresh : ∀ p ∈ images, l.inputImages.contains p.1 = false
  merged : images ≠ [] → ∃ b r, k = .equivalent b r ∧ ¬ l.Holds (.equivalent o.state b)
  cached : ∀ {b}, k = .cached b →
    l.Holds (.equivalent o.state b) ∧ l.Holds (.snapshotBase o.snapshot b)

theorem Ledger.Records.also {l l' l'' : Ledger} {o : Observation} {k : Classification}
    {fate es : List Entry} {images : List (InputId × InputId)} (h : l.Records o k fate images l')
    (more : l'.Gains es l'') : l.Records o k (fate ++ es) images l'' where
  gains := by
    refine (h.gains.trans more).perm ?_
    rw [List.append_assoc, ← List.append_assoc (o.entries k), List.append_assoc _ es]
    exact List.perm_append_comm.append_left _
  fresh := h.fresh
  merged := h.merged
  cached := h.cached

namespace Session

def Prunes (s : Session) (o : Observation) (keys : List EdgeKey) : Prop :=
  ∃ seen s₁, s.sight o = .ok (seen, s₁) ∧ keys = (seen.map Sighting.pruned).getD []

/-- What becomes of the keys of pruned edges. They are overlooked by the rules that read what is
known, and by the one that tries the initial states if it gives the answer. -/
inductive Disposes (s : Session) (o : Observation) (keys : List EdgeKey) (s' : Session) :
    Classification → List Entry → Prop
  | overlooked {k} (known : k ≠ .new ∧ ∀ b r, k ≠ .equivalent b r) : Disposes s o keys s' k []
  | restarted {k g s₁} (sighted : s.sight o = .ok (some g, s₁))
      (decided : Classifier.initialState g s₁ = .ok (some k, s')) : Disposes s o keys s' k []
  | reproduced {b r} (leads : ∃ key ∈ keys, key.dest = b) :
      Disposes s o keys s' (.equivalent b r)
        ((keys.filter fun key => key.dest = b).map (.reproduced o.transition))
  | refuted {k} (searched : k = .new ∨ ∃ b r, k = .equivalent b r) :
      Disposes s o keys s' k (keys.map .incorrect)

variable {s s' s₁ : Session} {o : Observation} {g : Sighting} {k : Classification}

theorem migrateInput_merges {w : WindowId} {x : Matching} {i : InputId}
    (ok : migrateInput w x s i = .ok s') : ∃ images, s.ledger.Merges s'.ledger images := by
  obtain ⟨-, rfl⟩ | ⟨fresh, rfl | ⟨y, j, z, -, -, -, rfl⟩⟩ := migrateInput_cases ok
  · exact ⟨[], .of_eq rfl rfl⟩
  · exact ⟨[], .of_eq rfl rfl⟩
  · refine ⟨[(i, j)], .insertImage fresh j _, fun p mem => ?_⟩
    rw [List.mem_singleton.1 mem]
    exact fresh

theorem enter_merges {o b : StateId} {x : Matching} {plan : List Transfer}
    (ok : s.enter o b x = .ok (plan, s')) :
    ∃ images, (s.ledger.recognise o b).Merges s'.ledger images := by
  obtain ⟨s₁, migrated, planned⟩ := Checked.bind_eq_ok.1 ok
  obtain ⟨-, -, -, -, -, -, -, -, -, n, rfl⟩ := plan_eq_ok planned
  obtain ⟨images, merges⟩ : ∃ images, (s.ledger.recognise o b).Merges s₁.ledger images := by
    refine migrateInputs_induct
      (fun s₁ => ∃ images, (s.ledger.recognise o b).Merges s₁.ledger images) migrated
      ⟨[], .of_eq rfl rfl⟩ ?_
    rintro w i s₂ s₃ ⟨images, before⟩ ok
    obtain ⟨images', merges⟩ := migrateInput_merges ok
    exact ⟨_, before.trans merges⟩
  exact ⟨_, merges.trans (.of_eq rfl rfl)⟩

theorem applyAll_images {plan : List Transfer} (ok : s.applyAll plan = .ok s') :
    s'.ledger.inputImages = s.ledger.inputImages := by
  refine foldChecked_induct (fun s' => s'.ledger.inputImages = s.ledger.inputImages) ok rfl ?_
  intro s₁ t mem s₂ same ok
  obtain ⟨old, a, mid, graph, -, action, -, -, -, images⟩ := applyTransfer_eq_ok ok
  rw [images, transferAction_ledger action, same]

theorem register_gains (mirrors : s.ledger.Mirrors) {k b : StateId} {n : SnapshotId} {x : Matching}
    (ok : s.register k b n x = .ok s') : ∃ images,
      s.ledger.Gains ([.snapshotBase n b, .equivalent k b, .image b k] ++ images.map .inputImage)
        s'.ledger ∧
      (∀ p ∈ images, s.ledger.inputImages.contains p.1 = false) ∧
      (images ≠ [] → ¬ s.ledger.Holds (.equivalent k b)) := by
  have marked := Ledger.Gains.markSnapshot s.ledger n b
  obtain ⟨entered, rfl⟩ | ⟨fresh, plan, planned, entered, applied⟩ := register_cases ok
  · have entered := Ledger.isRecognised_iff.1 entered
    refine ⟨[], ?_, nofun, nofun⟩
    refine marked.absorb fun e mem => ?_
    rcases List.mem_cons.1 mem with rfl | mem
    · exact entered
    · rw [List.mem_singleton.1 mem]
      exact (mirrors k b).1 entered
  · obtain ⟨images, merges, free⟩ := enter_merges entered
    refine ⟨images, ?_, free, fun _ held => ?_⟩
    · have gains := (marked.trans (.recognise _ k b)).trans merges
      have after := gains.trans (.of_eq (applyAll_keeps applied).book (applyAll_images applied))
      rwa [List.append_nil] at after
    · rw [Ledger.isRecognised_iff.2 held] at fresh
      cases fresh

theorem register_records {l : Ledger} {fate : List Entry} (mirrors : l.Mirrors)
    (before : l.Gains fate s.ledger)
    (foreign : ∀ o b, Entry.equivalent o b ∉ fate ∧ Entry.image b o ∉ fate)
    (images : s.ledger.inputImages = l.inputImages) {b : StateId} (r : Rule) {x : Matching}
    (ok : s.register o.state b o.snapshot x = .ok s') :
    ∃ images, l.Records o (.equivalent b r) fate images s'.ledger := by
  have mirrors : s.ledger.Mirrors :=
    mirrors.gains before fun o b => iff_of_false (foreign o b).1 (foreign o b).2
  obtain ⟨merged, gains, fresh, new⟩ := register_gains mirrors ok
  refine ⟨merged, (before.trans gains).perm ?_, images ▸ fresh, fun some => ?_, nofun⟩
  · rw [List.append_assoc]
    exact List.perm_append_comm_assoc ..
  · exact ⟨b, r, rfl, fun held => new some ((before _).2 (.inl held))⟩

theorem Answers.records (answers : s₁.Answers g k s') (sighted : s.sight o = .ok (some g, s₁))
    (mirrors : s₁.ledger.Mirrors) : ∃ fate images, s.Disposes o g.pruned s' k fate ∧
      s₁.ledger.Records o k fate images s'.ledger := by
  obtain ⟨e, a, _, _, ⟨⟨⟩, -⟩ | ⟨keys, _, _, _, ⟨⟩⟩⟩ := sight_eq_ok sighted
  cases answers with
  | homeScreen => exact ⟨[], [], .overlooked ⟨nofun, nofun⟩, .refl _, nofun, nofun, nofun⟩
  | knownNew =>
    exact ⟨[], [], .overlooked ⟨nofun, nofun⟩, .markNewSnapshot _ _, nofun, nofun, nofun⟩
  | cached base entered =>
    refine ⟨[], [], .overlooked ⟨nofun, nofun⟩, .refl _, nofun, nofun, ?_⟩
    rintro b ⟨⟩
    exact ⟨Ledger.isRecognised_iff.1 entered, OrderedMap.relates_iff.2 base⟩
  | observedBase =>
    exact ⟨[], [], .overlooked ⟨nofun, nofun⟩, .markObservedBase _ _, nofun, nofun, nofun⟩
  | @equivalent b r x mid s' undecided found registered before =>
    rcases before with ⟨initial, same⟩ | same
    · have gains : s₁.ledger.Gains [] mid.ledger := same ▸ Ledger.Gains.refl s₁.ledger
      obtain ⟨images, records⟩ :=
        register_records mirrors gains (by simp) (by rw [same]) r registered
      exact ⟨[], images, .restarted sighted initial, records⟩
    · have gains := same ▸ Ledger.Gains.markIncorrect s₁.ledger keys
      obtain ⟨images, records⟩ :=
        register_records mirrors gains (by simp) (by rw [same]; rfl) r registered
      exact ⟨_, images, .refuted (.inr ⟨b, r, rfl⟩), records⟩
  | @reproduces b r x mid _ s' undecided found registered some within before leads =>
    have gains : s₁.ledger.Gains [] mid.ledger := before ▸ Ledger.Gains.refl s₁.ledger
    obtain ⟨images, records⟩ :=
      register_records mirrors gains (by simp) (by rw [before]) r registered
    subst leads
    refine ⟨_, images, .reproduced ?_, records.also (.reproduce _ _ _)⟩
    obtain ⟨key, mem⟩ := List.exists_mem_of_ne_nil _ some
    exact ⟨key, within key mem, of_decide_eq_true (List.mem_filter.1 mem).2⟩
  | @new s' undecided passed refuted =>
    have gains := refuted ▸ Ledger.Gains.markIncorrect s₁.ledger keys
    refine ⟨_, [], .refuted (.inl rfl), (gains.trans (.markNew _ _ _)).perm ?_, nofun, nofun, nofun⟩
    rw [List.map_nil, List.append_nil]
    exact List.perm_append_comm

theorem sight_gains {seen : Option Sighting} (ok : s.sight o = .ok (seen, s')) :
    s.ledger.Gains [] s'.ledger := by
  obtain ⟨n, ledger⟩ := sight_ledger ok
  rw [ledger]
  exact .of_eq rfl rfl

theorem check_recorded (mirrors : s.ledger.Mirrors) (ok : s.check o = .ok (.ok k, s')) :
    ∃ keys fate images, s.Prunes o keys ∧ s.Disposes o keys s' k fate ∧
      s.ledger.Records o k fate images s'.ledger := by
  obtain ⟨-, -, ⟨⟩, -⟩ | ⟨-, sighted, ⟨⟩⟩ | ⟨-, g, s₁, k, sighted, classified, ⟨⟩⟩ := check_eq_ok ok
  · exact ⟨[], [], [], ⟨none, s', sighted, rfl⟩, .overlooked ⟨nofun, nofun⟩, sight_gains sighted,
      nofun, nofun, nofun⟩
  have noted := sight_gains sighted
  obtain ⟨n, ledger⟩ := sight_ledger sighted
  obtain ⟨fate, images, disposes, records⟩ :=
    (classify_cases classified).records sighted (mirrors.gains noted (by simp))
  refine ⟨g.pruned, fate, images, ⟨some g, s₁, sighted, rfl⟩, disposes, ?_⟩
  have same e : s₁.ledger.Holds e ↔ s.ledger.Holds e := by simpa using noted e
  refine ⟨noted.trans records.gains, ?_, fun some => ?_, fun cached => ?_⟩
  · have fresh := records.fresh
    rw [ledger] at fresh
    exact fresh
  · obtain ⟨b, r, answer, fresh⟩ := records.merged some
    exact ⟨b, r, answer, fun held => fresh ((same _).2 held)⟩
  · obtain ⟨entered, base⟩ := records.cached cached
    exact ⟨(same _).1 entered, (same _).1 base⟩

theorem Disposes.foreign {keys : List EdgeKey} {fate : List Entry}
    (disposes : s.Disposes o keys s' k fate) (x b : StateId) :
    Entry.equivalent x b ∉ fate ∧ Entry.image b x ∉ fate := by
  cases disposes <;> simp

theorem check_appends (mirrors : s.ledger.Mirrors) {c : Except Refusal Classification}
    (ok : s.check o = .ok (c, s')) : s.ledger.Appends s'.ledger := by
  cases c with
  | error r =>
    obtain ⟨-, -, -, rfl⟩ | ⟨-, -, ⟨⟩⟩ | ⟨-, -, -, -, -, -, ⟨⟩⟩ := check_eq_ok ok
    exact ⟨[], .refl _, by simp⟩
  | ok k =>
    obtain ⟨keys, fate, images, -, disposes, records⟩ := check_recorded mirrors ok
    refine ⟨_, records.gains, fun x b => ?_⟩
    obtain ⟨other, other'⟩ := disposes.foreign x b
    cases k <;> simp [Observation.entries, other, other', and_comm]

theorem register_appends (mirrors : s.ledger.Mirrors) {k b : StateId} {n : SnapshotId}
    {x : Matching} (ok : s.register k b n x = .ok s') : s.ledger.Appends s'.ledger := by
  obtain ⟨images, gains, -⟩ := register_gains mirrors ok
  exact ⟨_, gains, fun o b' => by simp [and_comm]⟩

theorem Used.mirrors (used : s.Used) : s.ledger.Mirrors := by
  induction used with
  | start m => exact fun o b => by simp [Ledger.Holds, OrderedMap.Relates]
  | grow _ _ _ ih => exact ih
  | check _ ok ih => exact (check_appends ih ok).mirrors ih
  | register _ _ _ _ _ ok ih => exact (register_appends ih ok).mirrors ih

inductive Leads (s : Session) : Session → Prop
  | refl : Leads s s
  | change {s' m} (leads : Leads s s') : Leads s { s' with model := m }
  | check {s₁ o c s'} (leads : Leads s s₁) (ok : s₁.check o = .ok (c, s')) : Leads s s'
  | register {s₁ k b n x s'} (leads : Leads s s₁) (ok : s₁.register k b n x = .ok s') : Leads s s'

theorem Leads.holds (leads : s.Leads s') (mirrors : s.ledger.Mirrors) :
    s'.ledger.Mirrors ∧ ∀ e, s.ledger.Holds e → s'.ledger.Holds e := by
  induction leads with
  | refl => exact ⟨mirrors, fun _ => id⟩
  | change _ ih => exact ih
  | check _ ok ih =>
    have appends := check_appends ih.1 ok
    exact ⟨appends.mirrors ih.1, fun e held => appends.holds (ih.2 e held)⟩
  | register _ ok ih =>
    have appends := register_appends ih.1 ok
    exact ⟨appends.mirrors ih.1, fun e held => appends.holds (ih.2 e held)⟩

/-- A check that is not refused records its answer and nothing else: the ledger holds what it held,
the entries of the answer, the pruned keys in the way in which they were disposed of, and images of
inputs if a pair is new. Nothing that follows takes any of it back. -/
theorem Used.check_records (used : s.Used) (wf : s.model.WellFormed) (o : Observation) :
    ∃ c s', s.check o = .ok (c, s') ∧ ∀ k, c = .ok k →
      (∃ keys fate images, s.Prunes o keys ∧ s.Disposes o keys s' k fate ∧
        s.ledger.Records o k fate images s'.ledger) ∧
      ∀ s'', s'.Leads s'' → ∀ e, s'.ledger.Holds e → s''.ledger.Holds e := by
  have sound := used.sound wf
  obtain ⟨c, s', ok⟩ := sound.check_goes o
  refine ⟨c, s', ok, ?_⟩
  rintro k rfl
  refine ⟨check_recorded used.mirrors ok, fun s'' leads => (leads.holds ?_).2⟩
  exact (check_appends used.mirrors ok).mirrors used.mirrors

theorem check_records_foreseen :
    (∃ k s' keys fate images, check { model := .foreseen } ⟨⟨0⟩, ⟨2⟩, ⟨1⟩, none⟩ = .ok (.ok k, s') ∧
      Prunes { model := .foreseen } ⟨⟨0⟩, ⟨2⟩, ⟨1⟩, none⟩ keys ∧
      Disposes { model := .foreseen } ⟨⟨0⟩, ⟨2⟩, ⟨1⟩, none⟩ keys s' k fate ∧
      Ledger.Records {} ⟨⟨0⟩, ⟨2⟩, ⟨1⟩, none⟩ k fate images s'.ledger) ∧
    ((check { model := .foreseen } ⟨⟨0⟩, ⟨2⟩, ⟨1⟩, none⟩).toOption.map fun r =>
      ((r.2.ledger.reproduced.get? ⟨1⟩).map OrderedSet.toList, r.2.ledger.incorrect.toList)) =
      some (some [⟨⟨1⟩, ⟨0⟩, ⟨0⟩⟩], []) := by
  refine ⟨?_, by decide +kernel⟩
  obtain ⟨c, s', ok, records⟩ :=
    (Used.start .foreseen).check_records built_foreseen.sound.model ⟨⟨0⟩, ⟨2⟩, ⟨1⟩, none⟩
  obtain ⟨k, s₁, answered⟩ := built_foreseen.sound.check_succeeds
    (o := ⟨⟨0⟩, ⟨2⟩, ⟨1⟩, none⟩) ⟨rfl, rfl, rfl, nofun⟩
  cases ok.symm.trans answered
  obtain ⟨⟨keys, fate, images, prunes, disposes, entered⟩, -⟩ := records k rfl
  exact ⟨k, s', keys, fate, images, ok, prunes, disposes, entered⟩

end Session

def Model.departed : Model where
  catalog := ((Catalog.openWindow {} "Main" "main" .activity .base).2.openWindow
    "Launcher" "home" .launcher .running).2
  actions := (ActionTable.intern {} ⟨0⟩ { kind := .pressBack }).2
  graph := Graph.withEdge
    (Graph.withEdge
      { states := (((Arena.add ∅ { window := ⟨0⟩, version := .base }).2.add
          { window := ⟨0⟩, version := .base }).2.add
          { window := ⟨1⟩, version := .running, isHome := true }).2 }
      { source := ⟨0⟩, action := ⟨0⟩, dest := ⟨1⟩, version := .base } ∅)
    { source := ⟨0⟩, action := ⟨0⟩, dest := ⟨2⟩, version := .running } ∅
  snapshots := (Arena.add ∅ { windowClass := "Launcher", elements := [{}] }).2

namespace Session

theorem built_departed : Built { model := .departed } := by
  have main := (Built.start {} hash).edit (.openWindow "Main" "main" .activity .base)
  have home := main.edit (.openWindow "Launcher" "home" .launcher .running)
  have first := home.addState ⟨0⟩ .base [] rfl
  have second := first.addState ⟨0⟩ .base [] rfl
  have out := second.addState ⟨1⟩ .running [.isHome true] rfl
  have back := out.edit (@Model.Edit.internAction _ ⟨0⟩ { kind := .pressBack } _ _ rfl)
  have expected := back.withEdge
    { source := ⟨0⟩, action := ⟨0⟩, dest := ⟨1⟩, version := .base } ∅ rfl rfl (.of_all rfl rfl)
  have left := expected.withEdge
    { source := ⟨0⟩, action := ⟨0⟩, dest := ⟨2⟩, version := .running } ∅ rfl rfl (.of_all rfl rfl)
  exact left.edit (.addSnapshot { windowClass := "Launcher", elements := [{}] })

/-- The home screen is answered before anything is made of the edge that was pruned. -/
theorem not_disposed_departed : ¬ ∀ s o k s' keys, Used s → s.model.WellFormed →
    s.check o = .ok (.ok k, s') → s.Prunes o keys →
    (∀ key ∈ keys, s'.ledger.Holds (.incorrect key)) ∨
      ∃ key ∈ keys, s'.ledger.Holds (.reproduced o.transition key) := by
  intro disposed
  have pruned : (sight { model := .departed } ⟨⟨0⟩, ⟨2⟩, ⟨1⟩, none⟩).toOption.map
      (fun r => r.1.map Sighting.pruned) = some (some [⟨⟨0⟩, ⟨0⟩, ⟨1⟩⟩]) := by decide +kernel
  have left : (check { model := .departed } ⟨⟨0⟩, ⟨2⟩, ⟨1⟩, none⟩).toOption.map
      (fun r => (r.1.toOption, r.2.ledger.incorrect.toList, r.2.ledger.reproduced.get? ⟨1⟩)) =
      some (some .homeScreen, [], none) := by decide +kernel
  obtain ⟨⟨seen, s₁⟩, sighted, keys⟩ := Option.map_eq_some_iff.1 pruned
  obtain ⟨⟨c, s'⟩, checked, left⟩ := Option.map_eq_some_iff.1 left
  obtain ⟨answer, left⟩ := Prod.mk.inj left
  obtain ⟨incorrect, reproduced⟩ := Prod.mk.inj left
  dsimp only at keys answer incorrect reproduced
  cases c with
  | error r => cases answer
  | ok k =>
    have prunes : Prunes { model := .departed } ⟨⟨0⟩, ⟨2⟩, ⟨1⟩, none⟩ [⟨⟨0⟩, ⟨0⟩, ⟨1⟩⟩] :=
      ⟨seen, s₁, toOption_eq_some.1 sighted, by rw [keys]; rfl⟩
    rcases disposed _ _ k s' _ (.start _) built_departed.sound.model (toOption_eq_some.1 checked)
      prunes with refuted | ⟨key, -, ks, found, -⟩
    · have held : (⟨⟨0⟩, ⟨0⟩, ⟨1⟩⟩ : EdgeKey) ∈ s'.ledger.incorrect.toList := refuted _ (by simp)
      rw [incorrect] at held
      cases held
    · cases reproduced.symm.trans found

end Session

end ScreenGraph
