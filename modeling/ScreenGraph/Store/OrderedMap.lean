import ScreenGraph.Store.OrderedSet

namespace ScreenGraph

structure OrderedMap (κ ν : Type) where
  entries : List (κ × ν)
  nodup : (entries.map Prod.fst).Nodup

namespace OrderedMap

variable {κ ν : Type}

@[ext] theorem ext {m n : OrderedMap κ ν} (h : m.entries = n.entries) : m = n := by
  cases m; cases n; simpa using h

instance : EmptyCollection (OrderedMap κ ν) := ⟨⟨[], List.nodup_nil⟩⟩

instance : Inhabited (OrderedMap κ ν) := ⟨∅⟩

def keys (m : OrderedMap κ ν) : List κ := m.entries.map Prod.fst

def size (m : OrderedMap κ ν) : Nat := m.entries.length

instance [DecidableEq κ] [DecidableEq ν] : DecidableEq (OrderedMap κ ν) := fun m n =>
  decidable_of_iff (m.entries = n.entries) ⟨ext, congrArg entries⟩

variable [DecidableEq κ]

def find (k : κ) : List (κ × ν) → Option ν
  | [] => none
  | (k₁, v) :: r => if k₁ = k then some v else find k r

def write (k : κ) (f : Option ν → ν) : List (κ × ν) → List (κ × ν)
  | [] => [(k, f none)]
  | (k₁, v) :: r => if k₁ = k then (k₁, f (some v)) :: r else (k₁, v) :: write k f r

theorem keys_write (k : κ) (f : Option ν → ν) (es : List (κ × ν)) :
    (write k f es).map Prod.fst =
      if k ∈ es.map Prod.fst then es.map Prod.fst else es.map Prod.fst ++ [k] := by
  induction es with
  | nil => simp [write]
  | cons p r ih =>
    obtain ⟨k₁, v⟩ := p
    by_cases h : k₁ = k
    · simp [write, h]
    · have h₁ : k ≠ k₁ := fun e => h e.symm
      by_cases hk : k ∈ r.map Prod.fst <;> simp_all [write]

theorem nodup_write {k : κ} {f : Option ν → ν} {es : List (κ × ν)} (h : (es.map Prod.fst).Nodup) :
    ((write k f es).map Prod.fst).Nodup := by
  rw [keys_write]
  split
  · exact h
  · next hk =>
    exact List.nodup_append.2
      ⟨h, by simp, fun b hb c hc => by simp at hc; subst hc; exact fun e => hk (e ▸ hb)⟩

theorem find_write (k : κ) (f : Option ν → ν) (es : List (κ × ν)) (k₂ : κ) :
    find k₂ (write k f es) = if k = k₂ then some (f (find k es)) else find k₂ es := by
  induction es with
  | nil => simp [write, find]
  | cons p r ih =>
    obtain ⟨k₁, v⟩ := p
    by_cases h : k₁ = k <;> grind [write, find]

def get? (m : OrderedMap κ ν) (k : κ) : Option ν := find k m.entries

def contains (m : OrderedMap κ ν) (k : κ) : Bool := (m.get? k).isSome

theorem contains_iff {m : OrderedMap κ ν} {k : κ} :
    m.contains k = true ↔ ∃ v, m.get? k = some v := by
  simp [contains, Option.isSome_iff_exists]

theorem contains_of_get? {m : OrderedMap κ ν} {k : κ} {v : ν} (live : m.get? k = some v) :
    m.contains k = true := contains_iff.2 ⟨v, live⟩

def update (m : OrderedMap κ ν) (k : κ) (f : Option ν → ν) : OrderedMap κ ν :=
  ⟨write k f m.entries, nodup_write m.nodup⟩

def insert (m : OrderedMap κ ν) (k : κ) (v : ν) : OrderedMap κ ν := m.update k fun _ => v

def ofList (es : List (κ × ν)) : OrderedMap κ ν := es.foldl (fun m e => m.insert e.1 e.2) ∅

def erase (m : OrderedMap κ ν) (k : κ) : OrderedMap κ ν :=
  ⟨m.entries.filter fun e => decide (e.1 ≠ k),
    m.nodup.sublist (List.filter_sublist.map Prod.fst)⟩

@[simp] theorem get?_empty (k : κ) : (∅ : OrderedMap κ ν).get? k = none := rfl

theorem get?_update (m : OrderedMap κ ν) (k : κ) (f : Option ν → ν) (k₂ : κ) :
    (m.update k f).get? k₂ = if k = k₂ then some (f (m.get? k)) else m.get? k₂ :=
  find_write k f m.entries k₂

theorem get?_insert (m : OrderedMap κ ν) (k : κ) (v : ν) (k₂ : κ) :
    (m.insert k v).get? k₂ = if k = k₂ then some v else m.get? k₂ :=
  get?_update m k _ k₂

theorem get?_erase (m : OrderedMap κ ν) (k k₂ : κ) :
    (m.erase k).get? k₂ = if k = k₂ then none else m.get? k₂ := by
  simp only [erase, get?]
  generalize m.entries = es
  induction es with
  | nil => simp [find]
  | cons p r ih =>
    obtain ⟨k₁, v⟩ := p
    by_cases h : k₁ = k <;> grind [find]

theorem mem_keys_iff {m : OrderedMap κ ν} {k : κ} : k ∈ m.keys ↔ m.contains k = true := by
  simp only [contains, get?, keys]
  generalize m.entries = es
  induction es with
  | nil => simp [find]
  | cons p r ih =>
    obtain ⟨k₁, v⟩ := p
    by_cases h : k₁ = k <;> grind [find]

end OrderedMap

section

variable {κ α : Type} [DecidableEq κ] [DecidableEq α]

def OrderedMap.addTo (m : OrderedMap κ (OrderedSet α)) (k : κ) (a : α) :
    OrderedMap κ (OrderedSet α) :=
  m.update k fun s => (s.getD ∅).insert a

theorem OrderedMap.get?_addTo (m : OrderedMap κ (OrderedSet α)) (k : κ) (a : α) (k₂ : κ) :
    (m.addTo k a).get? k₂ =
      if k = k₂ then some (((m.get? k).getD ∅).insert a) else m.get? k₂ :=
  get?_update m k _ k₂

end

end ScreenGraph
