import Mathlib.Data.List.AList

/-!
# A registry: one numbered entry per key

A registry hands out the entry of a key, and makes it when the key has none. Entries are
numbered as they are made, so that two entries are the same exactly when their numbers are.
The structure carries what this needs: no entry has a number not yet given out, and no two
keys share a number.

## What is proved

* `Registry.size_add`, `Registry.size_erase_of_some`, `Registry.size_erase_of_none` — how many
  entries there are after a change.
* `Registry.gets_same_iff` — of any sequence of calls, two return the same entry exactly when
  their keys are equal.
* `find?_upsert_self`, `find?_upsert_ne` — a list in which an entry is changed, or added when it is
  not there.
-/

namespace RtspProxy.Theory

variable {κ ν : Type} [DecidableEq κ]

/-- The entries by key, each with its number and its value. -/
structure Registry (κ ν : Type) [DecidableEq κ] where
  /-- The entry of each key. -/
  entries : AList fun _ : κ => ℕ × ν
  /-- The number of the next entry. -/
  next : ℕ
  /-- A number in use has been given out. -/
  below : ∀ {k e}, entries.lookup k = some e → e.1 < next
  /-- No two keys share a number. -/
  unique : ∀ {k k' e e'}, entries.lookup k = some e → entries.lookup k' = some e' → e.1 = e'.1 → k = k'

namespace Registry

/-- A registry with no entry. -/
def empty : Registry κ ν where
  entries := ∅
  next := 0
  below h := by simp at h
  unique h := by simp at h

/-- A new entry for the key. -/
def add (r : Registry κ ν) (k : κ) (v : ν) : Registry κ ν where
  entries := r.entries.insert k (r.next, v)
  next := r.next + 1
  below := by
    intro k' e h
    by_cases hk : k' = k
    · subst hk
      rw [AList.lookup_insert, Option.some.injEq] at h
      subst h
      exact Nat.lt_succ_self _
    · rw [AList.lookup_insert_ne hk] at h
      have := r.below h
      omega
  unique := by
    intro k₁ k₂ e₁ e₂ h₁ h₂ he
    by_cases hk₁ : k₁ = k <;> by_cases hk₂ : k₂ = k
    · rw [hk₁, hk₂]
    · -- the new number is above every number of the other keys
      subst hk₁
      rw [AList.lookup_insert, Option.some.injEq] at h₁
      rw [AList.lookup_insert_ne hk₂] at h₂
      have := r.below h₂
      subst h₁
      omega
    · subst hk₂
      rw [AList.lookup_insert, Option.some.injEq] at h₂
      rw [AList.lookup_insert_ne hk₁] at h₁
      have := r.below h₁
      subst h₂
      omega
    · rw [AList.lookup_insert_ne hk₁] at h₁
      rw [AList.lookup_insert_ne hk₂] at h₂
      exact r.unique h₁ h₂ he

/-- The entry of the key is dropped. -/
def erase (r : Registry κ ν) (k : κ) : Registry κ ν where
  entries := r.entries.erase k
  next := r.next
  below := by
    intro k' e h
    by_cases hk : k' = k
    · subst hk
      simp at h
    · rw [AList.lookup_erase_ne hk] at h
      exact r.below h
  unique := by
    intro k₁ k₂ e₁ e₂ h₁ h₂ he
    by_cases hk₁ : k₁ = k
    · subst hk₁
      simp at h₁
    by_cases hk₂ : k₂ = k
    · subst hk₂
      simp at h₂
    rw [AList.lookup_erase_ne hk₁] at h₁
    rw [AList.lookup_erase_ne hk₂] at h₂
    exact r.unique h₁ h₂ he

/-! ### What is registered -/

theorem lookup_add (r : Registry κ ν) (k k' : κ) (v : ν) :
    (r.add k v).entries.lookup k' = if k' = k then some (r.next, v) else r.entries.lookup k' := by
  split_ifs with h
  · rw [h]
    exact AList.lookup_insert _
  · exact AList.lookup_insert_ne h

theorem lookup_erase (r : Registry κ ν) (k k' : κ) :
    (r.erase k).entries.lookup k' = if k' = k then none else r.entries.lookup k' := by
  split_ifs with h
  · rw [h]
    exact AList.lookup_erase k r.entries
  · exact AList.lookup_erase_ne h

/-- The number of entries. -/
def size (r : Registry κ ν) : ℕ := r.entries.keys.length

/-- The numbers of the entries. -/
def numbers (r : Registry κ ν) : List ℕ := r.entries.entries.map fun e => e.2.1

theorem length_numbers (r : Registry κ ν) : r.numbers.length = r.size := by
  rw [numbers, size, AList.keys, List.keys, List.length_map, List.length_map]

theorem size_add {r : Registry κ ν} {k : κ} (h : r.entries.lookup k = none) (v : ν) : (r.add k v).size = r.size + 1 := by
  have hk : k ∉ r.entries.keys := AList.lookup_eq_none.mp h
  rw [size, add, AList.keys_insert, List.length_cons, List.erase_of_not_mem hk, size]

theorem size_erase_of_some {r : Registry κ ν} {k : κ} {e : ℕ × ν} (h : r.entries.lookup k = some e) :
    (r.erase k).size + 1 = r.size := by
  have hk : k ∈ r.entries.keys := AList.lookup_isSome.mp (by simp [h])
  have hpos := List.length_pos_of_mem hk
  rw [size, erase, AList.keys_erase, List.length_erase_of_mem hk, size]
  omega

theorem size_erase_of_none {r : Registry κ ν} {k : κ} (h : r.entries.lookup k = none) : (r.erase k).size = r.size := by
  have hk : k ∉ r.entries.keys := AList.lookup_eq_none.mp h
  rw [size, erase, AList.keys_erase, List.erase_of_not_mem hk, size]

theorem mem_numbers {r : Registry κ ν} {n : ℕ} : n ∈ r.numbers ↔ ∃ k v, r.entries.lookup k = some (n, v) := by
  constructor
  · intro h
    obtain ⟨⟨k, m, v⟩, he, rfl⟩ := List.mem_map.mp h
    exact ⟨k, v, AList.mem_lookup_iff.mpr he⟩
  · rintro ⟨k, v, h⟩
    exact List.mem_map.mpr ⟨⟨k, n, v⟩, AList.mem_lookup_iff.mp h, rfl⟩

theorem nodup_numbers (r : Registry κ ν) : r.numbers.Nodup := by
  refine List.Nodup.map_on ?_ (List.NodupKeys.nodup r.entries.nodupKeys)
  rintro ⟨k, e⟩ he ⟨k', e'⟩ he' hn
  have h := AList.mem_lookup_iff.mpr he
  have h' := AList.mem_lookup_iff.mpr he'
  obtain rfl := r.unique h h' hn
  rw [Option.some.inj (h.symm.trans h')]

/-- The entry of the key, made with the value `v` if there is none, and the registry after. -/
def get (r : Registry κ ν) (k : κ) (v : ν) : (ℕ × ν) × Registry κ ν :=
  match r.entries.lookup k with
  | some e => (e, r)
  | none => ((r.next, v), r.add k v)

/-- What is returned is the key's entry from then on. -/
theorem lookup_get (r : Registry κ ν) (k : κ) (v : ν) : (r.get k v).2.entries.lookup k = some (r.get k v).1 := by
  rw [get]
  cases h : r.entries.lookup k with
  | some e => exact h
  | none => exact AList.lookup_insert _

/-- What is registered after a call was there before, or was made by it. -/
theorem eq_of_lookup_get {r : Registry κ ν} {k k' : κ} {v : ν} {e : ℕ × ν}
    (h : (r.get k v).2.entries.lookup k' = some e) : r.entries.lookup k' = some e ∨ k' = k ∧ e.2 = v := by
  rw [get] at h
  cases hk : r.entries.lookup k with
  | some e' =>
    rw [hk] at h
    exact .inl h
  | none =>
    rw [hk] at h
    rw [lookup_add] at h
    split_ifs at h with hkk
    · exact .inr ⟨hkk, by rw [← Option.some.inj h]⟩
    · exact .inl h

theorem lookup_get_of_some {r : Registry κ ν} {k' : κ} {e : ℕ × ν} (h : r.entries.lookup k' = some e) (k : κ) (v : ν) :
    (r.get k v).2.entries.lookup k' = some e := by
  rw [get]
  cases hk : r.entries.lookup k with
  | some e' => exact h
  | none =>
    have hne : k' ≠ k := by
      rintro rfl
      rw [hk] at h
      cases h
    exact (AList.lookup_insert_ne hne).trans h

/-- A sequence of calls, each with its key and the value it would make: what each returns, and
the registry after all of them. -/
def gets {ρ : Type} (key : ρ → κ) (value : ρ → ν) : Registry κ ν → List ρ → List (ρ × ℕ × ν) × Registry κ ν
  | r, [] => ([], r)
  | r, q :: qs =>
    let (e, r') := r.get (key q) (value q)
    let (es, r'') := gets key value r' qs
    ((q, e) :: es, r'')

section Gets

variable {ρ : Type} {key : ρ → κ} {value : ρ → ν}

theorem gets_cons (r : Registry κ ν) (q : ρ) (qs : List ρ) :
    gets key value r (q :: qs) =
      ((q, (r.get (key q) (value q)).1) :: (gets key value (r.get (key q) (value q)).2 qs).1,
        (gets key value (r.get (key q) (value q)).2 qs).2) := rfl

/-- A sequence of calls leaves the entries there are. -/
theorem lookup_gets_of_some {r : Registry κ ν} {k : κ} {e : ℕ × ν} (h : r.entries.lookup k = some e) (qs : List ρ) :
    (gets key value r qs).2.entries.lookup k = some e := by
  induction qs generalizing r with
  | nil => exact h
  | cons q qs ih =>
    rw [gets_cons]
    exact ih (lookup_get_of_some h _ _)

/-- What each call returned is its key's entry when all are done. -/
theorem lookup_of_mem_gets {r : Registry κ ν} {qs : List ρ} {c : ρ × ℕ × ν} (h : c ∈ (gets key value r qs).1) :
    (gets key value r qs).2.entries.lookup (key c.1) = some c.2 := by
  induction qs generalizing r with
  | nil => simp [gets] at h
  | cons q qs ih =>
    rw [gets_cons] at h ⊢
    rcases List.mem_cons.mp h with rfl | h
    · exact lookup_gets_of_some (lookup_get r _ _) qs
    · exact ih h

/-- **Two calls of a sequence return the same entry exactly when their keys are equal.** -/
theorem gets_same_iff {r : Registry κ ν} {qs : List ρ} {c d : ρ × ℕ × ν} (hc : c ∈ (gets key value r qs).1)
    (hd : d ∈ (gets key value r qs).1) : c.2.1 = d.2.1 ↔ key c.1 = key d.1 := by
  have hc := lookup_of_mem_gets hc
  have hd := lookup_of_mem_gets hd
  constructor
  · exact (gets key value r qs).2.unique hc hd
  · intro hk
    rw [hk, hd, Option.some.injEq] at hc
    rw [hc]

end Gets

end Registry

/-! ### A list of entries -/

section Upsert
variable {α : Type} {p q : α → Bool} {f : α → α}

/-- The entry that is found is changed, or added. -/
def upsert (p : α → Bool) (f : α → α) (d : α) (l : List α) : List α :=
  match l.findIdx? p with
  | some i => l.modify i f
  | none => l ++ [f d]

theorem upsert_cons (d a : α) (l : List α) :
    upsert p f d (a :: l) = if p a then f a :: l else a :: upsert p f d l := by
  unfold upsert
  rw [List.findIdx?_cons]
  split_ifs with h
  · rfl
  · cases l.findIdx? p <;> rfl

theorem find?_upsert_self (hf : ∀ a, p (f a) = p a) {d : α} (hd : p d = true) (l : List α) :
    (upsert p f d l).find? p = some (f ((l.find? p).getD d)) := by
  induction l with
  | nil => simp [upsert, hf, hd]
  | cons a l ih =>
    rw [upsert_cons]
    by_cases h : p a = true
    · simp [h, hf]
    · simp [h, ih]

theorem find?_upsert_ne (hf : ∀ a, q (f a) = q a) (hpq : ∀ a, p a = true → q a = false) {d : α} (hd : p d = true)
    (l : List α) : (upsert p f d l).find? q = l.find? q := by
  induction l with
  | nil => simp [upsert, hf, hpq d hd]
  | cons a l ih =>
    rw [upsert_cons]
    by_cases h : p a = true
    · simp [h, hf, hpq a h]
    · simp [h, List.find?_cons, ih]

end Upsert

end RtspProxy.Theory
