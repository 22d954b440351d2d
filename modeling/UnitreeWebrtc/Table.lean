/-
Finite tables with a weight.

A `Table K V` is Mathlib's association list with distinct keys, read as the
mutable maps of a program: `lookup`, `insert` and `erase` come from Mathlib.
What a resource budget needs on top is how many entries a table holds
(`size`) and what they weigh together (`weight f`), and how both move:

* `weight_insert`, `weight_erase` — an insertion adds the new weight, an
  erasure takes exactly the erased one away;
* `size_insert_of_lookup_none`, `size_insert_of_lookup_some` — an insertion
  grows the table only under a fresh key;
* `lookup_eraseAll` — erasing a list of keys touches those keys and no other;
* `of_update` — the same reading for a table that is a function.
-/
import Mathlib

/-- A finite map from `K` to `V`. -/
abbrev Table (K V : Type) := AList (fun _ : K => V)

namespace Table

variable {K V : Type} [DecidableEq K]

/-- The number of entries. -/
def size (t : Table K V) : ℕ := t.keys.length

/-- The values of a table, in entry order. -/
def values (t : Table K V) : List V := t.entries.map fun e => e.2

/-- The sum of `f` over the values of a table. -/
def weight (f : V → ℕ) (t : Table K V) : ℕ := (t.values.map f).sum

/-- Erase every key of a list. -/
def eraseAll (t : Table K V) (ks : List K) : Table K V :=
  ks.foldl (fun t k => t.erase k) t

theorem erase_of_lookup_none {t : Table K V} {k : K} (h : t.lookup k = none) :
    t.erase k = t := by
  apply AList.ext
  exact List.kerase_of_notMem_keys (AList.lookup_eq_none.mp h)

theorem erase_insert_self {t : Table K V} {k : K} {v : V} (h : t.lookup k = none) :
    (t.insert k v).erase k = t := by
  apply AList.ext
  have hk : k ∉ t.entries.keys := AList.lookup_eq_none.mp h
  change List.kerase k (List.kinsert k v t.entries) = t.entries
  rw [List.kinsert, List.kerase_of_notMem_keys hk,
    List.kerase_cons_eq (s := (⟨k, v⟩ : Sigma fun _ : K => V)) rfl]

theorem erase_insert_of_ne {t : Table K V} {k k' : K} {v : V} (h : k ≠ k') :
    (t.insert k v).erase k' = (t.erase k').insert k v := by
  apply AList.ext
  change List.kerase k' (⟨k, v⟩ :: List.kerase k t.entries)
    = ⟨k, v⟩ :: List.kerase k (List.kerase k' t.entries)
  rw [List.kerase_cons_ne (s := (⟨k, v⟩ : Sigma fun _ : K => V)) h.symm, List.kerase_comm]

private theorem kerase_eq_filter (k : K) : ∀ {l : List (Sigma fun _ : K => V)}, l.NodupKeys →
    l.kerase k = l.filter fun e => e.1 ≠ k := by
  intro l
  induction l with
  | nil => intro _; rfl
  | cons e rest ih =>
    intro hnodup
    obtain ⟨hnotin, hrest⟩ := List.nodupKeys_cons.mp hnodup
    by_cases hk : k = e.1
    · rw [List.kerase_cons_eq hk, List.filter_cons_of_neg (by simp [hk])]
      refine (List.filter_eq_self.mpr fun e' he' => ?_).symm
      have hne : e'.1 ≠ k := by
        rintro rfl
        exact hnotin (hk ▸ List.mem_map_of_mem he')
      simpa using hne
    · rw [List.kerase_cons_ne hk, List.filter_cons_of_pos (by simpa using Ne.symm hk), ih hrest]

theorem entries_erase (t : Table K V) (k : K) :
    (t.erase k).entries = t.entries.filter fun e => e.1 ≠ k :=
  kerase_eq_filter k t.nodupKeys

theorem mem_entries_of_lookup {t : Table K V} {k : K} {v : V} (h : t.lookup k = some v) :
    (⟨k, v⟩ : Sigma fun _ : K => V) ∈ t.entries :=
  List.of_mem_dlookup h

theorem lookup_of_mem_entries {t : Table K V} {k : K} {v : V}
    (h : (⟨k, v⟩ : Sigma fun _ : K => V) ∈ t.entries) : t.lookup k = some v :=
  List.mem_dlookup t.nodupKeys h

theorem mem_values_iff {t : Table K V} {v : V} :
    v ∈ t.values ↔ ∃ k, t.lookup k = some v := by
  rw [values, List.mem_map]
  constructor
  · rintro ⟨⟨k, w⟩, hmem, rfl⟩
    exact ⟨k, lookup_of_mem_entries hmem⟩
  · rintro ⟨k, hk⟩
    exact ⟨⟨k, v⟩, mem_entries_of_lookup hk, rfl⟩

theorem mem_keys_iff {t : Table K V} {k : K} :
    k ∈ t.keys ↔ ∃ v, t.lookup k = some v := by
  rw [← AList.mem_keys, ← AList.lookup_isSome, Option.isSome_iff_exists]

/-! ### Weights -/

private theorem sum_kerase (f : V → ℕ) : ∀ {l : List (Sigma fun _ : K => V)} {k : K} {v : V},
    v ∈ l.dlookup k →
      ((l.kerase k).map fun e => f e.2).sum + f v = (l.map fun e => f e.2).sum := by
  intro l
  induction l with
  | nil =>
    intro k v h
    simp at h
  | cons e rest ih =>
    intro k v h
    obtain ⟨k', w⟩ := e
    by_cases hk : k = k'
    · subst hk
      rw [List.dlookup_cons_eq, Option.mem_some_iff] at h
      subst h
      rw [List.kerase_cons_eq (s := (⟨k, w⟩ : Sigma fun _ : K => V)) rfl, List.map_cons,
        List.sum_cons, Nat.add_comm]
    · rw [List.dlookup_cons_ne _ _ hk] at h
      rw [List.kerase_cons_ne hk, List.map_cons, List.map_cons, List.sum_cons,
        List.sum_cons, Nat.add_assoc, ih h]

theorem weight_erase {f : V → ℕ} {t : Table K V} {k : K} {v : V} (h : t.lookup k = some v) :
    weight f (t.erase k) + f v = weight f t := by
  simp only [weight, values, List.map_map]
  exact sum_kerase f h

theorem weight_erase_le (f : V → ℕ) (t : Table K V) (k : K) :
    weight f (t.erase k) ≤ weight f t := by
  rcases hk : t.lookup k with _ | v
  · rw [erase_of_lookup_none hk]
  · have := weight_erase (f := f) hk
    omega

theorem weight_insert (f : V → ℕ) (t : Table K V) (k : K) (v : V) :
    weight f (t.insert k v) = f v + weight f (t.erase k) := by
  simp only [weight, values, AList.entries_insert, List.map_cons, List.sum_cons]
  rfl

/-! ### Sizes -/

theorem size_insert (t : Table K V) (k : K) (v : V) :
    size (t.insert k v) = size (t.erase k) + 1 := by
  simp [size, AList.keys_insert, AList.keys_erase]

theorem size_erase_le (t : Table K V) (k : K) : size (t.erase k) ≤ size t := by
  rw [size, size, AList.keys_erase]
  exact List.length_erase_le

theorem size_erase_of_lookup_some {t : Table K V} {k : K} {v : V} (h : t.lookup k = some v) :
    size (t.erase k) + 1 = size t := by
  have hmem : k ∈ t.keys := mem_keys_iff.mpr ⟨v, h⟩
  rw [size, size, AList.keys_erase, List.length_erase_of_mem hmem]
  have := List.length_pos_of_mem hmem
  omega

theorem size_insert_of_lookup_none {t : Table K V} {k : K} (v : V) (h : t.lookup k = none) :
    size (t.insert k v) = size t + 1 := by
  rw [size_insert, erase_of_lookup_none h]

theorem size_insert_of_lookup_some {t : Table K V} {k : K} {w : V} (v : V)
    (h : t.lookup k = some w) : size (t.insert k v) = size t := by
  rw [size_insert, size_erase_of_lookup_some h]

/-! ### Lookups as one equation -/

theorem lookup_insert_eq (t : Table K V) (k k' : K) (v : V) :
    (t.insert k v).lookup k' = if k' = k then some v else t.lookup k' := by
  by_cases h : k' = k
  · subst h
    rw [AList.lookup_insert, if_pos rfl]
  · rw [AList.lookup_insert_ne h, if_neg h]

theorem lookup_erase_eq (t : Table K V) (k k' : K) :
    (t.erase k).lookup k' = if k' = k then none else t.lookup k' := by
  by_cases h : k' = k
  · subst h
    rw [AList.lookup_erase, if_pos rfl]
  · rw [AList.lookup_erase_ne h, if_neg h]

theorem lookup_eraseAll (ks : List K) : ∀ (t : Table K V) (k : K),
    (t.eraseAll ks).lookup k = if k ∈ ks then none else t.lookup k := by
  induction ks with
  | nil => intro t k; simp [eraseAll]
  | cons k' rest ih =>
    intro t k
    change (eraseAll (t.erase k') rest).lookup k = _
    rw [ih, lookup_erase_eq]
    by_cases h1 : k ∈ rest <;> by_cases h2 : k = k' <;> simp [h1, h2]

theorem erase_eraseAll (k : K) (ks : List K) : ∀ t : Table K V,
    (t.eraseAll ks).erase k = eraseAll (t.erase k) (ks.filter fun k' => k' ≠ k) := by
  induction ks with
  | nil => intro t; rfl
  | cons k' rest ih =>
    intro t
    change (eraseAll (t.erase k') rest).erase k = _
    by_cases hk : k' = k
    · subst hk
      rw [ih, List.filter_cons_of_neg (by simp),
        erase_of_lookup_none (t := t.erase k') (AList.lookup_erase k' t)]
    · rw [ih, List.filter_cons_of_pos (by simpa using hk), AList.erase_erase]
      rfl

theorem weight_eraseAll_le (f : V → ℕ) (ks : List K) : ∀ t : Table K V,
    weight f (t.eraseAll ks) ≤ weight f t := by
  induction ks with
  | nil => intro t; exact le_refl _
  | cons k rest ih => intro t; exact le_trans (ih (t.erase k)) (weight_erase_le f t k)

theorem size_eraseAll_le (ks : List K) : ∀ t : Table K V, size (t.eraseAll ks) ≤ size t := by
  induction ks with
  | nil => intro t; exact le_refl _
  | cons k rest ih => intro t; exact le_trans (ih (t.erase k)) (size_erase_le t k)

/-! ### Functions as tables -/

/-- What a function has after an update is new, or was there before. -/
theorem of_update {f : K → Option V} {k k' : K} {v w : V}
    (h : Function.update f k (some v) k' = some w) :
    k' = k ∧ w = v ∨ k' ≠ k ∧ f k' = some w := by
  by_cases hk : k' = k
  · rw [hk, Function.update_self, Option.some_inj] at h
    exact Or.inl ⟨hk, h.symm⟩
  · rw [Function.update_of_ne hk] at h
    exact Or.inr ⟨hk, h⟩

end Table
