/-
A desk of one-shot calls.

Callers register under a key and wait; whoever answers takes the entry out of
the table and sends the caller's token its one answer; a caller that goes away
releases its entry, but only if it is still its own.  Keys are reused, so the
token and not the key says whose entry it is.

The desk is generic in keys, callbacks and answers.  `token` gives the identity
of a callback.

* `Desk.Step` — the ways a desk changes;
* `Desk.Inv` — entries belong to callers still waiting, a caller without an
  entry has its answer, and nobody is answered twice;
* `Desk.step_inv`, `Desk.steps_inv` — kept by every sequence of steps.
-/
import UnitreeWebrtc.Table

/-- The table of waiting calls, the answers sent, the calls still waiting for
theirs (by token, with their key), and the next token. -/
structure Desk (K C R : Type) where
  pending : Table K C
  sent : List (ℕ × R)
  live : Table ℕ K
  next : ℕ

namespace Desk

variable {K C R : Type} [DecidableEq K]

/-- Take the entry under `k` out and answer it. -/
def settle (token : C → ℕ) (d : Desk K C R) (k : K) (answer : C → R) : Desk K C R :=
  match d.pending.lookup k with
  | none => d
  | some c =>
    { d with pending := d.pending.erase k, sent := d.sent ++ [(token c, answer c)] }

/-- Answer every entry. -/
def settleAll (token : C → ℕ) (d : Desk K C R) (answer : C → R) : Desk K C R :=
  { d with
    pending := ∅
    sent := d.sent ++ d.pending.values.map fun c => (token c, answer c) }

def register (token : C → ℕ) (d : Desk K C R) (k : K) (c : C) : Desk K C R :=
  { d with
    pending := d.pending.insert k c
    live := d.live.insert (token c) k
    next := token c + 1 }

/-- The table once the caller of token `t` has gone: without its entry, if it
still had one. -/
def without (token : C → ℕ) (d : Desk K C R) (t : ℕ) : Table K C :=
  match d.live.lookup t with
  | none => d.pending
  | some k =>
    match d.pending.lookup k with
    | none => d.pending
    | some c => if token c = t then d.pending.erase k else d.pending

def release (token : C → ℕ) (d : Desk K C R) (t : ℕ) : Desk K C R :=
  { d with pending := d.without token t, live := d.live.erase t }

inductive Step (token : C → ℕ) (d : Desk K C R) : Desk K C R → Prop
  | skip (n : ℕ) (h : d.next ≤ n) : Step token d { d with next := n }
  | settle (k : K) (answer : C → R) : Step token d (d.settle token k answer)
  | settleAll (answer : C → R) : Step token d (d.settleAll token answer)
  | register (k : K) (c : C) (free : d.pending.lookup k = none) (fresh : d.next ≤ token c) :
      Step token d (d.register token k c)
  | release (t : ℕ) : Step token d (d.release token t)

/-- How many answers a token was sent. -/
def answers (d : Desk K C R) (t : ℕ) : ℕ := (d.sent.filter fun e => e.1 = t).length

structure Inv (token : C → ℕ) (d : Desk K C R) : Prop where
  /-- An entry belongs to a caller that waits under that key. -/
  owned : ∀ {k c}, d.pending.lookup k = some c → d.live.lookup (token c) = some k
  /-- An entry has not been answered. -/
  open_ : ∀ {k c}, d.pending.lookup k = some c → d.answers (token c) = 0
  /-- A waiting caller has its entry, or has been answered. -/
  served : ∀ {t k}, d.live.lookup t = some k →
    (∃ c, d.pending.lookup k = some c ∧ token c = t) ∨ d.answers t = 1
  once : ∀ t, d.answers t ≤ 1
  fresh_live : ∀ {t k}, d.live.lookup t = some k → t < d.next
  fresh_sent : ∀ e ∈ d.sent, e.1 < d.next

section

omit [DecidableEq K]

variable {d : Desk K C R}

theorem answers_append (d : Desk K C R) (pending : Table K C) (extra : List (ℕ × R)) (t : ℕ) :
    answers { d with pending := pending, sent := d.sent ++ extra } t
      = d.answers t + (extra.filter fun e => e.1 = t).length := by
  simp [answers]

theorem answers_eq_zero_of_fresh (h : ∀ e ∈ d.sent, e.1 < d.next) {t : ℕ} (ht : d.next ≤ t) :
    d.answers t = 0 := by
  rw [answers, List.length_eq_zero_iff, List.filter_eq_nil_iff]
  intro e he
  have := h e he
  simp only [decide_eq_true_eq]
  omega

end

variable {token : C → ℕ} {d : Desk K C R}

/-- Two entries of one token are one entry. -/
theorem Inv.key_unique (h : Inv token d) {k k' : K} {c c' : C}
    (hk : d.pending.lookup k = some c) (hk' : d.pending.lookup k' = some c')
    (ht : token c = token c') : k = k' := by
  have h1 := h.owned hk
  have h2 := h.owned hk'
  rw [ht] at h1
  exact Option.some_inj.mp (h1.symm.trans h2)

/-- What a token was sent is one answer. -/
theorem Inv.answers_singleton (h : Inv token d) {t : ℕ} {r : R} (hr : (t, r) ∈ d.sent) :
    (d.sent.filter fun e => e.1 = t) = [(t, r)] := by
  have hmem : (t, r) ∈ d.sent.filter fun e => e.1 = t := List.mem_filter.mpr ⟨hr, by simp⟩
  have hone := h.once t
  rw [answers] at hone
  obtain ⟨e, he⟩ := List.length_eq_one_iff.mp
    (le_antisymm hone (List.length_pos_of_mem hmem))
  rw [he] at hmem ⊢
  rw [List.mem_singleton.mp hmem]

theorem Inv.answer_unique (h : Inv token d) {t : ℕ} {r r' : R} (hr : (t, r) ∈ d.sent)
    (hr' : (t, r') ∈ d.sent) : r = r' := by
  have hsingle := (h.answers_singleton hr).symm.trans (h.answers_singleton hr')
  simpa using hsingle

theorem lookup_of_erase {k k' : K} {c : C} {pending : Table K C}
    (h : (pending.erase k).lookup k' = some c) : k' ≠ k ∧ pending.lookup k' = some c := by
  rw [Table.lookup_erase_eq] at h
  split at h
  · exact absurd h (by simp)
  · exact ⟨by assumption, h⟩

theorem settle_inv (h : Inv token d) (k : K) (answer : C → R) :
    Inv token (d.settle token k answer) := by
  rw [settle]
  rcases hk : d.pending.lookup k with _ | c
  · exact h
  have hopen := h.open_ hk
  have hans : ∀ t, ([(token c, answer c)].filter fun e => e.1 = t).length
      = if token c = t then 1 else 0 := by
    intro t
    by_cases ht : token c = t <;> simp [ht]
  refine ⟨fun {k' c'} hk' => h.owned (lookup_of_erase hk').2, fun {k' c'} hk' => ?_,
    fun {t k'} hlive => ?_, fun t => ?_, h.fresh_live, fun e he => ?_⟩
  · obtain ⟨hne, hk'⟩ := lookup_of_erase hk'
    rw [answers_append, hans, h.open_ hk', if_neg fun ht => hne (h.key_unique hk' hk ht.symm)]
  · rw [answers_append, hans]
    rcases h.served hlive with ⟨c', hc', rfl⟩ | hsent
    · by_cases hkk : k' = k
      · subst hkk
        obtain rfl := Option.some_inj.mp (hk.symm.trans hc')
        right
        rw [hopen, if_pos rfl]
      · left
        exact ⟨c', by rw [Table.lookup_erase_eq, if_neg hkk]; exact hc', rfl⟩
    · right
      rw [hsent, if_neg]
      intro ht
      rw [ht] at hopen
      omega
  · rw [answers_append, hans]
    split
    next ht =>
      rw [ht] at hopen
      omega
    next => exact h.once t
  · rcases List.mem_append.mp he with he | he
    · exact h.fresh_sent e he
    · rw [List.mem_singleton.mp he]
      exact h.fresh_live (h.owned hk)

/-- No two entries have one token. -/
theorem nodup_tokens (h : Inv token d) : (d.pending.values.map token).Nodup := by
  rw [Table.values, List.map_map]
  refine d.pending.nodupKeys.nodup.map_on ?_
  rintro ⟨k, c⟩ he ⟨k', c'⟩ he' ht
  have h1 := Table.lookup_of_mem_entries he
  have h2 := Table.lookup_of_mem_entries he'
  obtain rfl : k = k' := h.key_unique h1 h2 ht
  obtain rfl : c = c' := Option.some_inj.mp (h1.symm.trans h2)
  rfl

/-- `settleAll` answers each token of the table once. -/
theorem answers_values (h : Inv token d) (answer : C → R) (t : ℕ) :
    ((d.pending.values.map fun c => (token c, answer c)).filter fun e => e.1 = t).length
      = if t ∈ d.pending.values.map token then 1 else 0 := by
  rw [← (nodup_tokens h).count, List.count, List.countP_map, List.filter_map, List.length_map,
    List.countP_eq_length_filter]
  congr 2

theorem mem_tokens {t : ℕ} :
    t ∈ d.pending.values.map token ↔ ∃ k c, d.pending.lookup k = some c ∧ token c = t := by
  simp only [List.mem_map, Table.mem_values_iff]
  constructor
  · rintro ⟨c, ⟨k, hk⟩, ht⟩
    exact ⟨k, c, hk, ht⟩
  · rintro ⟨k, c, hk, ht⟩
    exact ⟨c, ⟨k, hk⟩, ht⟩

theorem settleAll_inv (h : Inv token d) (answer : C → R) :
    Inv token (d.settleAll token answer) := by
  refine ⟨fun hk => absurd hk (by simp [settleAll]), fun hk => absurd hk (by simp [settleAll]),
    fun {t k} hlive => ?_, fun t => ?_, h.fresh_live, fun e he => ?_⟩
  · right
    rw [settleAll, answers_append, answers_values h]
    rcases h.served hlive with ⟨c, hc, rfl⟩ | hsent
    · rw [h.open_ hc, if_pos (mem_tokens.mpr ⟨k, c, hc, rfl⟩)]
    · rw [hsent, if_neg]
      intro hmem
      obtain ⟨k', c, hc, rfl⟩ := mem_tokens.mp hmem
      have := h.open_ hc
      omega
  · rw [settleAll, answers_append, answers_values h]
    split
    next hmem =>
      obtain ⟨k, c, hc, rfl⟩ := mem_tokens.mp hmem
      rw [h.open_ hc]
    next => exact h.once t
  · rcases List.mem_append.mp he with he | he
    · exact h.fresh_sent e he
    · obtain ⟨c, hc, rfl⟩ := List.mem_map.mp he
      obtain ⟨k, hk⟩ := Table.mem_values_iff.mp hc
      exact h.fresh_live (h.owned hk)

theorem register_inv (h : Inv token d) {k : K} {c : C} (free : d.pending.lookup k = none)
    (fresh : d.next ≤ token c) : Inv token (d.register token k c) := by
  have hne : ∀ {k' c'}, d.pending.lookup k' = some c' → token c' ≠ token c := by
    intro k' c' hk' ht
    have := h.fresh_live (h.owned hk')
    omega
  refine ⟨fun {k' c'} hk' => ?_, fun {k' c'} hk' => ?_, fun {t k'} hlive => ?_, h.once,
    fun {t k'} hlive => ?_, fun e he => ?_⟩
  · simp only [register, Table.lookup_insert_eq] at hk' ⊢
    split at hk'
    next hkk =>
      subst hkk
      obtain rfl := Option.some_inj.mp hk'
      rw [if_pos rfl]
    next =>
      rw [if_neg (hne hk')]
      exact h.owned hk'
  · simp only [register, Table.lookup_insert_eq] at hk'
    split at hk'
    next =>
      obtain rfl := Option.some_inj.mp hk'
      exact answers_eq_zero_of_fresh h.fresh_sent fresh
    next => exact h.open_ hk'
  · simp only [register, Table.lookup_insert_eq] at hlive ⊢
    split at hlive
    next ht =>
      subst ht
      obtain rfl := Option.some_inj.mp hlive
      exact Or.inl ⟨c, by rw [if_pos rfl], rfl⟩
    next =>
      rcases h.served hlive with ⟨c', hc', ht⟩ | hsent
      · refine Or.inl ⟨c', ?_, ht⟩
        rw [if_neg]
        · exact hc'
        · rintro rfl
          exact absurd (free.symm.trans hc') (by simp)
      · exact Or.inr hsent
  · simp only [register, Table.lookup_insert_eq] at hlive ⊢
    split at hlive
    next ht => omega
    next =>
      have := h.fresh_live hlive
      omega
  · have := h.fresh_sent e he
    simp only [register]
    omega

/-- What a release leaves of the table: everything but the entry of `t`. -/
theorem lookup_without (h : Inv token d) (t : ℕ) (k : K) :
    (d.without token t).lookup k = (d.pending.lookup k).filter fun c => token c ≠ t := by
  have hkeep : d.live.lookup t ≠ some k →
      d.pending.lookup k = (d.pending.lookup k).filter fun c => token c ≠ t := by
    intro hlive
    rcases hc : d.pending.lookup k with _ | c
    · rfl
    · have ht : token c ≠ t := fun ht => hlive (ht ▸ h.owned hc)
      simp [Option.filter_some, ht]
  rw [without]
  rcases hlive : d.live.lookup t with _ | k'
  · exact hkeep (by simp [hlive])
  · by_cases hkk : k = k'
    · subst hkk
      rcases hk : d.pending.lookup k with _ | c
      · simp [hk]
      · by_cases ht : token c = t <;> simp [Option.filter_some, ht, hk]
    · have hkeep := hkeep (by simp [hlive, Ne.symm hkk])
      rcases hk' : d.pending.lookup k' with _ | c'
      · simpa only [hk'] using hkeep
      · simp only [hk']
        split
        · rw [Table.lookup_erase_eq, if_neg hkk]
          exact hkeep
        · exact hkeep

theorem release_inv (h : Inv token d) (t : ℕ) : Inv token (d.release token t) := by
  have hpend : ∀ {k c}, (d.without token t).lookup k = some c →
      d.pending.lookup k = some c ∧ token c ≠ t := by
    intro k c hk
    rw [lookup_without h, Option.filter_eq_some_iff] at hk
    simpa using hk
  have hlook : ∀ {t' k}, (d.live.erase t).lookup t' = some k →
      t' ≠ t ∧ d.live.lookup t' = some k := fun hk => lookup_of_erase hk
  refine ⟨fun {k c} hk => ?_, fun hk => h.open_ (hpend hk).1, fun {t' k} hk => ?_, h.once,
    fun hk => h.fresh_live (hlook hk).2, h.fresh_sent⟩
  · obtain ⟨hk, hne⟩ := hpend hk
    rw [release, Table.lookup_erase_eq, if_neg hne]
    exact h.owned hk
  · obtain ⟨hne, hk⟩ := hlook hk
    refine (h.served hk).imp ?_ id
    rintro ⟨c, hc, rfl⟩
    refine ⟨c, ?_, rfl⟩
    rw [release, lookup_without h, hc]
    simp [Option.filter_some, hne]

theorem step_inv {d' : Desk K C R} (h : Inv token d) (hs : Step token d d') : Inv token d' := by
  cases hs with
  | skip n hn =>
    exact ⟨h.owned, h.open_, h.served, h.once, fun hl => lt_of_lt_of_le (h.fresh_live hl) hn,
      fun e he => lt_of_lt_of_le (h.fresh_sent e he) hn⟩
  | settle k answer => exact settle_inv h k answer
  | settleAll answer => exact settleAll_inv h answer
  | register k c free fresh => exact register_inv h free fresh
  | release t => exact release_inv h t

/-- Any sequence of steps. -/
def Steps (token : C → ℕ) : Desk K C R → Desk K C R → Prop := Relation.ReflTransGen (Step token)

theorem steps_inv {d' : Desk K C R} (h : Inv token d) (hs : Steps token d d') : Inv token d' := by
  induction hs with
  | refl => exact h
  | tail _ hstep ih => exact step_inv ih hstep

end Desk
