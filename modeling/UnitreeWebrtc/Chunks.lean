/-
Chunk assembly (`datachannel/core/chunks.rs`).

Partial transfers are kept per request key, each with its schema, its chunk
count, its chunks by index, the bytes it retains and a deadline set when its
first chunk arrives.  A chunk that completes its transfer takes it out of the
store; one that cannot be admitted discards it.

* `insert_cases` — everything an insertion can do, said once;
* `ChunkAssembler.Valid` — the representation invariant, kept by every
  operation (`step_valid`) and so by every run (`run_valid`);
* `run_deadline` — a stored deadline dates from the insertion that opened the
  transfer and has not moved since;
* `Transfer.intoValues_eq` — a complete transfer gives its chunks back in
  index order.
-/
import UnitreeWebrtc.Table
import UnitreeWebrtc.Runs
import UnitreeWebrtc.Ingress

namespace Unitree

def maxChunks : ℕ := 4096
def maxTransferBytes : ℕ := 16 * 1024 * 1024
def maxTransfers : ℕ := 64
def maxRetainedBytes : ℕ := 64 * 1024 * 1024

/-- `TRANSFER_TTL`, with instants counted in nanoseconds. -/
def transferTtl : ℕ := 30 * 1000000000

structure Transfer where
  schema : String
  total : ℕ
  chunks : Table ℕ (List UInt8)
  bytes : ℕ
  deadline : ℕ

namespace Transfer

/-- The transfer `or_insert_with` creates for a first chunk. -/
def start (schema : String) (total now : ℕ) : Transfer :=
  { schema, total, chunks := ∅, bytes := 0, deadline := now + transferTtl }

def store (t : Transfer) (index : ℕ) (bytes : List UInt8) : Transfer :=
  { t with bytes := t.bytes + bytes.length, chunks := t.chunks.insert index bytes }

/-- `chunks.into_values()`: a `BTreeMap` yields its values in key order. -/
def intoValues (t : Transfer) : List (List UInt8) :=
  (t.chunks.keys.insertionSort (· ≤ ·)).filterMap fun i => t.chunks.lookup i

end Transfer

structure ChunkAssembler where
  transfers : Table String Transfer

namespace ChunkAssembler

/-- `ChunkAssembler::default()`. -/
def empty : ChunkAssembler := ⟨∅⟩

def remove (a : ChunkAssembler) (key : String) : ChunkAssembler := ⟨a.transfers.erase key⟩

def clear (_ : ChunkAssembler) : ChunkAssembler := ⟨∅⟩

/-- The keys whose deadline has passed. -/
def expired (a : ChunkAssembler) (now : ℕ) : List String :=
  (a.transfers.entries.filter fun e => e.2.deadline ≤ now).map fun e => e.1

def expire (a : ChunkAssembler) (now : ℕ) : List String × ChunkAssembler :=
  (a.expired now, ⟨a.transfers.eraseAll (a.expired now)⟩)

/-- The bytes of all transfers together, recomputed at every insertion. -/
def retained (a : ChunkAssembler) : ℕ := Table.weight Transfer.bytes a.transfers

/-- What the checks of `insert_checked` say of an admissible chunk. -/
inductive Admission where
  | duplicate
  | fresh
deriving DecidableEq

/-- The aggregate budget, checked last for a chunk of either kind of transfer. -/
def checkRetained (a : ChunkAssembler) (bytes : List UInt8) : PortResult Admission :=
  if bytes.length > maxRetainedBytes - a.retained then
    .error "Chunk assembly exceeds retained byte budget"
  else .ok .fresh

/-- The checks of `insert_checked`, in the source's order. -/
def check (a : ChunkAssembler) (key schema : String) (index total : ℕ) (bytes : List UInt8)
    (now : ℕ) : PortResult Admission :=
  if total = 0 ∨ total > maxChunks ∨ index = 0 ∨ index > total then
    .error "Invalid chunk count or index"
  else
    match a.transfers.lookup key with
    | some transfer =>
      if transfer.deadline ≤ now then .error "Chunk assembly deadline expired"
      else if transfer.schema ≠ schema then .error "Inconsistent chunk schema"
      else if transfer.total ≠ total then .error "Inconsistent chunk count"
      else
        match transfer.chunks.lookup index with
        | some previous =>
          if previous = bytes then .ok .duplicate else .error "Conflicting duplicate chunk"
        | none =>
          if bytes.length > maxTransferBytes - transfer.bytes then
            .error "Chunk transfer exceeds byte budget"
          else a.checkRetained bytes
    | none =>
      if a.transfers.size ≥ maxTransfers ∨ bytes.length > maxTransferBytes then
        .error "Chunk transfer exceeds resource budget"
      else a.checkRetained bytes

/-- The transfer a chunk goes to: the stored one, or a new one. -/
def entry (a : ChunkAssembler) (key schema : String) (total now : ℕ) : Transfer :=
  (a.transfers.lookup key).getD (Transfer.start schema total now)

def insertChecked (a : ChunkAssembler) (key schema : String) (index total : ℕ)
    (bytes : List UInt8) (now : ℕ) : PortResult (Option (List UInt8)) × ChunkAssembler :=
  match a.check key schema index total bytes now with
  | .error e => (.error e, a)
  | .ok .duplicate => (.ok none, a)
  | .ok .fresh =>
    let transfer := (a.entry key schema total now).store index bytes
    if transfer.chunks.size ≠ total then
      (.ok none, ⟨a.transfers.insert key transfer⟩)
    else (.ok (some transfer.intoValues.flatten), ⟨a.transfers.erase key⟩)

def insert (a : ChunkAssembler) (key schema : String) (index total : ℕ) (bytes : List UInt8)
    (now : ℕ) : PortResult (Option (List UInt8)) × ChunkAssembler :=
  match a.insertChecked key schema index total bytes now with
  | (.error e, a') => (.error e, a'.remove key)
  | (.ok r, a') => (.ok r, a')

/-! ### What an insertion can do -/

/-- A chunk that passed every check and is not stored yet. -/
structure Fits (a : ChunkAssembler) (key schema : String) (index total : ℕ)
    (bytes : List UInt8) (now : ℕ) : Prop where
  total_pos : 0 < total
  total_le : total ≤ maxChunks
  index_pos : 0 < index
  index_le : index ≤ total
  same_schema : (a.entry key schema total now).schema = schema
  same_total : (a.entry key schema total now).total = total
  not_stored : (a.entry key schema total now).chunks.lookup index = none
  alive : ∀ t, a.transfers.lookup key = some t → now < t.deadline
  room : a.transfers.lookup key = none → a.transfers.size < maxTransfers
  transfer_bytes : bytes.length ≤ maxTransferBytes - (a.entry key schema total now).bytes
  retained_bytes : bytes.length ≤ maxRetainedBytes - a.retained

/-- A chunk that is stored already, byte for byte, in a transfer still alive. -/
def Repeats (a : ChunkAssembler) (key schema : String) (index total : ℕ) (bytes : List UInt8)
    (now : ℕ) : Prop :=
  ∃ t, a.transfers.lookup key = some t ∧ t.schema = schema ∧ t.total = total ∧
    t.chunks.lookup index = some bytes ∧ now < t.deadline

private theorem checkRetained_fresh {a : ChunkAssembler} {bytes : List UInt8}
    (h : a.checkRetained bytes = .ok .fresh) : bytes.length ≤ maxRetainedBytes - a.retained := by
  rw [checkRetained] at h
  split at h
  · exact absurd h (by simp)
  · omega

private theorem checkRetained_ne_duplicate (a : ChunkAssembler) (bytes : List UInt8) :
    a.checkRetained bytes ≠ .ok .duplicate := by
  rw [checkRetained]
  split <;> simp

theorem check_fresh {a : ChunkAssembler} {key schema : String} {index total : ℕ}
    {bytes : List UInt8} {now : ℕ} (h : a.check key schema index total bytes now = .ok .fresh) :
    a.Fits key schema index total bytes now := by
  rw [check] at h
  split at h
  · exact absurd h (by simp)
  rename_i hb
  -- The checks follow the source: the bounds, then those of a new or of a known transfer.
  rcases ht : a.transfers.lookup key with _ | t
  · have he : a.entry key schema total now = Transfer.start schema total now := by
      rw [entry, ht]; rfl
    simp only [ht] at h
    split at h
    · exact absurd h (by simp)
    rename_i hroom
    have hret := checkRetained_fresh h
    refine ⟨by omega, by omega, by omega, by omega, ?_, ?_, ?_, ?_, ?_, ?_, hret⟩
    · rw [he]; rfl
    · rw [he]; rfl
    · rw [he]; exact AList.lookup_empty index
    · intro t' ht'
      rw [ht] at ht'
      exact absurd ht' (by simp)
    · intro _; omega
    · rw [he]; change bytes.length ≤ maxTransferBytes - 0; omega
  · have he : a.entry key schema total now = t := by rw [entry, ht]; rfl
    simp only [ht] at h
    split at h
    · exact absurd h (by simp)
    split at h
    · exact absurd h (by simp)
    split at h
    · exact absurd h (by simp)
    rename_i hd hs hn
    split at h
    · split at h <;> exact absurd h (by simp)
    rename_i hstored
    split at h
    · exact absurd h (by simp)
    rename_i hbytes
    have hret := checkRetained_fresh h
    refine ⟨by omega, by omega, by omega, by omega, ?_, ?_, ?_, ?_, ?_, ?_, hret⟩
    · rw [he]; exact not_not.mp hs
    · rw [he]; exact not_not.mp hn
    · rw [he]; exact hstored
    · intro t' ht'
      rw [ht, Option.some_inj] at ht'
      subst ht'
      omega
    · intro hnone
      rw [ht] at hnone
      exact absurd hnone (by simp)
    · rw [he]; omega

theorem check_duplicate {a : ChunkAssembler} {key schema : String} {index total : ℕ}
    {bytes : List UInt8} {now : ℕ}
    (h : a.check key schema index total bytes now = .ok .duplicate) :
    a.Repeats key schema index total bytes now := by
  rw [check] at h
  split at h
  · exact absurd h (by simp)
  rcases ht : a.transfers.lookup key with _ | t
  · simp only [ht] at h
    split at h
    · exact absurd h (by simp)
    · exact absurd h (checkRetained_ne_duplicate a bytes)
  · simp only [ht] at h
    split at h
    · exact absurd h (by simp)
    split at h
    · exact absurd h (by simp)
    split at h
    · exact absurd h (by simp)
    rename_i hd hs hn
    split at h
    · rename_i previous hprev
      split at h
      · rename_i heq
        exact ⟨t, ht, not_not.mp hs, not_not.mp hn, by rw [hprev, heq], by omega⟩
      · exact absurd h (by simp)
    · split at h
      · exact absurd h (by simp)
      · exact absurd h (checkRetained_ne_duplicate a bytes)

/-- The four outcomes of an insertion: refused and discarded, repeated,
stored, or completed and taken out. -/
theorem insert_cases (a : ChunkAssembler) (key schema : String) (index total : ℕ)
    (bytes : List UInt8) (now : ℕ) :
    (∃ e, a.insert key schema index total bytes now = (.error e, a.remove key)) ∨
    (a.Repeats key schema index total bytes now ∧
      a.insert key schema index total bytes now = (.ok none, a)) ∨
    (a.Fits key schema index total bytes now ∧
      ((a.entry key schema total now).store index bytes).chunks.size ≠ total ∧
      a.insert key schema index total bytes now =
        (.ok none, ⟨a.transfers.insert key ((a.entry key schema total now).store index bytes)⟩)) ∨
    (a.Fits key schema index total bytes now ∧
      ((a.entry key schema total now).store index bytes).chunks.size = total ∧
      a.insert key schema index total bytes now =
        (.ok (some ((a.entry key schema total now).store index bytes).intoValues.flatten),
          a.remove key)) := by
  rcases hc : a.check key schema index total bytes now with e | ad
  · exact .inl ⟨e, by rw [insert, insertChecked, hc]⟩
  · cases ad with
    | duplicate => exact .inr (.inl ⟨check_duplicate hc, by rw [insert, insertChecked, hc]⟩)
    | fresh =>
      by_cases hs : ((a.entry key schema total now).store index bytes).chunks.size = total
      · refine .inr (.inr (.inr ⟨check_fresh hc, hs, ?_⟩))
        rw [insert, insertChecked, hc]
        simp only [hs, ne_eq, not_true_eq_false, if_false]
        rfl
      · refine .inr (.inr (.inl ⟨check_fresh hc, hs, ?_⟩))
        rw [insert, insertChecked, hc]
        simp only [hs, ne_eq, not_false_eq_true, if_true]

/-- A chunk that fits is admitted. -/
theorem check_of_fits {a : ChunkAssembler} {key schema : String} {index total : ℕ}
    {bytes : List UInt8} {now : ℕ} (h : a.Fits key schema index total bytes now) :
    a.check key schema index total bytes now = .ok .fresh := by
  have hret : a.checkRetained bytes = .ok .fresh := by
    rw [checkRetained, if_neg (not_lt.mpr h.retained_bytes)]
  have hb : ¬ (total = 0 ∨ total > maxChunks ∨ index = 0 ∨ index > total) := by
    have := h.total_pos
    have := h.total_le
    have := h.index_pos
    have := h.index_le
    omega
  rw [check, if_neg hb]
  rcases ht : a.transfers.lookup key with _ | t
  · have he : a.entry key schema total now = Transfer.start schema total now := by
      rw [entry, ht]; rfl
    have hbytes : bytes.length ≤ maxTransferBytes - 0 := by
      have := h.transfer_bytes
      rw [he] at this
      exact this
    simp only
    rw [if_neg, hret]
    have := h.room ht
    omega
  · have he : a.entry key schema total now = t := by rw [entry, ht]; rfl
    have hs := h.same_schema
    have hn := h.same_total
    have hstored := h.not_stored
    have hbytes := h.transfer_bytes
    have hd := h.alive t ht
    rw [he] at hs hn hstored hbytes
    simp only [hstored]
    rw [if_neg (by omega), if_neg (not_not.mpr hs), if_neg (not_not.mpr hn),
      if_neg (not_lt.mpr hbytes), hret]

/-- And stored, or the transfer is complete and taken out. -/
theorem insert_of_fits {a : ChunkAssembler} {key schema : String} {index total : ℕ}
    {bytes : List UInt8} {now : ℕ} (h : a.Fits key schema index total bytes now) :
    a.insert key schema index total bytes now =
      if ((a.entry key schema total now).store index bytes).chunks.size = total then
        (.ok (some ((a.entry key schema total now).store index bytes).intoValues.flatten),
          a.remove key)
      else
        (.ok none,
          ⟨a.transfers.insert key ((a.entry key schema total now).store index bytes)⟩) := by
  rw [insert, insertChecked, check_of_fits h]
  by_cases hs : ((a.entry key schema total now).store index bytes).chunks.size = total
  · rw [if_pos hs]
    simp only [hs, ne_eq, not_true_eq_false, if_false]
    rfl
  · rw [if_neg hs]
    simp only [hs, ne_eq, not_false_eq_true, if_true]

/-! ### The representation invariant -/

end ChunkAssembler

/-- A stored transfer: some chunk is there and some chunk is missing, the
indices are in range and the byte count is the sum of the chunks. -/
structure Transfer.Valid (t : Transfer) : Prop where
  some_chunk : 1 ≤ t.chunks.size
  incomplete : t.chunks.size < t.total
  total_le : t.total ≤ maxChunks
  indices : ∀ i bytes, t.chunks.lookup i = some bytes → 1 ≤ i ∧ i ≤ t.total
  bytes_eq : t.bytes = Table.weight List.length t.chunks
  bytes_le : t.bytes ≤ maxTransferBytes

namespace ChunkAssembler

structure Valid (a : ChunkAssembler) : Prop where
  transfers_le : a.transfers.size ≤ maxTransfers
  transfer : ∀ key t, a.transfers.lookup key = some t → t.Valid
  retained_le : a.retained ≤ maxRetainedBytes

theorem empty_valid : empty.Valid where
  transfers_le := Nat.zero_le _
  transfer := fun key t h => absurd h (by simp [empty])
  retained_le := Nat.zero_le _

theorem remove_valid {a : ChunkAssembler} (h : a.Valid) (key : String) : (a.remove key).Valid where
  transfers_le := le_trans (Table.size_erase_le _ _) h.transfers_le
  transfer := by
    intro key' t ht
    rw [remove, Table.lookup_erase_eq] at ht
    split at ht
    · exact absurd ht (by simp)
    · exact h.transfer key' t ht
  retained_le := le_trans (Table.weight_erase_le _ _ _) h.retained_le

theorem expire_valid {a : ChunkAssembler} (h : a.Valid) (now : ℕ) : (a.expire now).2.Valid where
  transfers_le := le_trans (Table.size_eraseAll_le _ _) h.transfers_le
  transfer := by
    intro key' t ht
    rw [expire, Table.lookup_eraseAll] at ht
    split at ht
    · exact absurd ht (by simp)
    · exact h.transfer key' t ht
  retained_le := le_trans (Table.weight_eraseAll_le _ _ _) h.retained_le

section Store

variable {a : ChunkAssembler} {key schema : String} {index total : ℕ} {bytes : List UInt8}
  {now : ℕ}

/-- The transfer a chunk goes to accounts for its chunks, also when it is new. -/
theorem entry_bytes (h : a.Valid) :
    (a.entry key schema total now).bytes =
      Table.weight List.length (a.entry key schema total now).chunks := by
  rw [entry]
  rcases ht : a.transfers.lookup key with _ | t
  · rfl
  · exact (h.transfer key t ht).bytes_eq

theorem entry_bytes_le (h : a.Valid) :
    (a.entry key schema total now).bytes ≤ maxTransferBytes := by
  rw [entry]
  rcases ht : a.transfers.lookup key with _ | t
  · exact Nat.zero_le _
  · exact (h.transfer key t ht).bytes_le

theorem entry_size_lt (h : a.Valid) (hfit : a.Fits key schema index total bytes now) :
    (a.entry key schema total now).chunks.size < total := by
  have htotal := hfit.same_total
  rw [entry] at htotal ⊢
  rcases ht : a.transfers.lookup key with _ | t
  · exact hfit.total_pos
  · rw [ht] at htotal
    rw [Option.getD_some] at htotal ⊢
    rw [← htotal]
    exact (h.transfer key t ht).incomplete

theorem entry_indices (h : a.Valid) (hfit : a.Fits key schema index total bytes now)
    {i : ℕ} {b : List UInt8} (hi : (a.entry key schema total now).chunks.lookup i = some b) :
    1 ≤ i ∧ i ≤ total := by
  have htotal := hfit.same_total
  rw [entry] at htotal hi
  rcases ht : a.transfers.lookup key with _ | t
  · rw [ht] at hi
    exact absurd hi (by simp [Transfer.start])
  · rw [ht] at htotal hi
    rw [Option.getD_some] at htotal hi
    rw [← htotal]
    exact (h.transfer key t ht).indices i b hi

theorem store_valid (h : a.Valid) (hfit : a.Fits key schema index total bytes now)
    (hsize : ((a.entry key schema total now).store index bytes).chunks.size ≠ total) :
    ((a.entry key schema total now).store index bytes).Valid := by
  have hsize' : ((a.entry key schema total now).store index bytes).chunks.size
      = (a.entry key schema total now).chunks.size + 1 :=
    Table.size_insert_of_lookup_none _ hfit.not_stored
  have hlt := entry_size_lt h hfit
  have htotal : ((a.entry key schema total now).store index bytes).total = total :=
    hfit.same_total
  refine ⟨by omega, by omega, by rw [htotal]; exact hfit.total_le, ?_, ?_, ?_⟩
  · intro i b hi
    rw [htotal]
    rw [Transfer.store, Table.lookup_insert_eq] at hi
    split at hi
    · rename_i hidx
      rw [hidx]
      exact ⟨hfit.index_pos, hfit.index_le⟩
    · exact entry_indices h hfit hi
  · have hw := Table.weight_insert List.length (a.entry key schema total now).chunks index bytes
    rw [Table.erase_of_lookup_none hfit.not_stored, ← entry_bytes h] at hw
    rw [Transfer.store, hw, Nat.add_comm]
  · have := hfit.transfer_bytes
    have : (a.entry key schema total now).bytes ≤ maxTransferBytes := entry_bytes_le h
    change (a.entry key schema total now).bytes + bytes.length ≤ maxTransferBytes
    omega

/-- Storing a chunk adds its length to what the assembler retains. -/
theorem retained_store :
    retained ⟨a.transfers.insert key ((a.entry key schema total now).store index bytes)⟩
      = a.retained + bytes.length := by
  have hw := Table.weight_insert Transfer.bytes a.transfers key
    ((a.entry key schema total now).store index bytes)
  rw [retained, retained, hw]
  change (a.entry key schema total now).bytes + bytes.length + _ = _
  rw [entry]
  rcases ht : a.transfers.lookup key with _ | t
  · rw [Table.erase_of_lookup_none ht]
    change 0 + bytes.length + _ = _
    omega
  · have := Table.weight_erase (f := Transfer.bytes) ht
    rw [Option.getD_some]
    omega

theorem size_store_le (h : a.Valid) (hfit : a.Fits key schema index total bytes now) :
    Table.size (a.transfers.insert key ((a.entry key schema total now).store index bytes))
      ≤ maxTransfers := by
  rcases ht : a.transfers.lookup key with _ | t
  · rw [Table.size_insert_of_lookup_none _ ht]
    exact hfit.room ht
  · rw [Table.size_insert_of_lookup_some _ ht]
    exact h.transfers_le

end Store

/-- Every outcome of an insertion keeps the invariant. -/
theorem insert_valid {a : ChunkAssembler} (h : a.Valid) (key schema : String)
    (index total : ℕ) (bytes : List UInt8) (now : ℕ) :
    (a.insert key schema index total bytes now).2.Valid := by
  rcases insert_cases a key schema index total bytes now with
    ⟨e, he⟩ | ⟨-, he⟩ | ⟨hfit, hsize, he⟩ | ⟨-, -, he⟩
  · rw [he]; exact remove_valid h key
  · rw [he]; exact h
  · rw [he]
    refine ⟨size_store_le h hfit, ?_, ?_⟩
    · intro key' t ht
      rw [Table.lookup_insert_eq] at ht
      split at ht
      · rw [← Option.some_inj.mp ht]
        exact store_valid h hfit hsize
      · exact h.transfer key' t ht
    · rw [retained_store]
      have := hfit.retained_bytes
      have := h.retained_le
      omega
  · rw [he]; exact remove_valid h key

/-! ### Runs of the assembler -/

/-- The operations of the assembler. -/
inductive Op where
  | insert (key schema : String) (index total : ℕ) (bytes : List UInt8) (now : ℕ)
  | remove (key : String)
  | clear
  | expire (now : ℕ)

def step (a : ChunkAssembler) : Op → ChunkAssembler
  | .insert key schema index total bytes now => (a.insert key schema index total bytes now).2
  | .remove key => a.remove key
  | .clear => a.clear
  | .expire now => (a.expire now).2

theorem step_valid (a : ChunkAssembler) (op : Op) (h : a.Valid) : (a.step op).Valid := by
  cases op with
  | insert key schema index total bytes now => exact insert_valid h key schema index total bytes now
  | remove key => exact remove_valid h key
  | clear => exact empty_valid
  | expire now => exact expire_valid h now

theorem run_valid (ops : List Op) : (Runs.run step empty ops).Valid :=
  Runs.run_invariant step_valid ops empty_valid

/-! ### Frames of the operations -/

/-- An insertion under one key leaves the other keys alone. -/
theorem insert_frame (a : ChunkAssembler) {key key' : String} (schema : String)
    (index total : ℕ) (bytes : List UInt8) (now : ℕ) (hne : key' ≠ key) :
    (a.insert key schema index total bytes now).2.transfers.lookup key'
      = a.transfers.lookup key' := by
  rcases insert_cases a key schema index total bytes now with
    ⟨e, he⟩ | ⟨-, he⟩ | ⟨-, -, he⟩ | ⟨-, -, he⟩
  · rw [he]; exact AList.lookup_erase_ne hne
  · rw [he]
  · rw [he]; exact AList.lookup_insert_ne hne
  · rw [he]; exact AList.lookup_erase_ne hne

/-- A refused insertion discards the transfer of its key. -/
theorem insert_error_lookup {a : ChunkAssembler} {key schema : String} {index total : ℕ}
    {bytes : List UInt8} {now : ℕ} {e : String}
    (h : (a.insert key schema index total bytes now).1 = .error e) :
    (a.insert key schema index total bytes now).2.transfers.lookup key = none := by
  rcases insert_cases a key schema index total bytes now with
    ⟨e', he⟩ | ⟨-, he⟩ | ⟨-, -, he⟩ | ⟨-, -, he⟩
  · rw [he]; exact AList.lookup_erase key _
  all_goals rw [he] at h; exact absurd h (by simp)

/-- A chunk that is already stored changes nothing. -/
theorem insert_of_repeats {a : ChunkAssembler} {key schema : String} {index total : ℕ}
    {bytes : List UInt8} {now : ℕ} (hv : a.Valid)
    (h : a.Repeats key schema index total bytes now) :
    a.insert key schema index total bytes now = (.ok none, a) := by
  obtain ⟨t, ht, rfl, rfl, hi, hd⟩ := h
  have htv := hv.transfer key t ht
  have hidx := htv.indices index bytes hi
  have htot := htv.total_le
  have hc : a.check key t.schema index t.total bytes now = .ok .duplicate := by
    rw [check, if_neg (by omega), ht]
    simp only [hi]
    rw [if_neg (by omega), if_neg (not_not.mpr rfl), if_neg (not_not.mpr rfl)]
    simp
  rw [insert, insertChecked, hc]

/-- After the deadline, and before expiry has run, it is refused. -/
theorem insert_of_late {a : ChunkAssembler} {key : String} {index : ℕ} {bytes : List UInt8}
    {now : ℕ} {t : Transfer} (hv : a.Valid) (ht : a.transfers.lookup key = some t)
    (hi : t.chunks.lookup index = some bytes) (hd : t.deadline ≤ now) :
    a.insert key t.schema index t.total bytes now
      = (.error "Chunk assembly deadline expired", a.remove key) := by
  have htv := hv.transfer key t ht
  have hidx := htv.indices index bytes hi
  have htot := htv.total_le
  have hc : a.check key t.schema index t.total bytes now
      = .error "Chunk assembly deadline expired" := by
    rw [check, if_neg (by omega), ht]
    exact if_pos hd
  rw [insert, insertChecked, hc]

theorem mem_expired {a : ChunkAssembler} {now : ℕ} {key : String} :
    key ∈ a.expired now ↔ ∃ t, a.transfers.lookup key = some t ∧ t.deadline ≤ now := by
  simp only [expired, List.mem_map, List.mem_filter, decide_eq_true_eq]
  constructor
  · rintro ⟨⟨k, t⟩, ⟨hmem, hd⟩, rfl⟩
    exact ⟨t, Table.lookup_of_mem_entries hmem, hd⟩
  · rintro ⟨t, ht, hd⟩
    exact ⟨⟨key, t⟩, ⟨Table.mem_entries_of_lookup ht, hd⟩, rfl⟩

/-- Expiry takes out exactly the transfers whose deadline has passed. -/
theorem lookup_expire (a : ChunkAssembler) (now : ℕ) (key : String) :
    (a.expire now).2.transfers.lookup key =
      (a.transfers.lookup key).filter fun t => now < t.deadline := by
  rw [expire, Table.lookup_eraseAll]
  rcases ht : a.transfers.lookup key with _ | t
  · simp
  · by_cases hd : t.deadline ≤ now
    · rw [if_pos (mem_expired.mpr ⟨t, ht, hd⟩)]
      simp [Option.filter, not_lt.mpr hd]
    · have hn : key ∉ a.expired now := by
        rw [mem_expired]
        rintro ⟨t', ht', hd'⟩
        rw [ht, Option.some_inj] at ht'
        subst ht'
        exact hd hd'
      rw [if_neg hn]
      simp [Option.filter, lt_of_not_ge hd]

/-! ### Deadlines -/

/-- Only an insertion brings a transfer into being, with its own deadline. -/
theorem step_opens {a : ChunkAssembler} {op : Op} {key : String} {t : Transfer}
    (hnone : a.transfers.lookup key = none) (hsome : (a.step op).transfers.lookup key = some t) :
    ∃ schema index total bytes now, op = .insert key schema index total bytes now ∧
      t.deadline = now + transferTtl := by
  cases op with
  | insert key' schema index total bytes now =>
    by_cases hk : key = key'
    · subst hk
      refine ⟨schema, index, total, bytes, now, rfl, ?_⟩
      rw [step] at hsome
      rcases insert_cases a key schema index total bytes now with
        ⟨e, he⟩ | ⟨-, he⟩ | ⟨-, -, he⟩ | ⟨-, -, he⟩
      · rw [he, remove, AList.lookup_erase] at hsome
        exact absurd hsome (by simp)
      · rw [he, hnone] at hsome
        exact absurd hsome (by simp)
      · rw [he, AList.lookup_insert, Option.some_inj] at hsome
        rw [← hsome, entry, hnone]
        rfl
      · rw [he, remove, AList.lookup_erase] at hsome
        exact absurd hsome (by simp)
    · rw [step, insert_frame a schema index total bytes now hk, hnone] at hsome
      exact absurd hsome (by simp)
  | remove key' =>
    rw [step, remove, Table.lookup_erase_eq, hnone] at hsome
    simp at hsome
  | clear => exact absurd hsome (by simp [step, clear])
  | expire now =>
    rw [step, lookup_expire, hnone] at hsome
    exact absurd hsome (by simp)

/-- No operation moves a deadline. -/
theorem step_deadline {a : ChunkAssembler} {op : Op} {key : String} {t t' : Transfer}
    (ht : a.transfers.lookup key = some t) (ht' : (a.step op).transfers.lookup key = some t') :
    t'.deadline = t.deadline := by
  cases op with
  | insert key' schema index total bytes now =>
    by_cases hk : key = key'
    · subst hk
      rw [step] at ht'
      rcases insert_cases a key schema index total bytes now with
        ⟨e, he⟩ | ⟨-, he⟩ | ⟨-, -, he⟩ | ⟨-, -, he⟩
      · rw [he, remove, AList.lookup_erase] at ht'
        exact absurd ht' (by simp)
      · rw [he, ht, Option.some_inj] at ht'
        rw [ht']
      · rw [he, AList.lookup_insert, Option.some_inj] at ht'
        rw [← ht', entry, ht]
        rfl
      · rw [he, remove, AList.lookup_erase] at ht'
        exact absurd ht' (by simp)
    · rw [step, insert_frame a schema index total bytes now hk, ht, Option.some_inj] at ht'
      rw [ht']
  | remove key' =>
    rw [step, remove, Table.lookup_erase_eq, ht] at ht'
    split at ht'
    · exact absurd ht' (by simp)
    · rw [Option.some_inj.mp ht']
  | clear => exact absurd ht' (by simp [step, clear])
  | expire now =>
    rw [step, lookup_expire, ht, Option.filter_some] at ht'
    split at ht'
    · rw [Option.some_inj.mp ht']
    · exact absurd ht' (by simp)

/-- The transfer that `ops` leave under `key` was opened by an insertion at
`now`: there was none before it, and since then there has always been one, with
that insertion's deadline. -/
def OpenedAt (ops : List Op) (key : String) (now : ℕ) : Prop :=
  ∃ pre schema index total bytes post,
    ops = pre ++ .insert key schema index total bytes now :: post ∧
    (Runs.run step empty pre).transfers.lookup key = none ∧
    ∀ q, q <+: post →
      ∃ t, (Runs.run step empty (pre ++ .insert key schema index total bytes now :: q)
          ).transfers.lookup key = some t ∧ t.deadline = now + transferTtl

/-- A stored deadline is that of the insertion that opened the transfer. -/
theorem run_deadline (ops : List Op) : ∀ {key : String} {t : Transfer},
    (Runs.run step empty ops).transfers.lookup key = some t →
      ∃ now, OpenedAt ops key now ∧ t.deadline = now + transferTtl := by
  induction ops using List.reverseRecOn with
  | nil =>
    intro key t h
    exact absurd h (by simp [empty])
  | append_singleton ops op ih =>
    intro key t h
    rw [Runs.run_concat] at h
    rcases hb : (Runs.run step empty ops).transfers.lookup key with _ | t₀
    · -- the last operation opened the transfer
      obtain ⟨schema, index, total, bytes, now, rfl, hd⟩ := step_opens hb h
      refine ⟨now, ⟨ops, schema, index, total, bytes, [], rfl, hb, fun q hq => ?_⟩, hd⟩
      rw [List.prefix_nil.mp hq, Runs.run_concat]
      exact ⟨t, h, hd⟩
    · -- it was open already, and the last operation kept its deadline
      obtain ⟨now, ⟨pre, schema, index, total, bytes, post, rfl, hpre, hpost⟩, hd⟩ := ih hb
      have hd' : t.deadline = now + transferTtl := by rw [step_deadline hb h, hd]
      refine ⟨now, ⟨pre, schema, index, total, bytes, post ++ [op], by simp, hpre,
        fun q hq => ?_⟩, hd'⟩
      rcases List.prefix_concat_iff.mp hq with rfl | hq'
      · refine ⟨t, ?_, hd'⟩
        rw [show pre ++ Op.insert key schema index total bytes now :: (post ++ [op])
          = (pre ++ Op.insert key schema index total bytes now :: post) ++ [op] by simp,
          Runs.run_concat]
        exact h
      · exact hpost q hq'

theorem expired_nodup (a : ChunkAssembler) (now : ℕ) : (a.expired now).Nodup :=
  (List.Sublist.map _ List.filter_sublist).nodup a.transfers.keys_nodup

/-- **The assembler's representation**, after any sequence of operations: the
budgets hold, a deadline is fixed by the chunk that opened the transfer, a
refused chunk costs only its own key's transfer, a repeated chunk of a live
transfer changes nothing, one that comes too late is refused and takes the transfer
with it, and expiry takes exactly what is due. -/
theorem assembler_representation (ops : List Op) :
    let a := Runs.run step empty ops
    a.Valid ∧
    (∀ key t, a.transfers.lookup key = some t →
      ∃ now, OpenedAt ops key now ∧ t.deadline = now + transferTtl) ∧
    (∀ key schema index total bytes now e,
      (a.insert key schema index total bytes now).1 = .error e →
        (a.insert key schema index total bytes now).2.transfers.lookup key = none ∧
        ∀ key', key' ≠ key →
          (a.insert key schema index total bytes now).2.transfers.lookup key'
            = a.transfers.lookup key') ∧
    (∀ key index bytes now t, a.transfers.lookup key = some t →
      t.chunks.lookup index = some bytes → now < t.deadline →
        a.insert key t.schema index t.total bytes now = (.ok none, a)) ∧
    (∀ key index bytes now t, a.transfers.lookup key = some t →
      t.chunks.lookup index = some bytes → t.deadline ≤ now →
        (a.insert key t.schema index t.total bytes now).1
            = .error "Chunk assembly deadline expired" ∧
          (a.insert key t.schema index t.total bytes now).2.transfers.lookup key = none) ∧
    (∀ now, (a.expire now).1.Nodup ∧
      (∀ key, key ∈ (a.expire now).1 ↔
        ∃ t, a.transfers.lookup key = some t ∧ t.deadline ≤ now) ∧
      ∀ key, (a.expire now).2.transfers.lookup key =
        (a.transfers.lookup key).filter fun t => now < t.deadline) := by
  intro a
  refine ⟨run_valid ops, fun key t h => run_deadline ops h, ?_, ?_, ?_, ?_⟩
  · intro key schema index total bytes now e he
    exact ⟨insert_error_lookup he,
      fun key' hne => insert_frame a schema index total bytes now hne⟩
  · intro key index bytes now t ht hi hd
    exact insert_of_repeats (run_valid ops) ⟨t, ht, rfl, rfl, hi, hd⟩
  · intro key index bytes now t ht hi hd
    have hlate := congrArg Prod.fst (insert_of_late (run_valid ops) ht hi hd)
    exact ⟨hlate, insert_error_lookup hlate⟩
  · intro now
    exact ⟨expired_nodup a now, fun key => mem_expired, lookup_expire a now⟩

/-- The budgets say something: a stored transfer, its deadline, and a
repetition that changes nothing. -/
theorem assembler_representation_stored :
    let a := Runs.run step empty [.insert "k" "/data/data" 1 2 [7] 5]
    (∃ t, a.transfers.lookup "k" = some t ∧ t.deadline = 5 + transferTtl) ∧
      a.insert "k" "/data/data" 1 2 [7] 6 = (.ok none, a) := by
  have h := assembler_representation [.insert "k" "/data/data" 1 2 [7] 5]
  exact ⟨⟨_, rfl, rfl⟩, h.2.2.2.1 "k" 1 [7] 6 _ rfl rfl (by decide)⟩

/-- A chunk repeated byte for byte once its transfer's deadline has passed, and
before expiry has run, is refused, and takes the transfer with it. -/
theorem late_repetition_refused :
    let a := Runs.run step empty [.insert "k" "/data/data" 1 2 [7] 0]
    (∃ t, a.transfers.lookup "k" = some t ∧ t.schema = "/data/data" ∧ t.total = 2 ∧
      t.chunks.lookup 1 = some [7]) ∧
    (a.insert "k" "/data/data" 1 2 [7] transferTtl).1
      = .error "Chunk assembly deadline expired" ∧
    ¬ (a.insert "k" "/data/data" 1 2 [7] transferTtl = (.ok none, a)) := by
  have he : ((Runs.run step empty [.insert "k" "/data/data" 1 2 [7] 0]).insert
      "k" "/data/data" 1 2 [7] transferTtl).1 = .error "Chunk assembly deadline expired" := rfl
  refine ⟨⟨_, rfl, rfl, rfl, rfl⟩, he, fun h => ?_⟩
  rw [h] at he
  exact absurd he (by simp)

end ChunkAssembler

/-! ### Complete transfers -/

/-- A transfer that holds all of `1..n` gives its chunks back in index order. -/
theorem Transfer.intoValues_eq {t : Transfer} {n : ℕ} {piece : ℕ → List UInt8}
    (hsize : t.chunks.size = n)
    (hmem : ∀ i b, t.chunks.lookup i = some b → 1 ≤ i ∧ i ≤ n ∧ b = piece i) :
    t.intoValues = (List.range' 1 n).map piece := by
  have hsub : t.chunks.keys ⊆ List.range' 1 n := by
    intro i hi
    obtain ⟨b, hb⟩ := Table.mem_keys_iff.mp hi
    obtain ⟨h1, h2, -⟩ := hmem i b hb
    rw [List.mem_range'_1]
    omega
  have hperm : t.chunks.keys.Perm (List.range' 1 n) := by
    refine (List.subperm_of_subset t.chunks.keys_nodup hsub).perm_of_length_le ?_
    rw [List.length_range', ← hsize, Table.size]
  have hsorted : t.chunks.keys.insertionSort (· ≤ ·) = List.range' 1 n :=
    ((List.perm_insertionSort _ _).trans hperm).eq_of_sortedLE
      List.sortedLE_insertionSort (List.sortedLE_range' 1 n 1)
  rw [Transfer.intoValues, hsorted, ← List.filterMap_eq_map]
  refine List.filterMap_congr fun i hi => ?_
  obtain ⟨b, hb⟩ := Table.mem_keys_iff.mp (hperm.mem_iff.mpr hi)
  rw [hb, (hmem i b hb).2.2]
  rfl

end Unitree
