/-
Chunk reassembly, from the wire to the waiting call.

A response that is too long for one message comes in chunks: JSON texts of two
schemas, or binary frames whose header has the chunk's place and whose body is
the chunk.  Whatever the order of the chunks, with repetitions and with the
traffic of other keys in between, the call is answered once, by the last chunk's
message with the whole payload put in.

* `ChunkMessage.routed` — a text or frame that carries a chunk is routed as one;
* `Upload.Progress` — the runs in question, with the indices that arrived;
* `Upload.progress_holds` — what they leave in the store: the chunks of exactly
  those indices;
* `Sys.chunk_reassembly` — the answer.
-/
import UnitreeWebrtc.Provenance

namespace Unitree

open Service

/-! ### Bytes in a message -/

theorem byteOf_ofByte (b : UInt8) : byteOf (.number (.ofByte b)) = some b := by
  rw [byteOf, Value.asU64, Number.asU64_ofByte, Option.bind_some, if_pos b.toNat_lt]
  simp

/-- Bytes come back from the array they are written as. -/
theorem valueToChunkBytes_bytes {bytes : List UInt8} (h : bytes.length ≤ maxTransferBytes) :
    valueToChunkBytes (bytesToJsonArray bytes) = some bytes := by
  have hmap : ∀ bytes : List UInt8,
      (bytes.map fun byte => Value.number (.ofByte byte)).mapM byteOf = some bytes := by
    intro bytes
    induction bytes with
    | nil => rfl
    | cons b rest ih =>
      rw [List.map_cons, List.mapM_cons, byteOf_ofByte, ih]
      rfl
  rw [bytesToJsonArray, valueToChunkBytes, if_neg (by rw [List.length_map]; omega), hmap]

/-! ### Frames as messages -/

theorem get_injectBinaryData_ne {header : Value} {k : String} (hk : k ≠ "data")
    (bytes : List UInt8) : (injectBinaryData header bytes).get k = header.get k := by
  cases header with
  | object es =>
    show List.lookup k (Entries.insert "data" _ es) = List.lookup k es
    rw [Entries.lookup_insert, if_neg hk]
  | _ => rfl

/-- The `data` object of a header with the bytes put in. -/
theorem get_injectBinaryData_data {es : Entries} (bytes : List UInt8) :
    (injectBinaryData (.object es) bytes).get "data" = some (.object (Entries.insert "data"
      (bytesToJsonArray bytes)
        (((Value.object es).get "data").bind Value.asObject |>.getD []))) := by
  show List.lookup "data" (Entries.insert "data" _ es) = _
  rw [Entries.lookup_insert, if_pos rfl]
  rcases ((Value.object es).get "data").bind Value.asObject with _ | data <;> rfl

theorem extractKey_of_no_entries {v : Value}
    (h : ∀ k, k ≠ "data" → v.get k = none) : extractKey v = none := by
  have hn : ∀ k ks, k ≠ "data" → nestedScalarToString v (k :: ks) = none := by
    intro k ks hk
    rw [nestedScalarToString, Value.pointer_cons, h k hk]
    rfl
  simp only [extractKey, hn _ _ (show "uuid" ≠ "data" by decide),
    hn _ _ (show "header" ≠ "data" by decide), hn _ _ (show "req_uuid" ≠ "data" by decide),
    hn _ _ (show "type" ≠ "data" by decide), hn _ _ (show "topic" ≠ "data" by decide)]
  rfl

/-- Putting the bytes in does not change the key. -/
theorem incomingKey_injectBinaryData {header : Value} (hobj : header.asObject.isSome)
    (bytes : List UInt8) : incomingKey (injectBinaryData header bytes) = incomingKey header := by
  cases header with
  | object es =>
    have hdata : ((injectBinaryData (.object es) bytes).get "data").bind extractKey
        = ((Value.object es).get "data").bind extractKey := by
      rw [get_injectBinaryData_data, Option.bind_some]
      rcases hd : (Value.object es).get "data" with _ | d
      · -- no data: only the bytes are there now
        refine extractKey_of_no_entries fun k hk => ?_
        rw [Value.get_object, Entries.lookup_insert, if_neg hk]
        rfl
      · rw [Option.bind_some, Option.bind_some]
        cases d with
        | object ds =>
          refine extractKey_congr fun k hk => ?_
          rw [Value.get_object, Entries.lookup_insert, if_neg hk]
          rfl
        | _ =>
          -- a scalar or array had no key, and the bytes alone have none
          rw [extractKey_of_no_entries (v := Value.object _), extractKey_of_no_entries]
          · exact fun k hk => rfl
          · intro k hk
            rw [Value.get_object, Entries.lookup_insert, if_neg hk]
            rfl
    have hne : ∀ k, k ≠ "data" → (injectBinaryData (.object es) bytes).get k
        = (Value.object es).get k := fun k hk => get_injectBinaryData_ne hk bytes
    simp only [incomingKey, hdata, strOf_congr (hne "type" (by decide)),
      strOf_congr (hne "topic" (by decide)), nestedString_congr (hne "info" (by decide))]
  | _ => exact absurd hobj (by simp [Value.asObject])

/-! ### Chunks -/

/-- The value is a chunk of `key`: number `i` of `n`, with these bytes. -/
structure IsChunk (key : String) (n : ℕ) (schema : ChunkSchema) (i : ℕ) (piece : List UInt8)
    (v : Value) : Prop where
  typed : (v.get "type").isSome
  key_eq : incomingKey v = key
  view : ∃ c, chunkView v = some c ∧ c.schema = schema ∧ c.parse = .ok (i, n, piece)

/-- The two ways a chunk comes: as a text of either schema, or as a normal frame
whose header says which chunk its body is. -/
inductive ChunkMessage (p : Platform) (key : String) (n : ℕ) :
    ChunkSchema → ℕ → List UInt8 → DcMessage → Value → Prop
  | text {schema : ChunkSchema} {i : ℕ} {piece : List UInt8} {text : String} {v : Value}
      (hparse : parseJson p.serde (asBytes text) = .ok v)
      (hchunk : IsChunk key n schema i piece v) :
      ChunkMessage p key n schema i piece (.text text) v
  | frame {i : ℕ} {piece buffer : List UInt8} {header info : Value}
      (hlength : buffer.length ≤ maxBinaryBytes)
      (hparse : Framing.parse p.serde buffer = .ok (.normal, header, piece))
      (hplain : lidarIntent .normal (topicOrType header) (header.get "data") = false)
      (hfree : throttleLimit (topicOrType header) = none)
      (htyped : (header.get "type").isSome) (hkey : incomingKey header = key)
      (hinfo : header.pointer ["data", "content_info"] = some info)
      (henabled : enablesChunking info = true)
      (hindex : (info.get "chunk_index").bind Value.asU64 = some i)
      (hcount : (info.get "total_chunk_num").bind Value.asU64 = some n) :
      ChunkMessage p key n .content i piece (.binary buffer) (injectBinaryData header piece)

/-- A frame's body is the payload of the message it is routed as. -/
theorem injectBinaryData_isChunk {header info : Value} {key : String} {n i : ℕ}
    {piece : List UInt8} (hlength : piece.length ≤ maxTransferBytes)
    (htyped : (header.get "type").isSome) (hkey : incomingKey header = key)
    (hinfo : header.pointer ["data", "content_info"] = some info)
    (henabled : enablesChunking info = true)
    (hindex : (info.get "chunk_index").bind Value.asU64 = some i)
    (hcount : (info.get "total_chunk_num").bind Value.asU64 = some n) :
    IsChunk key n .content i piece (injectBinaryData header piece) := by
  -- the metadata is inside an object inside an object
  simp only [Value.pointer_cons, Value.pointer_nil, Option.bind_eq_some_iff,
    Option.some_inj] at hinfo
  obtain ⟨d, hd, info', hinfo, rfl⟩ := hinfo
  obtain ⟨es, rfl⟩ : ∃ es, header = .object es := by
    cases header with
    | object es => exact ⟨es, rfl⟩
    | _ => exact absurd hd (by simp [Value.get])
  obtain ⟨ds, rfl⟩ : ∃ ds, d = .object ds := by
    cases d with
    | object ds => exact ⟨ds, rfl⟩
    | _ => exact absurd hinfo (by simp [Value.get])
  have hdata : (injectBinaryData (.object es) piece).get "data"
      = some (.object (Entries.insert "data" (bytesToJsonArray piece) ds)) := by
    rw [get_injectBinaryData_data, hd]
    rfl
  have hinfo' : (injectBinaryData (.object es) piece).pointer ["data", "content_info"]
      = some info' := by
    rw [Value.pointer_cons, hdata, Option.bind_some, Value.pointer_cons, Value.get_object,
      Entries.lookup_insert, if_neg (by decide)]
    rw [Value.get_object] at hinfo
    rw [hinfo]
    rfl
  have hpayload : (injectBinaryData (.object es) piece).pointer ["data", "data"]
      = some (bytesToJsonArray piece) := by
    rw [Value.pointer_cons, hdata, Option.bind_some, Value.pointer_cons, Value.get_object,
      Entries.lookup_insert, if_pos rfl]
    rfl
  refine ⟨?_, ?_, ⟨info', some (bytesToJsonArray piece), .content⟩, ?_, rfl, ?_⟩
  · rw [get_injectBinaryData_ne (by decide)]
    exact htyped
  · rw [incomingKey_injectBinaryData rfl]
    exact hkey
  · rw [chunkView, contentView, hinfo', Option.bind_some, if_pos henabled, hpayload]
    rfl
  · simp only [ChunkView.parse, hindex, hcount, Option.bind_some, valueToChunkBytes_bytes hlength]

/-- Either way the chunk is routed as such. -/
theorem ChunkMessage.routed {p : Platform} {key : String} {n i : ℕ} {schema : ChunkSchema}
    {piece : List UInt8} {payload : DcMessage} {v : Value}
    (h : ChunkMessage p key n schema i piece payload v)
    (hlength : piece.length ≤ maxBinaryExpansionBytes) (env : Env) (s : Service) :
    routedValue p env s payload = some v ∧ IsChunk key n schema i piece v := by
  cases h with
  | text hparse hchunk =>
    refine ⟨?_, hchunk⟩
    rw [routedValue, hparse]
  | frame hbuffer hparse hplain hfree htyped hkey hinfo henabled hindex hcount =>
    constructor
    · rw [routedValue, dealArrayBuffer, if_neg (not_lt.mpr hbuffer), hparse]
      show (s.processBinaryPayload p env .normal _ piece).1 = _
      rw [processBinaryPayload_plain hplain hlength hfree]
    · exact injectBinaryData_isChunk (le_trans hlength (by decide)) htyped hkey hinfo henabled
        hindex hcount

/-! ### Uploads -/

/-- A payload cut into consecutive pieces, to be sent under a key. -/
structure Upload where
  key : String
  schema : ChunkSchema
  pieces : List (List UInt8)
  nonempty : 1 ≤ pieces.length
  count_le : pieces.length ≤ maxChunks
  bytes_le : pieces.flatten.length ≤ maxBinaryExpansionBytes

namespace Upload

variable (u : Upload)

def count : ℕ := u.pieces.length

def payload : List UInt8 := u.pieces.flatten

/-- The piece of the one-based index `i`. -/
def piece (i : ℕ) : List UInt8 := u.pieces.getD (i - 1) []

theorem map_piece : (List.range' 1 u.count).map u.piece = u.pieces := by
  refine List.ext_getElem (by simp [count]) fun k h₁ h₂ => ?_
  simp [piece, List.getElem_range', h₂]

theorem sum_piece : ∑ i ∈ Finset.Icc 1 u.count, (u.piece i).length = u.payload.length := by
  have hlist : ∑ i ∈ Finset.Icc 1 u.count, (u.piece i).length
      = ((List.range' 1 u.count).map fun i => (u.piece i).length).sum := by
    rw [Nat.Icc_eq_range']
    rfl
  rw [hlist, payload, List.length_flatten, ← u.map_piece, List.map_map]
  rfl

/-- Some pieces are no longer than the payload. -/
theorem sum_piece_le {arrived : Finset ℕ} (h : arrived ⊆ Finset.Icc 1 u.count) :
    ∑ i ∈ arrived, (u.piece i).length ≤ maxBinaryExpansionBytes :=
  calc ∑ i ∈ arrived, (u.piece i).length
      ≤ ∑ i ∈ Finset.Icc 1 u.count, (u.piece i).length := Finset.sum_le_sum_of_subset h
    _ = u.payload.length := u.sum_piece
    _ ≤ maxBinaryExpansionBytes := u.bytes_le

theorem length_piece_le {i : ℕ} (h : i ∈ Finset.Icc 1 u.count) :
    (u.piece i).length ≤ maxBinaryExpansionBytes := by
  have hone := u.sum_piece_le (Finset.singleton_subset_iff.mpr h)
  rwa [Finset.sum_singleton] at hone

/-! ### The transfer of an upload -/

/-- A transfer with the pieces of the indices that arrived, since `start`. -/
structure Has (start : ℕ) (arrived : Finset ℕ) (t : Transfer) : Prop where
  schema_eq : t.schema = u.schema.path
  total_eq : t.total = u.count
  deadline_ge : start + transferTtl ≤ t.deadline
  size_eq : t.chunks.size = arrived.card
  bytes_eq : t.bytes = ∑ i ∈ arrived, (u.piece i).length
  chunks_iff : ∀ i b, t.chunks.lookup i = some b ↔ i ∈ arrived ∧ b = u.piece i

/-- What is stored under the upload's key. -/
def Holds (start : ℕ) (arrived : Finset ℕ) : Option Transfer → Prop
  | none => arrived = ∅
  | some t => u.Has start arrived t

variable {u} {start now i : ℕ} {arrived : Finset ℕ} {a : ChunkAssembler} {t : Transfer}

theorem Holds.entry (h : u.Holds start arrived (a.transfers.lookup u.key)) (hnow : start ≤ now) :
    u.Has start arrived (a.entry u.key u.schema.path u.count now) := by
  rw [ChunkAssembler.entry]
  rcases ht : a.transfers.lookup u.key with _ | t
  · rw [ht] at h
    obtain rfl : arrived = ∅ := h
    refine ⟨rfl, rfl, Nat.add_le_add_right hnow _, rfl, rfl, fun i b => ?_⟩
    simp [Transfer.start]
  · rw [ht] at h
    exact h

theorem Has.store (h : u.Has start arrived t) (hi : i ∉ arrived) :
    u.Has start (insert i arrived) (t.store i (u.piece i)) := by
  have hnone : t.chunks.lookup i = none := by
    rcases hl : t.chunks.lookup i with _ | b
    · rfl
    · exact absurd ((h.chunks_iff i b).mp hl).1 hi
  refine ⟨h.schema_eq, h.total_eq, h.deadline_ge, ?_, ?_, fun j b => ?_⟩
  · rw [Finset.card_insert_of_notMem hi, ← h.size_eq]
    exact Table.size_insert_of_lookup_none _ hnone
  · rw [Finset.sum_insert hi, ← h.bytes_eq]
    exact Nat.add_comm _ _
  · rw [Transfer.store, Table.lookup_insert_eq, Finset.mem_insert]
    by_cases hj : j = i
    · subst hj
      rw [if_pos rfl, Option.some_inj]
      constructor
      · intro hb
        exact ⟨Or.inl rfl, hb.symm⟩
      · rintro ⟨-, rfl⟩
        rfl
    · rw [if_neg hj, h.chunks_iff]
      simp [hj]

/-- A piece that is new fits, as long as the budgets have room for it. -/
theorem Holds.fits (h : u.Holds start arrived (a.transfers.lookup u.key))
    (hsub : arrived ⊆ Finset.Icc 1 u.count) (hi : i ∈ Finset.Icc 1 u.count) (hnew : i ∉ arrived)
    (hstart : start ≤ now) (htime : now < start + transferTtl)
    (hslot : a.transfers.lookup u.key = none → a.transfers.size < maxTransfers)
    (hroom : (u.piece i).length ≤ maxRetainedBytes - a.retained) :
    a.Fits u.key u.schema.path i u.count (u.piece i) now := by
  have he := h.entry hstart
  obtain ⟨hi₁, hi₂⟩ := Finset.mem_Icc.mp hi
  refine ⟨lt_of_lt_of_le hi₁ hi₂, u.count_le, hi₁, hi₂, he.schema_eq, he.total_eq, ?_, ?_, hslot,
    ?_, hroom⟩
  · rcases hl : (a.entry u.key u.schema.path u.count now).chunks.lookup i with _ | b
    · rfl
    · exact absurd ((he.chunks_iff i b).mp hl).1 hnew
  · intro t ht
    rw [ht] at h
    exact lt_of_lt_of_le htime (Has.deadline_ge h)
  · have h₁ := u.sum_piece_le hsub
    have h₂ := u.length_piece_le hi
    rw [he.bytes_eq]
    simp only [maxBinaryExpansionBytes, maxTransferBytes] at h₁ h₂ ⊢
    omega

/-- A piece that arrived before repeats a stored chunk. -/
theorem Holds.repeats (h : u.Holds start arrived (a.transfers.lookup u.key)) (hi : i ∈ arrived)
    (htime : now < start + transferTtl) :
    a.Repeats u.key u.schema.path i u.count (u.piece i) now := by
  rcases ht : a.transfers.lookup u.key with _ | t
  · rw [ht] at h
    obtain rfl : arrived = ∅ := h
    exact absurd hi (by simp)
  · rw [ht] at h
    have h : u.Has start arrived t := h
    exact ⟨t, ht, h.schema_eq, h.total_eq, (h.chunks_iff i _).mpr ⟨hi, rfl⟩,
      lt_of_lt_of_le htime h.deadline_ge⟩

/-- With all indices there, the values of a transfer are the payload. -/
theorem Has.payload_eq (h : u.Has start (Finset.Icc 1 u.count) t) :
    t.intoValues.flatten = u.payload := by
  have hsize : t.chunks.size = u.count := by
    rw [h.size_eq, Nat.card_Icc]
    omega
  have hmem : ∀ i b, t.chunks.lookup i = some b → 1 ≤ i ∧ i ≤ u.count ∧ b = u.piece i := by
    intro i b hb
    obtain ⟨hi, hb⟩ := (h.chunks_iff i b).mp hb
    exact ⟨(Finset.mem_Icc.mp hi).1, (Finset.mem_Icc.mp hi).2, hb⟩
  rw [Transfer.intoValues_eq hsize hmem, u.map_piece, payload]

end Upload

/-! ### A chunk in the service -/

namespace Service

/-- A chunk is fed to the assembler, and its verdict settled. -/
theorem runResolve_chunk {env : Env} {s : Service} {v : Value} {key : String} {n i : ℕ}
    {schema : ChunkSchema} {piece : List UInt8} (h : IsChunk key n schema i piece v) :
    s.runResolve env v = settleChunk
      { s with chunkDataStorage :=
          (s.chunkDataStorage.insert key schema.path i n piece env.now).2 }
      v schema (s.chunkDataStorage.insert key schema.path i n piece env.now).1 := by
  obtain ⟨htyped, rfl, c, hc, rfl, hparse⟩ := h
  have htype : ¬ (v.get "type").isNone := by
    rw [Option.isNone_iff_eq_none]
    intro hnone
    rw [hnone] at htyped
    exact absurd htyped (by simp)
  rw [runResolve, if_neg htype, handleChunkedResponse, hc]
  simp only [Option.map_some, feedChunk, hparse]

theorem settle_lookup_ne (s : Service) {key key' : String} (hne : key ≠ key')
    (answer : PendingCallback → PortResult Value) :
    (s.settle key' answer).pendingCallbacks.lookup key = s.pendingCallbacks.lookup key := by
  rw [settle]
  split
  · rfl
  · show AList.lookup key (AList.erase key' s.pendingCallbacks) = _
    rw [Table.lookup_erase_eq, if_neg hne]

theorem settleChunk_lookup_ne (s : Service) {key : String} {message : Value}
    (hne : key ≠ incomingKey message) (schema : ChunkSchema)
    (result : PortResult (Option (List UInt8))) :
    (s.settleChunk message schema result).pendingCallbacks.lookup key
      = s.pendingCallbacks.lookup key := by
  rcases result with e | _ | bytes
  · exact settle_lookup_ne _ hne _
  · rfl
  · simp only [settleChunk]
    split
    · exact settle_lookup_ne s hne _
    · split
      · exact settle_lookup_ne s hne _
      · rfl

/-- The entry and the transfer of `key` are as before. -/
def Leaves (key : String) (s s' : Service) : Prop :=
  s'.pendingCallbacks.lookup key = s.pendingCallbacks.lookup key ∧
    s'.chunkDataStorage.transfers.lookup key = s.chunkDataStorage.transfers.lookup key

theorem Quiet.leaves {s s' : Service} (h : Quiet s s') (key : String) : Leaves key s s' :=
  ⟨by rw [h.pending], by rw [h.chunks]⟩

theorem Leaves.trans {key : String} {s₁ s₂ s₃ : Service} (h : Leaves key s₁ s₂)
    (h' : Leaves key s₂ s₃) : Leaves key s₁ s₃ :=
  ⟨h'.1.trans h.1, h'.2.trans h.2⟩

theorem runResolve_leaves (env : Env) (s : Service) {key : String} {message : Value}
    (hne : key ≠ incomingKey message) : Leaves key s (s.runResolve env message) := by
  constructor
  · rw [runResolve]
    split
    · rfl
    · rw [handleChunkedResponse]
      rcases chunkView message with _ | c
      · exact settle_lookup_ne s hne _
      · exact settleChunk_lookup_ne _ hne c.schema _
  · rw [chunks_runResolve, feed]
    split
    · rfl
    · rcases chunkView message with _ | c
      · rfl
      · simp only [Option.map_some, applyOp]
        split
        · rw [ChunkAssembler.step, ChunkAssembler.remove, Table.lookup_erase_eq, if_neg hne]
        · exact ChunkAssembler.insert_frame _ _ _ _ _ _ hne

theorem Refused.leaves {p : Platform} {payload : DcMessage} {s s' : Service} {key : String}
    (h : Refused p payload s s')
    (hne : ∀ message, document p payload = some message → key ≠ incomingKey message) :
    Leaves key s s' := by
  cases h with
  | ignored => exact ⟨rfl, rfl⟩
  | rejected message reason hdoc =>
    constructor
    · exact settle_lookup_ne _ (hne message hdoc) _
    · rw [rejectBinaryResponse, chunks_failPending, ChunkAssembler.remove, Table.lookup_erase_eq,
        if_neg (hne message hdoc)]
  | unsubmitted message reason hdoc =>
    constructor
    · exact settle_lookup_ne s (hne message hdoc) _
    · rw [chunks_failPending]

/-- What is routed has the key of its document. -/
theorem incomingKey_routedValue {p : Platform} {env : Env} {s : Service} {payload : DcMessage}
    {v : Value} (h : routedValue p env s payload = some v) :
    ∃ message, document p payload = some message ∧ incomingKey v = incomingKey message := by
  cases payload with
  | transportFault error => exact absurd h (by simp [routedValue])
  | text text =>
    rw [routedValue] at h
    split at h
    · exact absurd h (by simp)
    next parsed hparse =>
      refine ⟨v, ?_, rfl⟩
      rw [document, hparse]
      exact h
  | binary bytes =>
    rw [routedValue, dealArrayBuffer] at h
    split at h
    · exact absurd h (by simp)
    split at h
    · exact absurd h (by simp)
    next frame header body hparse =>
      refine ⟨header, by rw [document, hparse]; rfl, ?_⟩
      have hinject : v = injectBinaryData header body := by
        simp only [processBinaryPayload] at h
        split at h
        · exact absurd h (by simp)
        split at h
        · exact absurd h (by simp)
        split at h
        · exact absurd h (by simp)
        split at h
        · exact absurd h (by simp)
        · exact (Option.some_inj.mp h).symm
      rw [hinject, incomingKey_injectBinaryData (Framing.parse_object hparse)]

/-- A message of another key leaves this one alone. -/
theorem processIngress_leaves (p : Platform) (env : Env) (s : Service) {message : IngressMessage}
    {key : String} (hfault : ∀ error, message.payload ≠ .transportFault error)
    (hne : ∀ v, document p message.payload = some v → key ≠ incomingKey v) :
    Leaves key s (s.processIngress p env message) := by
  rw [processIngress]
  split
  · exact ⟨rfl, rfl⟩
  rcases handlePayload_cases p env s message.payload hfault with
    ⟨v, s₁, hv, hq, hq'⟩ | ⟨s₁, -, hq, hr⟩
  · obtain ⟨doc, hdoc, hkey⟩ := incomingKey_routedValue hv
    have hne' : key ≠ incomingKey v := by
      rw [hkey]
      exact hne doc hdoc
    exact ((hq.leaves key).trans (runResolve_leaves env s₁ hne')).trans (hq'.leaves key)
  · exact (hq.leaves key).trans (hr.leaves hne)

/-- Expiry of other transfers leaves this key alone. -/
theorem expireChunks_leaves (env : Env) (s : Service) {key : String}
    (halive : key ∉ s.chunkDataStorage.expired env.now) : Leaves key s (s.expireChunks env) := by
  have hfold : ∀ (keys : List String) (s : Service), key ∉ keys →
      (keys.foldl (fun s key => s.failPending key "Chunk assembly deadline expired") s
        ).pendingCallbacks.lookup key = s.pendingCallbacks.lookup key := by
    intro keys
    induction keys with
    | nil => intro s _; rfl
    | cons k rest ih =>
      intro s hmem
      rw [List.mem_cons, not_or] at hmem
      rw [List.foldl_cons, ih _ hmem.2]
      exact settle_lookup_ne s hmem.1 _
  constructor
  · exact hfold _ _ halive
  · rw [Sys.chunks_expireChunks]
    show AList.lookup key (s.chunkDataStorage.transfers.eraseAll _) = _
    rw [Table.lookup_eraseAll, if_neg halive]

end Service

/-! ### Runs -/

namespace Upload

/-- The message brings piece `i` as the value `v`, within thirty seconds of
`start`, and the budgets have room for it if it is not stored already. -/
structure Brings (u : Upload) (p : Platform) (start : ℕ) (y : Sys) (env : Env)
    (message : IngressMessage) (i : ℕ) (v : Value) : Prop where
  current : message.generation = y.service.sessionId
  index : i ∈ Finset.Icc 1 u.count
  chunk : ChunkMessage p u.key u.count u.schema i (u.piece i) message.payload v
  started : start ≤ env.now
  in_time : env.now < start + transferTtl
  slot : y.service.chunkDataStorage.transfers.lookup u.key = none →
    y.service.chunkDataStorage.transfers.size < maxTransfers
  room : y.service.chunkDataStorage.chunkAt u.key i = none →
    (u.piece i).length ≤ maxRetainedBytes - y.service.chunkDataStorage.retained

/-- A step that is none of the upload's: a message of another key, or an expiry
tick within the upload's thirty seconds. -/
inductive Foreign (u : Upload) (p : Platform) (start : ℕ) : Action → Prop
  | ingress (env : Env) (message : IngressMessage)
      (hfault : ∀ error, message.payload ≠ .transportFault error)
      (hkey : ∀ v, document p message.payload = some v → u.key ≠ incomingKey v) :
      Foreign u p start (.processIngress env message)
  | expiry (env : Env) (h : env.now < start + transferTtl) : Foreign u p start (.expireChunks env)

/-- The run `as` from `y₀` brings the pieces of these indices, in any order and
any number of times, among foreign steps. -/
inductive Progress (u : Upload) (p : Platform) (start : ℕ) (y₀ : Sys) :
    List Action → Finset ℕ → Prop
  | nothing : Progress u p start y₀ [] ∅
  | chunk {as : List Action} {arrived : Finset ℕ} {env : Env} {message : IngressMessage}
      {i : ℕ} {v : Value} (h : Progress u p start y₀ as arrived)
      (hb : u.Brings p start (Runs.run (Sys.step p) y₀ as) env message i v) :
      Progress u p start y₀ (as ++ [.processIngress env message]) (insert i arrived)
  | foreign {as : List Action} {arrived : Finset ℕ} {a : Action}
      (h : Progress u p start y₀ as arrived) (hf : u.Foreign p start a) :
      Progress u p start y₀ (as ++ [a]) arrived

variable {u : Upload} {p : Platform} {start : ℕ} {y y₀ : Sys} {arrived : Finset ℕ}
  {cb : PendingCallback}

theorem Progress.arrived_subset {as : List Action} (h : u.Progress p start y₀ as arrived) :
    arrived ⊆ Finset.Icc 1 u.count := by
  induction h with
  | nothing => exact Finset.empty_subset _
  | chunk h hb ih => exact Finset.insert_subset hb.index ih
  | foreign h hf ih => exact ih

/-- The call waits, and the store holds the pieces that arrived. -/
def Waits (u : Upload) (start : ℕ) (cb : PendingCallback) (arrived : Finset ℕ) (y : Sys) : Prop :=
  y.service.pendingCallbacks.lookup u.key = some cb ∧
    u.Holds start arrived (y.service.chunkDataStorage.transfers.lookup u.key)

/-- A message that brings a piece, between quiet steps. -/
theorem Brings.step_eq {env : Env} {message : IngressMessage} {i : ℕ} {v : Value}
    (hb : u.Brings p start y env message i v) :
    IsChunk u.key u.count u.schema i (u.piece i) v ∧
      ∃ s₁, Quiet y.service s₁ ∧ Quiet (s₁.runResolve env v)
        (y.step p (.processIngress env message)).service := by
  obtain ⟨hrouted, hchunk⟩ := hb.chunk.routed (u.length_piece_le hb.index) env y.service
  have hfault : ∀ error, message.payload ≠ .transportFault error := by
    intro error he
    rw [he] at hrouted
    exact absurd hrouted (by simp [routedValue])
  refine ⟨hchunk, ?_⟩
  show ∃ s₁, Quiet y.service s₁ ∧
    Quiet (s₁.runResolve env v) (y.service.processIngress p env message)
  rw [processIngress, if_neg (not_not.mpr hb.current)]
  rcases handlePayload_cases p env y.service message.payload hfault with
    ⟨v', s₁, hv', hq, hq'⟩ | ⟨s₁, hnone, -, -⟩
  · obtain rfl : v = v' := Option.some_inj.mp (hrouted.symm.trans hv')
    exact ⟨s₁, hq, hq'⟩
  · rw [hrouted] at hnone
    exact absurd hnone (by simp)

/-- A piece that is new fits. -/
theorem Brings.fits {env : Env} {message : IngressMessage} {i : ℕ} {v : Value}
    (hb : u.Brings p start y env message i v)
    (hholds : u.Holds start arrived (y.service.chunkDataStorage.transfers.lookup u.key))
    (hsub : arrived ⊆ Finset.Icc 1 u.count) (hnew : i ∉ arrived) :
    y.service.chunkDataStorage.Fits u.key u.schema.path i u.count (u.piece i) env.now := by
  refine hholds.fits hsub hb.index hnew hb.started hb.in_time hb.slot (hb.room ?_)
  have hentry := (hholds.entry hb.started).chunks_iff i
  rw [← ChunkAssembler.entry_chunkAt _ u.key u.schema.path u.count env.now]
  rcases hl : (y.service.chunkDataStorage.entry u.key u.schema.path u.count env.now
      ).chunks.lookup i with _ | b
  · rfl
  · exact absurd ((hentry b).mp hl).1 hnew

/-- A piece that is not the last one leaves the call waiting. -/
theorem Brings.waits {env : Env} {message : IngressMessage} {i : ℕ} {v : Value}
    (hb : u.Brings p start y env message i v) (hvalid : y.service.chunkDataStorage.Valid)
    (hw : u.Waits start cb arrived y) (hsub : arrived ⊆ Finset.Icc 1 u.count)
    (hmissing : insert i arrived ≠ Finset.Icc 1 u.count) :
    u.Waits start cb (insert i arrived) (y.step p (.processIngress env message)) := by
  obtain ⟨hpending, hholds⟩ := hw
  obtain ⟨hchunk, s₁, hq, hq'⟩ := hb.step_eq
  rw [Waits, hq'.pending, hq'.chunks, runResolve_chunk hchunk, hq.chunks]
  by_cases hi : i ∈ arrived
  · -- a repetition changes nothing
    rw [ChunkAssembler.insert_of_repeats hvalid (hholds.repeats hi hb.in_time),
      Finset.insert_eq_of_mem hi]
    exact ⟨hq.pending ▸ hpending, hholds⟩
  · have hfits := hb.fits hholds hsub hi
    have hstored := (hholds.entry hb.started).store hi
    have hsize : ¬ ((y.service.chunkDataStorage.entry u.key u.schema.path u.count env.now).store i
        (u.piece i)).chunks.size = u.count := by
      rw [hstored.size_eq]
      intro hcard
      -- as many indices as there are, all in range, are all of them
      refine hmissing (Finset.eq_of_subset_of_card_le (Finset.insert_subset hb.index hsub) ?_)
      rw [hcard, Nat.card_Icc]
      omega
    rw [ChunkAssembler.insert_of_fits hfits, if_neg hsize]
    refine ⟨hq.pending ▸ hpending, ?_⟩
    simp only [settleChunk, AList.lookup_insert]
    exact hstored

theorem Foreign.waits {a : Action} (hf : u.Foreign p start a)
    (hw : u.Waits start cb arrived y) : u.Waits start cb arrived (y.step p a) := by
  obtain ⟨hpending, hholds⟩ := hw
  have hleaves : Leaves u.key y.service (y.step p a).service := by
    cases hf with
    | ingress env message hfault hkey => exact processIngress_leaves p env y.service hfault hkey
    | expiry env h =>
      refine expireChunks_leaves env y.service fun hmem => ?_
      obtain ⟨t, ht, hdead⟩ := ChunkAssembler.mem_expired.mp hmem
      rw [ht] at hholds
      exact absurd (lt_of_lt_of_le h (Has.deadline_ge hholds)) (not_lt.mpr hdead)
  rw [Waits, hleaves.1, hleaves.2]
  exact ⟨hpending, hholds⟩

/-- As long as a piece is missing the call waits. -/
theorem progress_waits {as : List Action} (h : u.Progress p start y₀ as arrived) {i : ℕ}
    (hi : i ∈ Finset.Icc 1 u.count) (hmissing : i ∉ arrived)
    (hvalid : y₀.service.chunkDataStorage.Valid) (hw : u.Waits start cb ∅ y₀) :
    u.Waits start cb arrived (Runs.run (Sys.step p) y₀ as) := by
  induction h with
  | nothing => exact hw
  | @chunk as arrived env message j v h hb ih =>
    rw [Runs.run_concat]
    have hvalid' := Runs.run_invariant (I := fun y : Sys => y.service.chunkDataStorage.Valid)
      (Sys.step_chunks_valid p) as hvalid
    refine hb.waits hvalid' (ih fun hmem => hmissing (Finset.mem_insert_of_mem hmem))
      h.arrived_subset ?_
    intro hall
    rw [hall] at hmissing
    exact hmissing hi
  | foreign h hf ih =>
    rw [Runs.run_concat]
    exact hf.waits (ih hmissing)

/-- The last missing piece: the call is sent its message with the payload put
in, and the transfer is gone. -/
theorem Brings.completes {env : Env} {message : IngressMessage} {i : ℕ} {v : Value}
    (hb : u.Brings p start y env message i v) (hw : u.Waits start cb arrived y)
    (hsub : arrived ⊆ Finset.Icc 1 u.count) (hnew : i ∉ arrived)
    (hall : insert i arrived = Finset.Icc 1 u.count) (hany : cb.expectation = .any)
    (hses : cb.sessionId = y.service.sessionId) :
    ∃ merged, Value.setPath u.schema.tokens (bytesToJsonArray u.payload) v = some merged ∧
      (cb.token, .ok merged) ∈ (y.step p (.processIngress env message)).service.completions ∧
      (y.step p (.processIngress env message)).service.chunkDataStorage.transfers.lookup u.key
        = none := by
  obtain ⟨hpending, hholds⟩ := hw
  obtain ⟨hchunk, s₁, hq, hq'⟩ := hb.step_eq
  have hfits := hb.fits hholds hsub hnew
  have hstored := (hholds.entry hb.started).store hnew
  rw [hall] at hstored
  have hsize : ((y.service.chunkDataStorage.entry u.key u.schema.path u.count env.now).store i
      (u.piece i)).chunks.size = u.count := by
    rw [hstored.size_eq, Nat.card_Icc]
    omega
  obtain ⟨merged, hmerged⟩ : ∃ merged,
      Value.setPath u.schema.tokens (bytesToJsonArray u.payload) v = some merged := by
    obtain ⟨-, -, c, hc, hschema, hparse⟩ := hchunk
    rw [← hschema]
    exact chunkView_setPath hc hparse _
  refine ⟨merged, hmerged, ?_⟩
  have hshort : ¬ u.payload.length > maxBinaryExpansionBytes := not_lt.mpr u.bytes_le
  rw [hq'.completions, hq'.chunks, runResolve_chunk hchunk, hq.chunks,
    ChunkAssembler.insert_of_fits hfits, if_pos hsize, hstored.payload_eq]
  simp only [settleChunk, if_neg hshort, hmerged, hchunk.key_eq]
  rw [chunks_resolvePendingResponse]
  refine ⟨?_, AList.lookup_erase _ _⟩
  have hresolution : resolution cb s₁.sessionId merged = .ok merged := by
    rw [resolution, if_neg (not_not.mpr (hses.trans hq.session.symm)), hany]
    rfl
  have hcb : s₁.pendingCallbacks.lookup u.key = some cb := hq.pending ▸ hpending
  simp only [resolvePendingResponse, settle, hcb, completions_emit_complete, hresolution]
  exact List.mem_append_right _ (List.mem_singleton_self _)

end Upload

namespace Sys

theorem run_completions_mono (p : Platform) (as : List Action) (y : Sys) :
    ∀ e ∈ y.service.completions, e ∈ (Runs.run (step p) y as).service.completions :=
  Runs.run_rel (R := fun y y' : Sys => ∀ e ∈ y.service.completions, e ∈ y'.service.completions)
    (fun _ _ he => he) (fun h h' e he => h' e (h e he))
    (fun y a => (step_stepped p y a).evolves.prior) as y

/-- **Reassembly.**  A call with no particular expectation waits under the key of
an upload, with no chunks stored there.  The pieces arrive in any order, with
repetitions and among foreign steps, within the budgets and the deadline.  Until
the last missing piece is processed the call is sent nothing.  Then it is sent,
now and ever after, exactly one answer: the message of that last piece with the
whole payload put in; and nothing is left in the store. -/
theorem chunk_reassembly (p : Platform) (sessionId requestSequence : ℕ) (before : List Action)
    (u : Upload) (cb : PendingCallback) (start : ℕ) (as : List Action) (arrived : Finset ℕ)
    (env : Env) (message : IngressMessage) (i : ℕ) (v : Value)
    (hpending : (Runs.run (step p) (init sessionId requestSequence) before
      ).service.pendingCallbacks.lookup u.key = some cb)
    (hany : cb.expectation = .any)
    (hclean : (Runs.run (step p) (init sessionId requestSequence) before
      ).service.chunkDataStorage.transfers.lookup u.key = none)
    (hprogress : u.Progress p start
      (Runs.run (step p) (init sessionId requestSequence) before) as arrived)
    (hlast : u.Brings p start
      (Runs.run (step p) (init sessionId requestSequence) (before ++ as)) env message i v)
    (hnew : i ∉ arrived) (hall : insert i arrived = Finset.Icc 1 u.count) :
    let y := Runs.run (step p) (init sessionId requestSequence) before
    (∀ q, q <+: as → ∀ r, (cb.token, r) ∉ (Runs.run (step p) y q).service.completions) ∧
    ∃ merged, Value.setPath u.schema.tokens (bytesToJsonArray u.payload) v = some merged ∧
      (Runs.run (step p) y (as ++ [.processIngress env message])
        ).service.chunkDataStorage.transfers.lookup u.key = none ∧
      ∀ rest, ((Runs.run (step p) y (as ++ .processIngress env message :: rest)
        ).service.completions.filter fun e => e.1 = cb.token) = [(cb.token, .ok merged)] := by
  intro y
  rw [Runs.run_append] at hlast
  have hinv : ∀ as, Inv (Runs.run (step p) y as) := fun as =>
    Runs.run_invariant (step_inv p) as (run_inv p sessionId requestSequence before)
  have hwaits : u.Waits start cb arrived (Runs.run (step p) y as) := by
    refine Upload.progress_waits hprogress hlast.index hnew
      (run_chunks_valid p sessionId requestSequence before) ⟨hpending, ?_⟩
    rw [hclean]
    rfl
  constructor
  · -- an entry that is still there has not been answered
    rintro q ⟨q', rfl⟩ r hr
    have hzero := (hinv _).desk.open_ hwaits.1
    rw [Desk.answers, List.length_eq_zero_iff, List.filter_eq_nil_iff] at hzero
    rw [Runs.run_append] at hzero
    exact hzero _ (run_completions_mono p q' _ _ hr) (by simp)
  · obtain ⟨merged, hmerged, hsent, hgone⟩ := hlast.completes hwaits hprogress.arrived_subset hnew
      hall hany ((hinv as).session hwaits.1)
    refine ⟨merged, hmerged, ?_, fun rest => ?_⟩
    · rw [Runs.run_concat]
      exact hgone
    · refine (hinv _).desk.answers_singleton ?_
      show _ ∈ (Runs.run (step p) y (as ++ .processIngress env message :: rest)).service.completions
      rw [Runs.run_append, Runs.run_cons]
      exact run_completions_mono p rest _ _ hsent

/-- Chunk `index` of two of the response with UUID `k`, as text and as tree. -/
def halfText (index : UInt8) (payload : String) : String :=
  "\x7b\"type\":\"res\",\"data\":\x7b\"uuid\":\"k\",\"content_info\":\x7b\"enable_chunking\":true,"
    ++ "\"chunk_index\":" ++ toString index ++ ",\"total_chunk_num\":2\x7d,\"data\":\"" ++ payload
    ++ "\"\x7d\x7d"

def halfTree (index : UInt8) (payload : String) : Syntax :=
  .object [("type", .string "res"), ("data", .object [("uuid", .string "k"),
    ("content_info", .object [("enable_chunking", .bool true),
      ("chunk_index", .number (.ofByte index)), ("total_chunk_num", .number (.ofByte 2))]),
    ("data", .string payload)])]

/-- A request with UUID `k`. -/
def askAgain : Action :=
  .publish (fun _ => true) (.at 0) "t" (some (.object [("uuid", .string "k")])) none none

/-- The header of a frame with the first of two chunks of `k`. -/
def headText : String :=
  "\x7b\"type\":\"res\",\"data\":\x7b\"uuid\":\"k\",\"content_info\":\x7b\"enable_chunking\":true,"
    ++ "\"chunk_index\":1,\"total_chunk_num\":2\x7d\x7d\x7d"

def headTree : Syntax :=
  .object [("type", .string "res"), ("data", .object [("uuid", .string "k"),
    ("content_info", .object [("enable_chunking", .bool true),
      ("chunk_index", .number (.ofByte 1)), ("total_chunk_num", .number (.ofByte 2))])])]

/-- What the header, and the text with the second chunk, are read as. -/
def chunkInfo (index : UInt8) : Value :=
  .object [("chunk_index", .number (.ofByte index)), ("enable_chunking", .bool true),
    ("total_chunk_num", .number (.ofByte 2))]

def headValue : Value :=
  .object [("data", .object [("content_info", chunkInfo 1), ("uuid", .string "k")]),
    ("type", .string "res")]

def secondValue : Value :=
  .object [("data", .object [("content_info", chunkInfo 2), ("data", .string "B"),
    ("uuid", .string "k")]), ("type", .string "res")]

def twoPlatform : Platform :=
  .reading [(headText, headTree), (halfText 2 "B", halfTree 2 "B")]

/-- Two bytes in two pieces. -/
def twoPieces : Upload where
  key := "k"
  schema := .content
  pieces := [[65], [66]]
  nonempty := by decide
  count_le := by decide
  bytes_le := by decide

/-- The second piece as a text, and the first one as a frame. -/
def secondPiece : IngressMessage := ⟨3, .text (halfText 2 "B")⟩

def firstPiece : IngressMessage := ⟨3, .binary ([110, 0, 0, 0] ++ asBytes headText ++ [65])⟩

set_option maxRecDepth 8000 in
theorem secondPiece_chunk :
    ChunkMessage twoPlatform "k" 2 .content 2 [66] secondPiece.payload secondValue :=
  .text rfl ⟨rfl, rfl, _, rfl, rfl, rfl⟩

set_option maxRecDepth 8000 in
theorem firstPiece_chunk :
    ChunkMessage twoPlatform "k" 2 .content 1 [65] firstPiece.payload
      (injectBinaryData headValue [65]) :=
  .frame (by decide) (Framing.parse_normal rfl (by decide) rfl) rfl rfl rfl rfl rfl rfl rfl rfl

set_option maxRecDepth 8000 in
/-- The second piece twice, then the first: the call gets both in order. -/
theorem chunk_reassembly_two :
    ∃ merged, merged.pointer ["data", "data"] = some (bytesToJsonArray [65, 66]) ∧
      ((Runs.run (step twoPlatform) (Runs.run (step twoPlatform) (init 3 0) [askAgain])
        [.processIngress (.at 1) secondPiece, .processIngress (.at 2) secondPiece,
          .processIngress (.at 3) firstPiece]).service.completions.filter fun e => e.1 = 0)
        = [(0, .ok merged)] := by
  have h₁ : twoPieces.Brings twoPlatform 1 (Runs.run (step twoPlatform) (init 3 0) [askAgain])
      (.at 1) secondPiece 2 secondValue :=
    ⟨rfl, by decide, secondPiece_chunk, le_refl _, by decide, fun _ => by decide,
      fun _ => by decide⟩
  have h₂ : twoPieces.Brings twoPlatform 1 (Runs.run (step twoPlatform)
      (Runs.run (step twoPlatform) (init 3 0) [askAgain]) [.processIngress (.at 1) secondPiece])
      (.at 2) secondPiece 2 secondValue :=
    ⟨rfl, by decide, secondPiece_chunk, by decide, by decide, fun _ => by decide,
      fun _ => by decide⟩
  have h₃ : twoPieces.Brings twoPlatform 1 (Runs.run (step twoPlatform) (init 3 0)
      ([askAgain] ++ [.processIngress (.at 1) secondPiece, .processIngress (.at 2) secondPiece]))
      (.at 3) firstPiece 1 (injectBinaryData headValue [65]) :=
    ⟨rfl, by decide, firstPiece_chunk, by decide, by decide, fun _ => by decide, fun _ => by decide⟩
  obtain ⟨-, merged, hmerged, -, hsent⟩ := chunk_reassembly twoPlatform 3 0 [askAgain] twoPieces
    ⟨0, .any, 3⟩ 1 _ _ _ _ 1 _ rfl rfl rfl (.chunk (.chunk .nothing h₁) h₂) h₃ (by decide)
    (by decide)
  exact ⟨merged, Value.pointer_setPath hmerged, hsent []⟩

end Sys

end Unitree
