/-
Where the chunks of a response come from.

Every step of the system does to the chunk store what one operation of the
assembler does, or nothing (`Sys.step_chunks`), and only a processed chunk
message puts a chunk in.  So the chunk under an index has, at any time, one
message it came with (`Sys.PutBy`).

* `Sys.run_putBy` — when no transfer was stored under a key, every chunk found
  there later was put there by a message processed since;
* `Sys.unaffected_iff` — so a request is decided by chunks processed since exactly
  when it finds no transfer under its key.
-/
import UnitreeWebrtc.Calls

namespace Unitree

/-! ### Chunks under an index -/

namespace ChunkAssembler

/-- The chunk stored under a key and an index. -/
def chunkAt (a : ChunkAssembler) (key : String) (index : ℕ) : Option (List UInt8) :=
  (a.transfers.lookup key).bind fun t => t.chunks.lookup index

theorem chunkAt_eq_some {a : ChunkAssembler} {key : String} {index : ℕ} {bytes : List UInt8} :
    a.chunkAt key index = some bytes ↔
      ∃ t, a.transfers.lookup key = some t ∧ t.chunks.lookup index = some bytes :=
  Option.bind_eq_some_iff

/-- The chunks of the transfer a chunk goes to are those stored under its key. -/
theorem entry_chunkAt (a : ChunkAssembler) (key schema : String) (total now index : ℕ) :
    (a.entry key schema total now).chunks.lookup index = a.chunkAt key index := by
  rw [entry, chunkAt]
  rcases a.transfers.lookup key with _ | t
  · rfl
  · rfl

/-- A chunk that is there after an operation was there before, or is the one
that was inserted. -/
theorem step_chunkAt {a : ChunkAssembler} {op : Op} {key : String} {index : ℕ}
    {bytes : List UInt8} (h : (a.step op).chunkAt key index = some bytes) :
    a.chunkAt key index = some bytes ∨
      (a.chunkAt key index = none ∧
        ∃ schema total now, op = .insert key schema index total bytes now) := by
  cases op with
  | insert key' schema index' total bytes' now =>
    by_cases hk : key = key'
    · subst hk
      rw [step] at h
      rcases insert_cases a key schema index' total bytes' now with
        ⟨e, he⟩ | ⟨-, he⟩ | ⟨hfit, -, he⟩ | ⟨-, -, he⟩
      · -- refused: the transfer is gone
        rw [he, chunkAt, remove, AList.lookup_erase] at h
        exact absurd h (by simp)
      · rw [he] at h
        exact Or.inl h
      · rw [he, chunkAt, AList.lookup_insert, Option.bind_some, Transfer.store,
          Table.lookup_insert_eq] at h
        -- Stored: the index is the new one, or one that was there.
        by_cases hi : index = index'
        · subst hi
          rw [if_pos rfl] at h
          obtain rfl := Option.some_inj.mp h
          refine Or.inr ⟨?_, schema, total, now, rfl⟩
          rw [← entry_chunkAt a key schema total now]
          exact hfit.not_stored
        · rw [if_neg hi, entry_chunkAt] at h
          exact Or.inl h
      · -- complete: the transfer is taken out
        rw [he, chunkAt, remove, AList.lookup_erase] at h
        exact absurd h (by simp)
    · left
      rw [step, chunkAt, insert_frame a schema index' total bytes' now hk] at h
      exact h
  | remove key' =>
    left
    rw [step, chunkAt, remove, Table.lookup_erase_eq] at h
    split at h
    · exact absurd h (by simp)
    · exact h
  | clear => exact absurd h (by simp [step, clear, chunkAt])
  | expire now =>
    left
    rw [step, chunkAt, lookup_expire] at h
    rcases ht : a.transfers.lookup key with _ | t
    · rw [ht] at h
      exact absurd h (by simp)
    · rw [ht, Option.filter_some] at h
      rw [chunkAt, ht]
      split at h
      · exact h
      · exact absurd h (by simp)

end ChunkAssembler

/-! ### What a service step does to the store -/

namespace Service

open ChunkAssembler

@[simp] theorem chunks_settle (s : Service) (key : String)
    (answer : PendingCallback → PortResult Value) :
    (s.settle key answer).chunkDataStorage = s.chunkDataStorage := by
  rw [settle]
  split <;> rfl

@[simp] theorem chunks_failPending (s : Service) (key reason : String) :
    (s.failPending key reason).chunkDataStorage = s.chunkDataStorage := chunks_settle s key _

@[simp] theorem chunks_resolvePendingResponse (s : Service) (key : String) (message : Value) :
    (s.resolvePendingResponse key message).chunkDataStorage = s.chunkDataStorage :=
  chunks_settle s key _

/-- The operation a routed value is for the assembler. -/
def feed (env : Env) (message : Value) : Option Op :=
  if (message.get "type").isNone then none
  else
    (chunkView message).map fun c =>
      match c.parse with
      | .error _ => .remove (incomingKey message)
      | .ok (index, total, bytes) =>
        .insert (incomingKey message) c.schema.path index total bytes env.now

/-- An operation, or none. -/
def applyOp (a : ChunkAssembler) : Option Op → ChunkAssembler
  | none => a
  | some op => a.step op

theorem chunks_handleChunkedResponse (env : Env) (s : Service) (message : Value) (c : ChunkView)
    (hc : chunkView message = some c) :
    ∃ s', s.handleChunkedResponse env message = some s' ∧
      s'.chunkDataStorage = s.chunkDataStorage.step (match c.parse with
        | .error _ => .remove (incomingKey message)
        | .ok (index, total, bytes) =>
          .insert (incomingKey message) c.schema.path index total bytes env.now) := by
  rw [handleChunkedResponse, hc]
  refine ⟨_, rfl, ?_⟩
  dsimp only [feedChunk]
  rcases hp : c.parse with e | ⟨index, total, bytes⟩
  · exact chunks_failPending _ _ _
  · dsimp only [step]
    rcases hi : s.chunkDataStorage.insert (incomingKey message) c.schema.path index total bytes
        env.now with ⟨e | _ | whole, chunks⟩
    · -- a refused insertion has removed the transfer already
      have hgone : chunks.transfers.lookup (incomingKey message) = none := by
        have := insert_error_lookup (congrArg Prod.fst hi)
        rwa [hi] at this
      simp only [settleChunk, chunks_failPending, remove, Table.erase_of_lookup_none hgone]
    · rfl
    · dsimp only [settleChunk]
      split
      · exact chunks_failPending _ _ _
      · obtain ⟨merged, hm⟩ := chunkView_setPath hc hp (bytesToJsonArray whole)
        rw [hm]
        exact chunks_resolvePendingResponse _ _ _

theorem chunks_runResolve (env : Env) (s : Service) (message : Value) :
    (s.runResolve env message).chunkDataStorage
      = applyOp s.chunkDataStorage (feed env message) := by
  rw [runResolve, feed]
  split
  · rfl
  · rcases hc : chunkView message with _ | c
    · have hnone : s.handleChunkedResponse env message = none := by
        rw [handleChunkedResponse, hc]
        rfl
      rw [hnone]
      exact chunks_resolvePendingResponse s _ message
    · obtain ⟨s', hs', hchunks⟩ := chunks_handleChunkedResponse env s message c hc
      rw [hs']
      exact hchunks

theorem Refused.chunks {p : Platform} {payload : DcMessage} {s s' : Service}
    (h : Refused p payload s s') :
    s'.chunkDataStorage = s.chunkDataStorage ∨
      ∃ key, s'.chunkDataStorage = s.chunkDataStorage.step (.remove key) := by
  cases h with
  | ignored => exact Or.inl rfl
  | rejected message reason _ => exact Or.inr ⟨incomingKey message, chunks_failPending _ _ _⟩
  | unsubmitted message reason _ => exact Or.inl (chunks_failPending _ _ _)

/-- A message of the current session, in the chunk store. -/
theorem chunks_handlePayload (p : Platform) (env : Env) (s : Service) (payload : DcMessage) :
    ∃ op, (s.handlePayload p env payload).chunkDataStorage = applyOp s.chunkDataStorage op ∧
      ∀ key schema index total bytes now, op = some (.insert key schema index total bytes now) →
        ∃ parsed, routedValue p env s payload = some parsed ∧ feed env parsed = op := by
  by_cases hfault : ∃ error, payload = .transportFault error
  · obtain ⟨error, rfl⟩ := hfault
    exact ⟨some .clear, rfl, fun key schema index total bytes now h => absurd h (by simp)⟩
  · rcases handlePayload_cases p env s payload (fun error he => hfault ⟨error, he⟩) with
      ⟨parsed, s₁, hv, hq, hq'⟩ | ⟨s₁, -, hq, hr⟩
    · refine ⟨feed env parsed, ?_, fun key schema index total bytes now _ => ⟨parsed, hv, rfl⟩⟩
      rw [hq'.chunks, chunks_runResolve, hq.chunks]
    · rcases hr.chunks with h | ⟨key, h⟩
      · exact ⟨none, h.trans hq.chunks,
          fun key schema index total bytes now h => absurd h (by simp)⟩
      · rw [h, hq.chunks]
        exact ⟨some (.remove key), rfl,
          fun key schema index total bytes now h => absurd h (by simp)⟩

end Service

namespace Sys

open ChunkAssembler Service

/-- The message, processed in this state, is a chunk of `key` with these bytes
at this index. -/
def Carries (p : Platform) (y : Sys) (env : Env) (message : IngressMessage) (key : String)
    (index : ℕ) (bytes : List UInt8) : Prop :=
  message.generation = y.service.sessionId ∧
    ∃ parsed c total, routedValue p env y.service message.payload = some parsed ∧
      incomingKey parsed = key ∧ chunkView parsed = some c ∧
      c.parse = .ok (index, total, bytes)

/-- What a step does to the chunk store: at most one operation, and an insertion
only of what the processed message carries. -/
def Stores (p : Platform) (y : Sys) (a : Action) (chunks : ChunkAssembler) : Prop :=
  ∃ op, chunks = applyOp y.service.chunkDataStorage op ∧
    ∀ key schema index total bytes now, op = some (.insert key schema index total bytes now) →
      ∃ env message, a = .processIngress env message ∧ Carries p y env message key index bytes

theorem stores_same {p : Platform} {y : Sys} {a : Action} {chunks : ChunkAssembler}
    (h : chunks = y.service.chunkDataStorage) : Stores p y a chunks :=
  ⟨none, h, fun key schema index total bytes now h => absurd h (by simp)⟩

theorem stores_op {p : Platform} {y : Sys} {a : Action} {chunks : ChunkAssembler} (op : Op)
    (hop : ∀ key schema index total bytes now, op ≠ .insert key schema index total bytes now)
    (h : chunks = y.service.chunkDataStorage.step op) : Stores p y a chunks :=
  ⟨some op, h, fun key schema index total bytes now h =>
    absurd (Option.some_inj.mp h) (hop key schema index total bytes now)⟩

theorem chunks_dropGuard (s : Service) (key : String) (token : ℕ) :
    (s.dropGuard key token).chunkDataStorage = s.chunkDataStorage ∨
      (s.dropGuard key token).chunkDataStorage = s.chunkDataStorage.step (.remove key) := by
  rw [dropGuard]
  split
  · exact Or.inl rfl
  · split
    · exact Or.inr rfl
    · exact Or.inl rfl

theorem dropGuard_stores {p : Platform} {y : Sys} {a : Action} {s : Service}
    (h : s.chunkDataStorage = y.service.chunkDataStorage) (key : String) (token : ℕ) :
    Stores p y a (s.dropGuard key token).chunkDataStorage := by
  rcases chunks_dropGuard s key token with hs | hs
  · exact stores_same (hs.trans h)
  · exact stores_op (.remove key) (by simp) (by rw [hs, h])

theorem started_stores {p : Platform} {y : Sys} {a : Action} {s : Service}
    (h : s.chunkDataStorage = y.service.chunkDataStorage) (env : Env) (topic : String)
    (data : Option Value) (msgType : String) (expectation : ResponseExpectation) :
    Stores p y a (y.started (s.publishWithExpectation env topic data msgType expectation)
      ).service.chunkDataStorage := by
  rcases publishWithExpectation_quiet env s topic data msgType expectation with
    ⟨e, he⟩ | ⟨-, -, s', hq, he | ⟨e, he⟩⟩
  · rw [he]
    exact stores_same h
  · rw [he]
    exact stores_same (hq.chunks.trans h)
  · rw [he]
    exact dropGuard_stores (hq.chunks.trans h) _ _

theorem chunks_expireChunks (env : Env) (s : Service) :
    (s.expireChunks env).chunkDataStorage = s.chunkDataStorage.step (.expire env.now) :=
  Service.expireChunks_rel (R := fun s t => t.chunkDataStorage = s.chunkDataStorage)
    (fun _ => rfl) (fun h h' => h'.trans h) (fun s key => chunks_failPending s key _) env s

theorem step_chunks (p : Platform) (y : Sys) (a : Action) :
    Stores p y a (y.step p a).service.chunkDataStorage := by
  cases a with
  | publish fits env topic data msgType timeout =>
    simp only [step, publish]
    split
    · exact stores_same rfl
    · exact started_stores rfl env topic data _ _
  | publishRequestNew fits env topic options timeout =>
    have hq := wireId_quiet y.service options
    simp only [step, publishRequestNew]
    split
    · exact stores_same rfl
    · split
      · exact stores_same hq.chunks
      · exact started_stores hq.chunks env topic _ _ _
  | publishWithoutCallback env topic data msgType =>
    exact stores_same (sendMessageLocked_quiet env y.service topic data _).chunks
  | subscribe env topic => exact stores_same (subscribe_quiet env y.service topic).chunks
  | unsubscribe env topic => exact stores_same (unsubscribe_quiet env y.service topic).chunks
  | poll token =>
    simp only [step]
    split
    · exact dropGuard_stores rfl _ _
    · exact stores_same rfl
  | giveUp token error =>
    simp only [step]
    split
    · exact dropGuard_stores rfl _ _
    · exact stores_same rfl
  | processIngress env message =>
    simp only [step, processIngress]
    split
    next => exact stores_same rfl
    next hgen =>
      obtain ⟨op, hchunks, hop⟩ := chunks_handlePayload p env y.service message.payload
      refine ⟨op, hchunks, fun key schema index total bytes now h => ?_⟩
      obtain ⟨parsed, hv, hf⟩ := hop key schema index total bytes now h
      refine ⟨env, message, rfl, not_not.mp hgen, parsed, ?_⟩
      -- only a chunk that was read is inserted
      rw [h, feed] at hf
      split at hf
      · exact absurd hf (by simp)
      · obtain ⟨c, hc, hf⟩ := Option.map_eq_some_iff.mp hf
        split at hf
        · exact absurd hf (by simp)
        next i t b hp =>
          simp only [Op.insert.injEq] at hf
          obtain ⟨rfl, -, rfl, rfl, rfl, -⟩ := hf
          exact ⟨c, t, hv, rfl, hc, hp⟩
  | expireChunks env =>
    exact stores_op (.expire env.now) (by simp) (chunks_expireChunks env y.service)
  | heartbeatTick env epoch =>
    simp only [step, heartbeatTick]
    split
    · exact stores_same rfl
    split
    · exact stores_op .clear (by simp) rfl
    split
    · exact stores_same (sendMessageLocked_quiet env y.service _ _ _).chunks
    · exact stores_same rfl
  | store which => cases which <;> exact stores_same rfl
  | startNewSession => exact stores_op .clear (by simp) rfl

theorem step_chunks_valid (p : Platform) (y : Sys) (a : Action)
    (h : y.service.chunkDataStorage.Valid) : (y.step p a).service.chunkDataStorage.Valid := by
  obtain ⟨op, hop, -⟩ := step_chunks p y a
  rw [hop]
  cases op with
  | none => exact h
  | some op => exact step_valid _ op h

/-- The store of every reachable state satisfies the assembler's invariant. -/
theorem run_chunks_valid (p : Platform) (sessionId requestSequence : ℕ) (as : List Action) :
    (Runs.run (step p) (init sessionId requestSequence) as).service.chunkDataStorage.Valid :=
  Runs.run_invariant (I := fun y : Sys => y.service.chunkDataStorage.Valid) (step_chunks_valid p) as
    empty_valid

/-! ### Provenance -/

/-- During `as`, a message brought the chunk under `key` and `index`, and it has
been there since. -/
def PutBy (p : Platform) (y : Sys) (as : List Action) (key : String) (index : ℕ)
    (bytes : List UInt8) : Prop :=
  ∃ pre env message post, as = pre ++ .processIngress env message :: post ∧
    (Runs.run (step p) y pre).service.chunkDataStorage.chunkAt key index = none ∧
    Carries p (Runs.run (step p) y pre) env message key index bytes ∧
    ∀ q, q <+: post →
      (Runs.run (step p) y (pre ++ .processIngress env message :: q)
        ).service.chunkDataStorage.chunkAt key index = some bytes

theorem step_putBy (p : Platform) (y : Sys) (a : Action) {key : String} {index : ℕ}
    {bytes : List UInt8}
    (h : (y.step p a).service.chunkDataStorage.chunkAt key index = some bytes) :
    y.service.chunkDataStorage.chunkAt key index = some bytes ∨
      (y.service.chunkDataStorage.chunkAt key index = none ∧
        ∃ env message, a = .processIngress env message ∧
          Carries p y env message key index bytes) := by
  obtain ⟨op, hop, hins⟩ := step_chunks p y a
  rw [hop] at h
  cases op with
  | none => exact Or.inl h
  | some op =>
    rcases step_chunkAt h with h | ⟨hnone, schema, total, now, rfl⟩
    · exact Or.inl h
    · exact Or.inr ⟨hnone, hins key schema index total bytes now rfl⟩

/-- Where no transfer was stored, every chunk found later was put there since. -/
theorem run_putBy (p : Platform) (y : Sys) {key : String}
    (hclean : y.service.chunkDataStorage.transfers.lookup key = none) :
    ∀ (as : List Action) {index : ℕ} {bytes : List UInt8},
      (Runs.run (step p) y as).service.chunkDataStorage.chunkAt key index = some bytes →
        PutBy p y as key index bytes := by
  intro as
  induction as using List.reverseRecOn with
  | nil =>
    intro index bytes h
    rw [Runs.run_nil, chunkAt, hclean] at h
    exact absurd h (by simp)
  | append_singleton as a ih =>
    intro index bytes h
    have h' := h
    rw [Runs.run_concat] at h'
    rcases step_putBy p _ a h' with hold | ⟨hnone, env, message, rfl, hcar⟩
    · -- it was there already
      obtain ⟨pre, env, message, post, rfl, hpre, hcar, hpost⟩ := ih hold
      refine ⟨pre, env, message, post ++ [a], by simp, hpre, hcar, fun q hq => ?_⟩
      rcases List.prefix_concat_iff.mp hq with rfl | hq'
      · rw [show pre ++ Action.processIngress env message :: (post ++ [a])
          = (pre ++ Action.processIngress env message :: post) ++ [a] by simp]
        exact h
      · exact hpost q hq'
    · -- the last step brought it
      refine ⟨as, env, message, [], rfl, hnone, hcar, fun q hq => ?_⟩
      rw [List.prefix_nil.mp hq]
      exact h

/-! ### Requests and earlier chunks -/

/-- The key and token under which an action registers a call that goes on to
wait. -/
def registers (p : Platform) (y : Sys) : Action → Option (String × ℕ)
  | .publish fits env topic data msgType timeout =>
    (y.service.publish fits env topic data msgType timeout).1.toOption
  | .publishRequestNew fits env topic options timeout =>
    (y.service.publishRequestNew p fits env topic options timeout).1.toOption
  | _ => none

theorem started_registers {y : Sys} {s : Service} (hs : Quiet y.service s) {env : Env}
    {topic msgType : String} {data : Option Value} {expectation : ResponseExpectation}
    {key : String} {token : ℕ}
    (h : (s.publishWithExpectation env topic data msgType expectation).1.toOption
      = some (key, token)) :
    ∃ s', y.started (s.publishWithExpectation env topic data msgType expectation)
        = { y with service := s', live := y.live.insert token key } ∧
      s'.chunkDataStorage = y.service.chunkDataStorage ∧
      ∃ cb, s'.pendingCallbacks.lookup key = some cb ∧ cb.token = token := by
  rcases publishWithExpectation_quiet env s topic data msgType expectation with
    ⟨e, he⟩ | ⟨-, -, s', hq, he | ⟨e, he⟩⟩
  · rw [he] at h
    exact absurd h (by simp [Except.toOption])
  · rw [he] at h ⊢
    simp only [Except.toOption, Option.some_inj, Prod.mk.injEq] at h
    obtain ⟨rfl, rfl⟩ := h
    refine ⟨s', rfl, hq.chunks.trans hs.chunks,
      { token := s.nextId, expectation, sessionId := s.sessionId }, ?_, rfl⟩
    rw [hq.pending, register, AList.lookup_insert]
  · rw [he] at h
    exact absurd h (by simp [Except.toOption])

/-- What a registration does: the entry is there, and the chunks are as they
were. -/
theorem registers_spec {p : Platform} {y : Sys} {a : Action} {key : String} {token : ℕ}
    (h : registers p y a = some (key, token)) :
    ∃ s', y.step p a = { y with service := s', live := y.live.insert token key } ∧
      s'.chunkDataStorage = y.service.chunkDataStorage ∧
      ∃ cb, s'.pendingCallbacks.lookup key = some cb ∧ cb.token = token := by
  cases a with
  | publish fits env topic data msgType timeout =>
    simp only [registers, publish, step] at h ⊢
    split at h
    · exact absurd h (by simp [Except.toOption])
    · exact started_registers (Quiet.refl _) h
  | publishRequestNew fits env topic options timeout =>
    simp only [registers, publishRequestNew, step] at h ⊢
    split at h
    · exact absurd h (by simp [Except.toOption])
    · split at h
      · exact absurd h (by simp [Except.toOption])
      · exact started_registers (wireId_quiet y.service options) h
  | _ => exact absurd h (by simp [registers])

/-- The step passes judgement on the transfer under `key`: a chunk of it is
processed, or it expires. -/
def Judges (p : Platform) (y : Sys) (a : Action) (key : String) : Prop :=
  (∃ env message parsed, a = .processIngress env message ∧
    message.generation = y.service.sessionId ∧
    routedValue p env y.service message.payload = some parsed ∧
    (parsed.get "type").isSome ∧ (chunkView parsed).isSome ∧ incomingKey parsed = key) ∨
  ∃ env, a = .expireChunks env ∧ key ∈ y.service.chunkDataStorage.expired env.now

/-- The step sends the call of this token its result. -/
def Completes (p : Platform) (y : Sys) (a : Action) (token : ℕ) : Prop :=
  (∀ r, (token, r) ∉ y.service.completions) ∧
    ∃ r, (token, r) ∈ (y.step p a).service.completions

/-- However a call that waits in `y` under `key` is decided by its chunks, be it
by a response merged from them, a conflict, an inconsistency or their expiry:
all of them came with messages processed since `y`. -/
def Unaffected (p : Platform) (y : Sys) (key : String) (token : ℕ) : Prop :=
  ∀ mid a, Judges p (Runs.run (step p) y mid) a key →
    Completes p (Runs.run (step p) y mid) a token →
      ∀ index bytes,
        (Runs.run (step p) y mid).service.chunkDataStorage.chunkAt key index = some bytes →
          PutBy p y mid key index bytes

theorem lookup_failPending (s : Service) (key reason : String) :
    (s.failPending key reason).pendingCallbacks.lookup key = none := by
  rw [failPending, settle]
  split
  · assumption
  · exact AList.lookup_erase key _

/-- An expired key has no entry left. -/
theorem lookup_failEach {key : String} : ∀ {keys : List String}, key ∈ keys → ∀ s : Service,
    (keys.foldl (fun s key => s.failPending key "Chunk assembly deadline expired") s
      ).pendingCallbacks.lookup key = none := by
  intro keys
  induction keys with
  | nil => intro h; exact absurd h (by simp)
  | cons k rest ih =>
    intro h s
    rcases List.mem_cons.mp h with rfl | h
    · -- once gone it stays gone
      rcases hl : (rest.foldl (fun s key => s.failPending key "Chunk assembly deadline expired")
          (s.failPending key "Chunk assembly deadline expired")).pendingCallbacks.lookup key
        with _ | cb
      · exact hl
      · have hcb := (failEach_unanswering rest _).entries hl
        rw [lookup_failPending] at hcb
        exact absurd hcb (by simp)
    · exact ih h _

/-- Expiry of the transfer under its key decides a waiting call. -/
theorem expireChunks_completes (p : Platform) {y : Sys} (h : Inv y) {env : Env} {key : String}
    {cb : PendingCallback} (hcb : y.service.pendingCallbacks.lookup key = some cb)
    (hexp : key ∈ y.service.chunkDataStorage.expired env.now) :
    Completes p y (.expireChunks env) cb.token := by
  have hnone : ∀ r, (cb.token, r) ∉ y.service.completions := by
    intro r hr
    have hzero := h.desk.open_ hcb
    rw [Desk.answers, List.length_eq_zero_iff, List.filter_eq_nil_iff] at hzero
    exact hzero _ hr (by simp)
  refine ⟨hnone, ?_⟩
  have h' := step_inv p y (.expireChunks env) h
  have hgone : (y.step p (.expireChunks env)).service.pendingCallbacks.lookup key = none :=
    lookup_failEach hexp _
  have hlive : (y.step p (.expireChunks env)).live.lookup cb.token = some key := h.desk.owned hcb
  rcases h'.desk.served hlive with ⟨cb', hcb', -⟩ | hone
  · rw [show (y.step p (.expireChunks env)).desk.pending
      = (y.step p (.expireChunks env)).service.pendingCallbacks from rfl, hgone] at hcb'
    exact absurd hcb' (by simp)
  · have hpos : 0 < (y.step p (.expireChunks env)).desk.answers cb.token := by omega
    obtain ⟨⟨t, r⟩, hmem⟩ := List.exists_mem_of_length_pos hpos
    rw [List.mem_filter] at hmem
    have ht : t = cb.token := by simpa using hmem.2
    exact ⟨r, ht ▸ hmem.1⟩

/-- A request that registers is decided by chunks processed since exactly when no
transfer is stored under its key at that moment. -/
theorem unaffected_iff (p : Platform) (sessionId requestSequence : ℕ)
    (before : List Action) (call : Action) (key : String) (token : ℕ)
    (hcall : registers p (Runs.run (step p) (init sessionId requestSequence) before) call
      = some (key, token)) :
    let y := Runs.run (step p) (init sessionId requestSequence) before
    Unaffected p (y.step p call) key token ↔
      y.service.chunkDataStorage.transfers.lookup key = none := by
  intro y
  obtain ⟨s', hstep, hchunks, cb, hcb, rfl⟩ := registers_spec hcall
  have hchunks' : (y.step p call).service.chunkDataStorage = y.service.chunkDataStorage := by
    rw [hstep]
    exact hchunks
  constructor
  · intro h
    rcases ht : y.service.chunkDataStorage.transfers.lookup key with _ | t
    · rfl
    · exfalso
      -- a stored transfer has a chunk, and its expiry fails the request
      have hvalid := (run_chunks_valid p sessionId requestSequence before).transfer key t ht
      have hpos : 0 < t.chunks.keys.length := hvalid.some_chunk
      obtain ⟨index, hindex⟩ := List.exists_mem_of_length_pos hpos
      obtain ⟨bytes, hbytes⟩ := Table.mem_keys_iff.mp hindex
      have hexp : key ∈
          (y.step p call).service.chunkDataStorage.expired (Env.at t.deadline).now := by
        rw [hchunks', mem_expired]
        exact ⟨t, ht, le_refl _⟩
      have hinv : Inv (y.step p call) :=
        step_inv p y call (run_inv p sessionId requestSequence before)
      have hpend : (y.step p call).service.pendingCallbacks.lookup key = some cb := by
        rw [hstep]
        exact hcb
      have hput := h [] (.expireChunks (.at t.deadline)) (Or.inr ⟨_, rfl, hexp⟩)
        (expireChunks_completes p hinv hpend hexp) index bytes (by
          rw [Runs.run_nil, hchunks', chunkAt_eq_some]
          exact ⟨t, ht, hbytes⟩)
      obtain ⟨pre, env, message, post, hnil, -⟩ := hput
      exact absurd hnil (by simp)
  · intro hclean mid a _ _ index bytes hbytes
    refine run_putBy p (y.step p call) ?_ mid hbytes
    rw [hchunks']
    exact hclean

end Sys

end Unitree
