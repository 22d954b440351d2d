/-
What the service's methods do to its calls and chunks.

Most methods leave the pending table, the chunk store and the session alone
(`Quiet`), and most hand nothing on to the other threads (`Silent`).  A message
is routed as a value (`routedValue`), or refused before it is one (`Refused`).
Everything later is derived from these, so that no other proof unfolds the
router.

* `handleTextResponse_still`, `dispatchSubscription_quiet` — the side paths;
* `handlePayload_cases` — a message of the current session;
* `handlePayload_settles` — seen from the pending table, routing settles at most
  one key, with a refusal or with a message filed under that very key.
-/
import UnitreeWebrtc.Service

namespace Unitree

/-- The payload of a chunk is what is at its path. -/
theorem chunkView_payload {message : Value} {c : ChunkView} (hc : chunkView message = some c) :
    message.pointer c.schema.tokens = c.payload := by
  rw [chunkView, Option.or_eq_some_iff] at hc
  rcases hc with hc | ⟨-, hc⟩
  · simp only [contentView, Option.bind_eq_some_iff] at hc
    obtain ⟨info, -, hc⟩ := hc
    split at hc
    · rw [← Option.some_inj.mp hc]
      rfl
    · exact absurd hc (by simp)
  · simp only [fileView, Option.bind_eq_some_iff] at hc
    obtain ⟨info, hinfo, hc⟩ := hc
    split at hc
    · rw [← Option.some_inj.mp hc]
      simp only [ChunkSchema.tokens, Value.pointer_cons, Value.pointer_nil,
        Option.bind_eq_some_iff, Option.some_inj] at hinfo ⊢
      obtain ⟨i, hi, f, hf, rfl⟩ := hinfo
      simp [hi, hf]
    · exact absurd hc (by simp)

theorem parse_ok {c : ChunkView} {index total : ℕ} {bytes : List UInt8}
    (hp : c.parse = .ok (index, total, bytes)) :
    (c.metadata.get "chunk_index").bind Value.asU64 = some index ∧
      (c.metadata.get "total_chunk_num").bind Value.asU64 = some total ∧
      c.payload.bind valueToChunkBytes = some bytes := by
  rw [ChunkView.parse] at hp
  split at hp
  next => exact absurd hp (by simp)
  next i hi =>
    split at hp
    next => exact absurd hp (by simp)
    next t ht =>
      split at hp
      next => exact absurd hp (by simp)
      next b hb =>
        simp only [Except.ok.injEq, Prod.mk.injEq] at hp
        obtain ⟨rfl, rfl, rfl⟩ := hp
        exact ⟨hi, ht, hb⟩

/-- The payload of a chunk that was read can be replaced. -/
theorem chunkView_setPath {message : Value} {c : ChunkView} (hc : chunkView message = some c)
    {index total : ℕ} {bytes : List UInt8} (hp : c.parse = .ok (index, total, bytes))
    (new : Value) : ∃ merged, Value.setPath c.schema.tokens new message = some merged := by
  obtain ⟨payload, hpayload, -⟩ := Option.bind_eq_some_iff.mp (parse_ok hp).2.2
  exact Value.setPath_of_pointer ((chunkView_payload hc).trans hpayload) new

/-- Another thread goes on with it: an event for the callback channel, or a job
for the LiDAR workers. -/
def Effect.handedOn : Effect → Bool
  | .event _ _ => true
  | .submit _ => true
  | _ => false

namespace Service

/-- What was handed on so far: events and LiDAR jobs. -/
def outputs (s : Service) : List Effect := s.effects.filter Effect.handedOn

/-- The answers sent so far. -/
def completions (s : Service) : List (ℕ × PortResult Value) :=
  s.effects.filterMap fun
    | .complete token result => some (token, result)
    | _ => none

/-! ### The loop of `expire_chunks` -/

/-- What each refusal relates, the loop relates. -/
theorem expireChunks_rel {R : Service → Service → Prop} (hrefl : ∀ s, R s s)
    (htrans : ∀ {s t u}, R s t → R t u → R s u)
    (hone : ∀ (s : Service) key, R s (s.failPending key "Chunk assembly deadline expired"))
    (env : Env) (s : Service) :
    R { s with chunkDataStorage := (s.chunkDataStorage.expire env.now).2 }
      (s.expireChunks env) := by
  have hrun := Runs.run_rel (R := R) hrefl htrans hone (s.chunkDataStorage.expire env.now).1
    { s with chunkDataStorage := (s.chunkDataStorage.expire env.now).2 }
  exact hrun

/-! ### Quiet and silent steps -/

/-- Calls, chunks and session are as before, and nobody was answered. -/
structure Quiet (s s' : Service) : Prop where
  pending : s'.pendingCallbacks = s.pendingCallbacks
  chunks : s'.chunkDataStorage = s.chunkDataStorage
  session : s'.sessionId = s.sessionId
  nextId : s.nextId ≤ s'.nextId
  completions : s'.completions = s.completions

namespace Quiet

theorem refl (s : Service) : Quiet s s := ⟨rfl, rfl, rfl, le_refl _, rfl⟩

theorem trans {s₁ s₂ s₃ : Service} (h : Quiet s₁ s₂) (h' : Quiet s₂ s₃) : Quiet s₁ s₃ :=
  ⟨h'.pending.trans h.pending, h'.chunks.trans h.chunks, h'.session.trans h.session,
    h.nextId.trans h'.nextId, h'.completions.trans h.completions⟩

/-- The same, from the last step back. -/
theorem after {s₁ s₂ s₃ : Service} (h' : Quiet s₂ s₃) (h : Quiet s₁ s₂) : Quiet s₁ s₃ := h.trans h'

end Quiet

/-- Nothing was handed on, and what decides about it later is as before. -/
structure Silent (s s' : Service) : Prop where
  outputs : s'.outputs = s.outputs
  subscriptions : s'.subscriptions = s.subscriptions
  throttle : s'.lastProcessTime = s.lastProcessTime
  session : s'.sessionId = s.sessionId

namespace Silent

theorem refl (s : Service) : Silent s s := ⟨rfl, rfl, rfl, rfl⟩

theorem after {s₁ s₂ s₃ : Service} (h' : Silent s₂ s₃) (h : Silent s₁ s₂) : Silent s₁ s₃ :=
  ⟨h'.outputs.trans h.outputs, h'.subscriptions.trans h.subscriptions,
    h'.throttle.trans h.throttle, h'.session.trans h.session⟩

end Silent

/-- A step that only sends or writes flags is both. -/
structure Still (s s' : Service) : Prop where
  quiet : Quiet s s'
  silent : Silent s s'

namespace Still

theorem refl (s : Service) : Still s s := ⟨Quiet.refl s, Silent.refl s⟩

theorem trans {s₁ s₂ s₃ : Service} (h : Still s₁ s₂) (h' : Still s₂ s₃) : Still s₁ s₃ :=
  ⟨h.quiet.trans h'.quiet, h'.silent.after h.silent⟩

theorem after {s₁ s₂ s₃ : Service} (h' : Still s₂ s₃) (h : Still s₁ s₂) : Still s₁ s₃ := h.trans h'

end Still

/-- Every effect but an answer is quiet. -/
theorem emit_quiet (s : Service) (e : Effect) (h : ∀ token result, e ≠ .complete token result) :
    Quiet s (s.emit e) := by
  refine ⟨rfl, rfl, rfl, le_refl _, ?_⟩
  rw [completions, emit, List.filterMap_append]
  cases e with
  | complete token result => exact absurd rfl (h token result)
  | _ => simp [completions]

/-- And every effect that stays in the service is silent. -/
theorem emit_silent (s : Service) (e : Effect) (h : e.handedOn = false) : Silent s (s.emit e) := by
  refine ⟨?_, rfl, rfl, rfl⟩
  rw [outputs, emit, List.filter_append, List.filter_singleton, h]
  simp [outputs]

theorem sendMessageLocked_still (env : Env) (s : Service) (topic : String) (data : Option Value)
    (msgType : String) : Still s (s.sendMessageLocked env topic data msgType).2 := by
  rw [sendMessageLocked]
  split
  · exact ⟨emit_quiet s _ (by simp), emit_silent s _ rfl⟩
  · exact Still.refl s

theorem sendMessageLocked_quiet (env : Env) (s : Service) (topic : String) (data : Option Value)
    (msgType : String) : Quiet s (s.sendMessageLocked env topic data msgType).2 :=
  (sendMessageLocked_still env s topic data msgType).quiet

theorem startHeartbeatInSession_still (s : Service) : Still s s.startHeartbeatInSession := by
  rw [startHeartbeatInSession]
  split
  · exact Still.refl s
  · exact Still.after ⟨emit_quiet _ _ (by simp), emit_silent _ _ rfl⟩
      ⟨⟨rfl, rfl, rfl, Nat.le_succ _, rfl⟩, ⟨rfl, rfl, rfl, rfl⟩⟩

theorem requestNetworkStatusOnce_still (env : Env) (s : Service) :
    Still s (s.requestNetworkStatusOnce env) := by
  rw [requestNetworkStatusOnce]
  split
  · exact Still.refl s
  · exact (sendMessageLocked_still env _ _ _ _).after
      ⟨⟨rfl, rfl, rfl, le_refl _, rfl⟩, ⟨rfl, rfl, rfl, rfl⟩⟩

theorem sendValidation_still (p : Platform) (env : Env) (s : Service) (key : String) :
    Still s (s.sendValidation p env key) := by
  rw [sendValidation]
  split
  · exact Still.refl s
  · exact sendMessageLocked_still env s _ _ _

theorem handleValidation_still (p : Platform) (env : Env) (s : Service) (message : Value) :
    Still s (s.handleValidation p env message) := by
  rw [handleValidation]
  split
  · exact Still.refl s
  · split
    · exact (requestNetworkStatusOnce_still env _).after
        ((startHeartbeatInSession_still _).after
          ⟨⟨rfl, rfl, rfl, le_refl _, rfl⟩, ⟨rfl, rfl, rfl, rfl⟩⟩)
    · exact (sendValidation_still p env _ _).after
        ⟨⟨rfl, rfl, rfl, le_refl _, rfl⟩, ⟨rfl, rfl, rfl, rfl⟩⟩

theorem handleRtcInnerReq_still (env : Env) (s : Service) (message : Value) :
    Still s (s.handleRtcInnerReq env message) := by
  rw [handleRtcInnerReq]
  split
  · exact Still.refl s
  next info _ =>
    have hecho : Still s (if (info.get "req_type").bind Value.asStr
        = some "rtt_probe_send_from_mechine" then
          (s.sendMessageLocked env "" (some info) DcType.rtcInnerReq).2 else s) := by
      split
      · exact sendMessageLocked_still env s _ _ _
      · exact Still.refl s
    dsimp only
    split
    · exact hecho.trans ⟨⟨rfl, rfl, rfl, le_refl _, rfl⟩, ⟨rfl, rfl, rfl, rfl⟩⟩
    · exact hecho

theorem handleTextResponse_still (p : Platform) (env : Env) (s : Service) (message : Value) :
    Still s (s.handleTextResponse p env message) := by
  simp only [handleTextResponse]
  split
  · exact handleValidation_still p env s message
  split
  · exact handleRtcInnerReq_still env s message
  split
  · exact ⟨⟨rfl, rfl, rfl, le_refl _, rfl⟩, ⟨rfl, rfl, rfl, rfl⟩⟩
  split
  · rw [handleValidationErr]
    split
    · exact sendValidation_still p env s _
    · exact Still.refl s
  · exact Still.refl s

theorem shouldProcess_quiet (due : ℚ → ℚ → ℚ → Bool) (now : ℚ) (s : Service)
    (topicOrType : String) : Quiet s (s.shouldProcess due now topicOrType).2 := by
  rw [shouldProcess]
  split
  · exact Quiet.refl s
  · dsimp only
    split
    · exact ⟨rfl, rfl, rfl, le_refl _, rfl⟩
    · exact Quiet.refl s

theorem dispatchSubscription_quiet (env : Env) (s : Service) (message : Value) :
    Quiet s (s.dispatchSubscription env message) := by
  simp only [dispatchSubscription]
  split
  · exact Quiet.refl s
  · have hq := shouldProcess_quiet env.due env.dispatchTime s (strOf message "topic")
    rcases hs : s.shouldProcess env.due env.dispatchTime (strOf message "topic") with ⟨_ | _, s'⟩
    · rw [hs] at hq
      exact hq
    · rw [hs] at hq
      dsimp only
      split
      · exact (emit_quiet s' _ (by simp)).after hq
      · exact hq

theorem submit_quiet (p : Platform) (env : Env) (s : Service) (request : LidarDecodeRequest) :
    Quiet s (s.submit p env request).2 := by
  rw [submit]
  split
  · exact Quiet.refl s
  · split
    · exact Quiet.refl s
    · split
      · exact Quiet.refl s
      · exact emit_quiet s _ (by simp)

theorem subscribe_quiet (env : Env) (s : Service) (topic : String) :
    Quiet s (s.subscribe env topic).2 := by
  rw [subscribe_eq]
  exact (sendMessageLocked_quiet env s topic none _).trans ⟨rfl, rfl, rfl, le_refl _, rfl⟩

theorem unsubscribe_quiet (env : Env) (s : Service) (topic : String) :
    Quiet s (s.unsubscribe env topic).2 := by
  rw [unsubscribe_eq]
  exact (sendMessageLocked_quiet env s topic none _).trans ⟨rfl, rfl, rfl, le_refl _, rfl⟩

theorem wireId_quiet (s : Service) (options : Value) : Quiet s (s.wireId options).2 := by
  rw [wireId]
  split
  · exact Quiet.refl s
  · exact ⟨rfl, rfl, rfl, le_refl _, rfl⟩

/-! ### Routing -/

/-- The value a message is routed as, if it gets that far: the document of a
text, or the header of a binary frame with its bytes put in. -/
def routedValue (p : Platform) (env : Env) (s : Service) : DcMessage → Option Value
  | .transportFault _ => none
  | .text text =>
    match parseJson p.serde (asBytes text) with
    | .error _ => none
    | .ok parsed => some parsed
  | .binary bytes => (s.dealArrayBuffer p env bytes).1

/-- The document a message brings: its text, or the header of its frame. -/
def document (p : Platform) : DcMessage → Option Value
  | .transportFault _ => none
  | .text text => (parseJson p.serde (asBytes text)).toOption
  | .binary bytes => (Framing.parse p.serde bytes).toOption.map fun parsed => parsed.2.1

/-- Routing of what is dealt with before it is a value: at most the key of its
document is touched. -/
inductive Refused (p : Platform) (payload : DcMessage) (s : Service) : Service → Prop
  | ignored : Refused p payload s s
  | rejected (message : Value) (reason : String) (h : document p payload = some message) :
      Refused p payload s (s.rejectBinaryResponse message reason)
  | unsubmitted (message : Value) (reason : String) (h : document p payload = some message) :
      Refused p payload s (s.failPending (incomingKey message) reason)

theorem processLidar_refused (p : Platform) (env : Env) (s : Service) (decodedJson : Value)
    (binaryData : List UInt8) (metadata : LidarMetadata) {payload : DcMessage}
    (hdoc : document p payload = some decodedJson) :
    ∃ s₁, Quiet s s₁ ∧
      Refused p payload s₁ (s.processLidar p env decodedJson binaryData metadata) := by
  rw [processLidar]
  split
  · exact ⟨s, Quiet.refl s, .rejected decodedJson _ hdoc⟩
  split
  · exact ⟨s, Quiet.refl s, .rejected decodedJson _ hdoc⟩
  have hq := shouldProcess_quiet env.due env.wallTime s (topicOrType decodedJson)
  rcases hs : s.shouldProcess env.due env.wallTime (topicOrType decodedJson) with ⟨_ | _, s'⟩
  · rw [hs] at hq
    exact ⟨s', hq, .ignored⟩
  · rw [hs] at hq
    dsimp only
    have hsub := submit_quiet p env s'
      ⟨s'.sessionId, topicOrType decodedJson, decodedJson, binaryData, metadata⟩
    rcases hr : s'.submit p env
        ⟨s'.sessionId, topicOrType decodedJson, decodedJson, binaryData, metadata⟩ with
      ⟨e | _, s''⟩
    · rw [hr] at hsub
      exact ⟨s'', hsub.after hq, .unsubmitted decodedJson e hdoc⟩
    · rw [hr] at hsub
      exact ⟨s'', hsub.after hq, .ignored⟩

/-- What has LiDAR metadata is meant for the LiDAR decoder. -/
theorem fromJson_of_intent {p : Platform} {frame : BinaryFrame} {topic : String}
    {data : Option Value} (h : lidarIntent frame topic data = false) :
    data.bind (LidarMetadata.fromJson p) = none := by
  rcases data with _ | data
  · rfl
  · have hsize : data.get "src_size" = none := by
      simp only [lidarIntent, Bool.or_eq_false_iff] at h
      simpa using h.2.1
    rw [Option.bind_some, LidarMetadata.fromJson, hsize]
    split
    next h => exact absurd h (by simp)
    next => rfl

theorem shouldProcess_unlimited {due : ℚ → ℚ → ℚ → Bool} {now : ℚ} {s : Service}
    {topicOrType : String} (h : throttleLimit topicOrType = none) :
    s.shouldProcess due now topicOrType = (true, s) := by
  rw [shouldProcess, h]

/-- A frame that is not for the LiDAR decoder, within the expansion limit and on
a topic without a throttle limit: its bytes are put into the header. -/
theorem processBinaryPayload_plain {p : Platform} {env : Env} {s : Service} {frame : BinaryFrame}
    {header : Value} {body : List UInt8}
    (hintent : lidarIntent frame (topicOrType header) (header.get "data") = false)
    (hlength : body.length ≤ maxBinaryExpansionBytes)
    (hfree : throttleLimit (topicOrType header) = none) :
    s.processBinaryPayload p env frame header body = (some (injectBinaryData header body), s) := by
  simp only [processBinaryPayload, fromJson_of_intent hintent, hintent, Bool.false_eq_true,
    if_false, if_neg (not_lt.mpr hlength), shouldProcess_unlimited hfree]

/-- A binary frame is either routed as the value it decodes to, or dealt with
on the way. -/
theorem dealArrayBuffer_cases (p : Platform) (env : Env) (s : Service) (buffer : List UInt8) :
    (∃ parsed s', s.dealArrayBuffer p env buffer = (some parsed, s') ∧ Quiet s s') ∨
      ∃ s₁ s', s.dealArrayBuffer p env buffer = (none, s') ∧ Quiet s s₁ ∧
        Refused p (.binary buffer) s₁ s' := by
  rw [dealArrayBuffer]
  split
  · exact Or.inr ⟨s, s, rfl, Quiet.refl s, .ignored⟩
  split
  · exact Or.inr ⟨s, s, rfl, Quiet.refl s, .ignored⟩
  next frame header payload hparse =>
    have hdoc : document p (.binary buffer) = some header := by
      rw [document, hparse]
      rfl
    simp only [processBinaryPayload]
    split
    next metadata _ =>
      obtain ⟨s₁, hq, hr⟩ := processLidar_refused p env s header payload metadata hdoc
      exact Or.inr ⟨s₁, _, rfl, hq, hr⟩
    next =>
      split
      · exact Or.inr ⟨s, _, rfl, Quiet.refl s, .rejected header _ hdoc⟩
      split
      · exact Or.inr ⟨s, _, rfl, Quiet.refl s, .rejected header _ hdoc⟩
      have hq := shouldProcess_quiet env.due env.wallTime s (topicOrType header)
      rcases hs : s.shouldProcess env.due env.wallTime (topicOrType header) with ⟨_ | _, s'⟩
      · rw [hs] at hq
        exact Or.inr ⟨s', s', rfl, hq, .ignored⟩
      · rw [hs] at hq
        exact Or.inl ⟨_, s', rfl, hq⟩

/-- A message of the current session, the fault apart: it is routed as a value,
or refused before it is one. -/
theorem handlePayload_cases (p : Platform) (env : Env) (s : Service) (payload : DcMessage)
    (hfault : ∀ error, payload ≠ .transportFault error) :
    (∃ parsed s₁, routedValue p env s payload = some parsed ∧ Quiet s s₁ ∧
      Quiet (s₁.runResolve env parsed) (s.handlePayload p env payload)) ∨
    ∃ s₁, routedValue p env s payload = none ∧ Quiet s s₁ ∧
      Refused p payload s₁ (s.handlePayload p env payload) := by
  cases payload with
  | transportFault error => exact absurd rfl (hfault error)
  | text text =>
    rw [handlePayload, routedValue]
    rcases parseJson p.serde (asBytes text) with e | parsed
    · exact Or.inr ⟨s, rfl, Quiet.refl s, .ignored⟩
    · exact Or.inl ⟨parsed, s, rfl, Quiet.refl s,
        (dispatchSubscription_quiet env _ parsed).after
          (handleTextResponse_still p env _ parsed).quiet⟩
  | binary bytes =>
    rw [handlePayload, routedValue]
    rcases dealArrayBuffer_cases p env s bytes with ⟨parsed, s', h, hq⟩ | ⟨s₁, s', h, hq, hr⟩
    · rw [h]
      exact Or.inl ⟨parsed, s', rfl, hq, dispatchSubscription_quiet env _ parsed⟩
    · rw [h]
      exact Or.inr ⟨s₁, rfl, hq, hr⟩

/-! ### Routing, seen from the pending table -/

/-- Routing settles at most one key, with a refusal or with a message filed
under that very key. -/
inductive Settles (s : Service) : Service → Prop
  | nothing (chunks : ChunkAssembler) : Settles s { s with chunkDataStorage := chunks }
  | refusal (chunks : ChunkAssembler) (key reason : String) :
      Settles s (failPending { s with chunkDataStorage := chunks } key reason)
  | answer (chunks : ChunkAssembler) (message : Value) :
      Settles s (resolvePendingResponse { s with chunkDataStorage := chunks }
        (incomingKey message) message)

theorem handleChunkedResponse_settles {env : Env} {s s' : Service} {message : Value}
    (h : s.handleChunkedResponse env message = some s') : Settles s s' := by
  rw [handleChunkedResponse, Option.map_eq_some_iff] at h
  obtain ⟨c, hc, rfl⟩ := h
  rw [feedChunk]
  rcases hp : c.parse with e | ⟨index, total, bytes⟩
  · exact .refusal _ _ _
  · dsimp only
    rcases hi : s.chunkDataStorage.insert (incomingKey message) c.schema.path index total bytes
        env.now with ⟨e | _ | whole, chunks⟩
    · exact .refusal _ _ _
    · exact .nothing _
    · dsimp only [settleChunk]
      split
      · exact .refusal _ _ _
      · obtain ⟨merged, hm⟩ := chunkView_setPath hc hp (bytesToJsonArray whole)
        rw [hm, ← incomingKey_setPath hm]
        exact .answer _ merged

theorem runResolve_settles (env : Env) (s : Service) (message : Value) :
    Settles s (s.runResolve env message) := by
  rw [runResolve]
  split
  · exact .nothing s.chunkDataStorage
  · split
    next s' h => exact handleChunkedResponse_settles h
    next => exact .answer s.chunkDataStorage message

theorem Refused.settles {p : Platform} {payload : DcMessage} {s s' : Service}
    (h : Refused p payload s s') : Settles s s' := by
  cases h with
  | ignored => exact .nothing s.chunkDataStorage
  | rejected message reason _ => exact .refusal _ _ reason
  | unsubmitted message reason _ => exact .refusal s.chunkDataStorage _ reason

/-- With quiet steps around it, that is what a message of the current session
does. -/
theorem handlePayload_settles (p : Platform) (env : Env) (s : Service) (payload : DcMessage)
    (hfault : ∀ error, payload ≠ .transportFault error) :
    ∃ s₁ s₂, Quiet s s₁ ∧ Settles s₁ s₂ ∧ Quiet s₂ (s.handlePayload p env payload) := by
  rcases handlePayload_cases p env s payload hfault with ⟨parsed, s₁, -, hq, hq'⟩ | ⟨s₁, -, hq, hr⟩
  · exact ⟨s₁, _, hq, runResolve_settles env s₁ parsed, hq'⟩
  · exact ⟨s₁, _, hq, hr.settles, Quiet.refl _⟩

end Service

end Unitree
