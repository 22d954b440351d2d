/-
Two services in step.

Of two services that agree in what decides about calls (`Twins`), every method does
the same to both.  They may differ in what is written and not read there: the flags,
the validation key, the subscriptions, what was sent.  And one may lack the transfer
of a key that the other has, as long as nothing depends on it: then an operation of
the assembler on another key comes out the same, if it finds as much room.

* `without_insert`, `without_expire` — the operations of the assembler, without a
  key;
* `settle_congr` to `publishRequestNew_congr` — the methods, one by one;
* `processIngress_congr`, `expireChunks_congr` — what they ask of a key that is left
  out.
-/
import UnitreeWebrtc.Provenance

namespace Unitree

/-! ### The store without a key -/

namespace ChunkAssembler

/-- The store without the transfer of a key, if one is named. -/
def without (a : ChunkAssembler) : Option String → ChunkAssembler
  | none => a
  | some key => a.remove key

/-- The transfer of `key` leaves as much room for a chunk of another key as there is
without it. -/
structure Uncrowded (a : ChunkAssembler) (key other : String) (bytes : List UInt8) : Prop where
  size : a.transfers.lookup other = none → (a.remove key).transfers.size < maxTransfers →
    a.transfers.size < maxTransfers
  retained : bytes.length ≤ maxRetainedBytes - (a.remove key).retained →
    bytes.length ≤ maxRetainedBytes - a.retained

variable {a : ChunkAssembler} {off : Option String}

theorem without_remove (a : ChunkAssembler) (off : Option String) (key : String) :
    (a.remove key).without off = (a.without off).remove key := by
  cases off with
  | none => rfl
  | some key' => exact congrArg ChunkAssembler.mk (AList.erase_erase key key' a.transfers)

theorem without_clear (a : ChunkAssembler) (off : Option String) :
    a.clear.without off = (a.without off).clear := by
  cases off <;> rfl

theorem remove_remove (a : ChunkAssembler) (key : String) :
    (a.remove key).remove key = a.remove key :=
  congrArg ChunkAssembler.mk (Table.erase_of_lookup_none (AList.lookup_erase key a.transfers))

/-- An insertion under `key` touches the transfer of `key` only. -/
theorem insert_remove (a : ChunkAssembler) (key schema : String) (index total : ℕ)
    (bytes : List UInt8) (now : ℕ) :
    (a.insert key schema index total bytes now).2.remove key = a.remove key := by
  rcases insert_cases a key schema index total bytes now with
    ⟨e, he⟩ | ⟨-, he⟩ | ⟨-, -, he⟩ | ⟨-, -, he⟩
  · rw [he]
    exact remove_remove a key
  · rw [he]
  · rw [he]
    refine congrArg ChunkAssembler.mk (AList.ext ?_)
    simp only [Table.entries_erase, AList.entries_insert]
    rw [List.filter_cons_of_neg (by simp)]
    change List.filter _ (AList.erase key a.transfers).entries = _
    rw [Table.entries_erase, List.filter_filter]
    simp
  · rw [he]
    exact remove_remove a key

/-- The checks on a chunk of another key come out the same without `key`. -/
theorem check_remove {key other schema : String} {index total : ℕ} {bytes : List UInt8} {now : ℕ}
    (hne : other ≠ key) (hroom : a.Uncrowded key other bytes) :
    (a.remove key).check other schema index total bytes now
      = a.check other schema index total bytes now := by
  have hlookup : (a.remove key).transfers.lookup other = a.transfers.lookup other :=
    AList.lookup_erase_ne hne
  have hretained : (a.remove key).checkRetained bytes = a.checkRetained bytes := by
    have hle := Table.weight_erase_le Transfer.bytes a.transfers key
    have hiff : bytes.length > maxRetainedBytes - (a.remove key).retained
        ↔ bytes.length > maxRetainedBytes - a.retained := by
      constructor
      · intro h
        simp only [retained, remove] at h ⊢
        omega
      · intro h
        by_contra hnot
        have := hroom.retained (not_lt.mp hnot)
        omega
    rw [checkRetained, checkRetained]
    simp only [hiff]
  rw [check, check, hlookup, hretained]
  rcases hl : a.transfers.lookup other with _ | t
  · have hsize : (a.remove key).transfers.size ≥ maxTransfers
        ↔ a.transfers.size ≥ maxTransfers := by
      have hle := Table.size_erase_le a.transfers key
      constructor
      · intro h
        exact le_trans h hle
      · intro h
        by_contra hnot
        have := hroom.size hl (not_le.mp hnot)
        omega
    simp only [hsize]
  · rfl

theorem without_insert {key schema : String} {index total : ℕ} {bytes : List UInt8} {now : ℕ}
    (hroom : ∀ off', off = some off' → key ≠ off' ∧ a.Uncrowded off' key bytes) :
    (a.without off).insert key schema index total bytes now =
      ((a.insert key schema index total bytes now).1,
        (a.insert key schema index total bytes now).2.without off) := by
  cases off with
  | none => rfl
  | some off =>
    obtain ⟨hne, hroom⟩ := hroom off rfl
    have hentry : (a.remove off).entry key schema total now = a.entry key schema total now := by
      rw [entry, entry, remove, AList.lookup_erase_ne hne]
    rw [without, insert, insert, insertChecked, insertChecked, check_remove hne hroom, hentry]
    rcases a.check key schema index total bytes now with e | _ | _
    · exact congrArg (Prod.mk _) (without_remove a (some off) key).symm
    · rfl
    · by_cases hs : ((a.entry key schema total now).store index bytes).chunks.size ≠ total
      · simp only [if_pos hs]
        refine congrArg (Prod.mk _) (congrArg ChunkAssembler.mk ?_)
        exact (Table.erase_insert_of_ne hne).symm
      · simp only [if_neg hs]
        exact congrArg (Prod.mk _) (without_remove a (some off) key).symm

theorem expired_remove (a : ChunkAssembler) (key : String) (now : ℕ) :
    (a.remove key).expired now = (a.expired now).filter fun k => k ≠ key := by
  rw [expired, expired, remove, Table.entries_erase, List.filter_filter, List.filter_map,
    List.filter_filter]
  refine congrArg (List.map _) (List.filter_congr fun e _ => ?_)
  simp [Bool.and_comm]

/-- What expiry leaves without a key, it leaves of the store without that key. -/
theorem without_expire (a : ChunkAssembler) (key : String) (now : ℕ) :
    ((a.remove key).expire now).2 = (a.expire now).2.remove key := by
  rw [expire, expire, expired_remove]
  exact congrArg ChunkAssembler.mk (Table.erase_eraseAll key (a.expired now) a.transfers).symm

end ChunkAssembler

/-! ### Services in step -/

namespace Service

/-- What decides about calls is the same, the transfer of a key apart, if one is named. -/
structure Twins (off : Option String) (s s' : Service) : Prop where
  pending : s'.pendingCallbacks = s.pendingCallbacks
  chunks : s'.chunkDataStorage = s.chunkDataStorage.without off
  heard : s'.heartbeatLastResponse = s.heartbeatLastResponse
  running : s'.heartbeatRunning = s.heartbeatRunning
  throttle : s'.lastProcessTime = s.lastProcessTime
  decoder : s'.decoderType = s.decoderType
  session : s'.sessionId = s.sessionId
  sequence : s'.requestSequence = s.requestSequence
  nextId : s'.nextId = s.nextId
  completions : s'.completions = s.completions

variable {off : Option String} {s s' t t' : Service}

theorem Twins.refl (s : Service) : Twins none s s :=
  ⟨rfl, rfl, rfl, rfl, rfl, rfl, rfl, rfl, rfl, rfl⟩

theorem Twins.trans (h : Twins none s s') (h' : Twins none s' t) : Twins none s t :=
  ⟨h'.pending.trans h.pending, h'.chunks.trans h.chunks, h'.heard.trans h.heard,
    h'.running.trans h.running, h'.throttle.trans h.throttle, h'.decoder.trans h.decoder,
    h'.session.trans h.session, h'.sequence.trans h.sequence, h'.nextId.trans h.nextId,
    h'.completions.trans h.completions⟩

/-- What leaves each of two twins as it was leaves them twins. -/
theorem Twins.after (h : Twins off s s') (ht : Twins none s t) (ht' : Twins none s' t') :
    Twins off t t' where
  pending := ht'.pending.trans (h.pending.trans ht.pending.symm)
  chunks := by
    rw [ht'.chunks, ht.chunks]
    exact h.chunks
  heard := ht'.heard.trans (h.heard.trans ht.heard.symm)
  running := ht'.running.trans (h.running.trans ht.running.symm)
  throttle := ht'.throttle.trans (h.throttle.trans ht.throttle.symm)
  decoder := ht'.decoder.trans (h.decoder.trans ht.decoder.symm)
  session := ht'.session.trans (h.session.trans ht.session.symm)
  sequence := ht'.sequence.trans (h.sequence.trans ht.sequence.symm)
  nextId := ht'.nextId.trans (h.nextId.trans ht.nextId.symm)
  completions := ht'.completions.trans (h.completions.trans ht.completions.symm)

/-! What only sends or writes a flag decides nothing. -/

theorem twins_flags (s : Service) (subscriptions : Finset String) (validationKey : String)
    (dataChannelOpened networkProbeRunning : Bool) (heartbeatStopTx : Option ℕ) :
    Twins none s { s with
      subscriptions := subscriptions
      validationKey := validationKey
      dataChannelOpened := dataChannelOpened
      networkProbeRunning := networkProbeRunning
      heartbeatStopTx := heartbeatStopTx } := ⟨rfl, rfl, rfl, rfl, rfl, rfl, rfl, rfl, rfl, rfl⟩

theorem emit_twins (s : Service) (e : Effect) (he : ∀ token result, e ≠ .complete token result) :
    Twins none s (s.emit e) :=
  ⟨rfl, rfl, rfl, rfl, rfl, rfl, rfl, rfl, rfl, (emit_quiet s e he).completions⟩

theorem sendMessageLocked_twins (env : Env) (s : Service) (topic : String) (data : Option Value)
    (msgType : String) : Twins none s (s.sendMessageLocked env topic data msgType).2 := by
  rw [sendMessageLocked]
  split
  · exact emit_twins s _ (by simp)
  · exact .refl s

theorem sendValidation_twins (p : Platform) (env : Env) (s : Service) (key : String) :
    Twins none s (s.sendValidation p env key) := by
  rw [sendValidation]
  split
  · exact .refl s
  · exact sendMessageLocked_twins env s _ _ _

theorem requestNetworkStatusOnce_twins (env : Env) (s : Service) :
    Twins none s (s.requestNetworkStatusOnce env) := by
  rw [requestNetworkStatusOnce]
  split
  · exact .refl s
  · exact (twins_flags s _ _ _ true _).trans (sendMessageLocked_twins env _ _ _ _)

theorem handleRtcInnerReq_twins (env : Env) (s : Service) (message : Value) :
    Twins none s (s.handleRtcInnerReq env message) := by
  rw [handleRtcInnerReq]
  split
  · exact .refl s
  next info _ =>
    have hecho : Twins none s (if (info.get "req_type").bind Value.asStr
        = some "rtt_probe_send_from_mechine" then
          (s.sendMessageLocked env "" (some info) DcType.rtcInnerReq).2 else s) := by
      split
      · exact sendMessageLocked_twins env s _ _ _
      · exact .refl s
    dsimp only
    split
    · exact hecho.trans (twins_flags _ _ _ _ false _)
    · exact hecho

theorem submit_twins (p : Platform) (env : Env) (s : Service) (request : LidarDecodeRequest) :
    Twins none s (s.submit p env request).2 := by
  rw [submit]
  split
  · exact .refl s
  split
  · exact .refl s
  split
  · exact .refl s
  · exact emit_twins s _ (by simp)

/-! What settles, settles the same calls the same way. -/

theorem settle_congr (h : Twins off s s') (key : String)
    (answer : PendingCallback → PortResult Value) :
    Twins off (s.settle key answer) (s'.settle key answer) := by
  rw [settle, settle, h.pending]
  rcases s.pendingCallbacks.lookup key with _ | callback
  · exact h
  · refine { h with pending := rfl, chunks := h.chunks, completions := ?_ }
    · rw [completions_emit_complete, completions_emit_complete]
      exact congrArg (· ++ _) h.completions

theorem failPending_congr (h : Twins off s s') (key reason : String) :
    Twins off (s.failPending key reason) (s'.failPending key reason) := settle_congr h key _

theorem resolvePendingResponse_congr (h : Twins off s s') (key : String) (message : Value) :
    Twins off (s.resolvePendingResponse key message) (s'.resolvePendingResponse key message) := by
  rw [resolvePendingResponse, resolvePendingResponse, h.session]
  exact settle_congr h key _

theorem failAllPending_congr (h : Twins off s s') (reason : String) :
    Twins off (s.failAllPending reason) (s'.failAllPending reason) := by
  refine { h with pending := rfl, chunks := h.chunks, completions := ?_ }
  rw [completions_failAllPending, completions_failAllPending, h.completions, h.pending]

/-- The chunk that the message is, if it is one that can be read, is of another key, and
finds as much room as without that one. -/
def Clear (off : Option String) (a : ChunkAssembler) (message : Value) : Prop :=
  ∀ off', off = some off' → (message.get "type").isSome → ∀ c index total bytes,
    chunkView message = some c → c.parse = .ok (index, total, bytes) →
      incomingKey message ≠ off' ∧ a.Uncrowded off' (incomingKey message) bytes

theorem store_congr (h : Twins off s s') (chunks : ChunkAssembler) :
    Twins off { s with chunkDataStorage := chunks }
      { s' with chunkDataStorage := chunks.without off } :=
  ⟨h.pending, rfl, h.heard, h.running, h.throttle, h.decoder, h.session, h.sequence, h.nextId,
    h.completions⟩

theorem storeRemove_congr (h : Twins off s s') (key : String) :
    Twins off { s with chunkDataStorage := s.chunkDataStorage.remove key }
      { s' with chunkDataStorage := s'.chunkDataStorage.remove key } := by
  rw [h.chunks, ← ChunkAssembler.without_remove]
  exact store_congr h _

theorem settleChunk_congr (h : Twins off s s') (message : Value) (schema : ChunkSchema)
    (result : PortResult (Option (List UInt8))) :
    Twins off (s.settleChunk message schema result) (s'.settleChunk message schema result) := by
  rcases result with e | _ | bytes
  · exact failPending_congr (storeRemove_congr h _) _ _
  · exact h
  · simp only [settleChunk]
    split
    · exact failPending_congr h _ _
    · split
      · exact resolvePendingResponse_congr h _ _
      · exact h

theorem handleChunkedResponse_congr (env : Env) {message : Value} {c : ChunkView}
    (h : Twins off s s') (htype : (message.get "type").isSome) (hc : chunkView message = some c)
    (hclear : Clear off s.chunkDataStorage message) :
    ∃ t t', s.handleChunkedResponse env message = some t ∧
      s'.handleChunkedResponse env message = some t' ∧ Twins off t t' := by
  rw [handleChunkedResponse, handleChunkedResponse, hc]
  refine ⟨_, _, rfl, rfl, ?_⟩
  dsimp only [feedChunk]
  rcases hp : c.parse with e | ⟨index, total, bytes⟩
  · have hsame : Twins off { s with chunkDataStorage := s.chunkDataStorage }
        { s' with chunkDataStorage := s'.chunkDataStorage } := h
    exact settleChunk_congr hsame _ _ _
  · dsimp only
    rw [h.chunks, ChunkAssembler.without_insert
      fun off' hoff => hclear off' hoff htype c index total bytes hc hp]
    exact settleChunk_congr (store_congr h _) _ _ _

theorem runResolve_congr {env : Env} {message : Value} (h : Twins off s s')
    (hclear : Clear off s.chunkDataStorage message) :
    Twins off (s.runResolve env message) (s'.runResolve env message) := by
  rw [runResolve, runResolve]
  split
  · exact h
  next htype =>
    rcases hc : chunkView message with _ | c
    · have hnone : ∀ u : Service, u.handleChunkedResponse env message = none := fun u => by
        rw [handleChunkedResponse, hc]
        rfl
      rw [hnone, hnone]
      exact resolvePendingResponse_congr h _ _
    · obtain ⟨t, t', ht, ht', htwins⟩ := handleChunkedResponse_congr env h
        (by simpa [Option.isSome_iff_ne_none] using htype) hc hclear
      rw [ht, ht']
      exact htwins

/-! What answers the robot, or asks the throttle. -/

theorem startHeartbeatInSession_congr (h : Twins off s s') :
    Twins off s.startHeartbeatInSession s'.startHeartbeatInSession := by
  rw [startHeartbeatInSession, startHeartbeatInSession, h.running]
  split
  · exact h
  · have hstarted : Twins off
        { s with
          heartbeatRunning := true
          heartbeatStopTx := some s.nextId
          nextId := s.nextId + 1 }
        { s' with
          heartbeatRunning := true
          heartbeatStopTx := some s'.nextId
          nextId := s'.nextId + 1 } :=
      ⟨h.pending, h.chunks, h.heard, rfl, h.throttle, h.decoder, h.session, h.sequence,
        congrArg (· + 1) h.nextId, h.completions⟩
    exact hstarted.after (emit_twins _ _ fun _ _ => Effect.noConfusion)
      (emit_twins _ _ fun _ _ => Effect.noConfusion)

theorem handleValidation_congr (h : Twins off s s') (p : Platform) (env : Env)
    (message : Value) :
    Twins off (s.handleValidation p env message) (s'.handleValidation p env message) := by
  rw [handleValidation, handleValidation]
  split
  · exact h
  split
  · have hheard : Twins off
        { s with dataChannelOpened := true, heartbeatLastResponse := env.wallSecs }
        { s' with dataChannelOpened := true, heartbeatLastResponse := env.wallSecs } :=
      ⟨h.pending, h.chunks, rfl, h.running, h.throttle, h.decoder, h.session, h.sequence,
        h.nextId, h.completions⟩
    exact (startHeartbeatInSession_congr hheard).after (requestNetworkStatusOnce_twins env _)
      (requestNetworkStatusOnce_twins env _)
  · exact h.after ((twins_flags s _ _ _ _ _).trans (sendValidation_twins p env _ _))
      ((twins_flags s' _ _ _ _ _).trans (sendValidation_twins p env _ _))

theorem handleValidationErr_twins (p : Platform) (env : Env) (s : Service) (message : Value) :
    Twins none s (s.handleValidationErr p env message) := by
  rw [handleValidationErr]
  split
  · exact sendValidation_twins p env s _
  · exact .refl s

theorem handleTextResponse_congr (h : Twins off s s') (p : Platform) (env : Env)
    (message : Value) :
    Twins off (s.handleTextResponse p env message) (s'.handleTextResponse p env message) := by
  simp only [handleTextResponse]
  split
  · exact handleValidation_congr h p env message
  split
  · exact h.after (handleRtcInnerReq_twins env s message) (handleRtcInnerReq_twins env s' message)
  split
  · exact ⟨h.pending, h.chunks, rfl, h.running, h.throttle, h.decoder, h.session, h.sequence,
      h.nextId, h.completions⟩
  split
  · exact h.after (handleValidationErr_twins p env s message)
      (handleValidationErr_twins p env s' message)
  · exact h

theorem shouldProcess_congr (h : Twins off s s') (due : ℚ → ℚ → ℚ → Bool) (now : ℚ)
    (topicOrType : String) :
    (s'.shouldProcess due now topicOrType).1 = (s.shouldProcess due now topicOrType).1 ∧
      Twins off (s.shouldProcess due now topicOrType).2
        (s'.shouldProcess due now topicOrType).2 := by
  rw [shouldProcess, shouldProcess, h.throttle]
  split
  · exact ⟨rfl, h⟩
  · dsimp only
    split
    · exact ⟨rfl, h.pending, h.chunks, h.heard, h.running, rfl, h.decoder, h.session, h.sequence,
        h.nextId, h.completions⟩
    · exact ⟨rfl, h⟩

/-- As far as calls go, a dispatch asks the throttle, and no more. -/
theorem dispatchSubscription_twins (env : Env) (s : Service) (message : Value) :
    Twins none
      (if strOf message "topic" = "" then s
        else (s.shouldProcess env.due env.dispatchTime (strOf message "topic")).2)
      (s.dispatchSubscription env message) := by
  simp only [dispatchSubscription]
  split
  · exact .refl s
  · rcases s.shouldProcess env.due env.dispatchTime (strOf message "topic") with ⟨_ | _, t⟩
    · exact .refl t
    · dsimp only
      split
      · exact emit_twins t _ (by simp)
      · exact .refl t

theorem dispatchSubscription_congr (h : Twins off s s') (env : Env) (message : Value) :
    Twins off (s.dispatchSubscription env message) (s'.dispatchSubscription env message) := by
  refine Twins.after ?_ (dispatchSubscription_twins env s message)
    (dispatchSubscription_twins env s' message)
  split
  · exact h
  · exact (shouldProcess_congr h env.due env.dispatchTime _).2

theorem rejectBinaryResponse_congr (h : Twins off s s') (message : Value) (reason : String) :
    Twins off (s.rejectBinaryResponse message reason) (s'.rejectBinaryResponse message reason) :=
  failPending_congr (storeRemove_congr h _) _ _

theorem submit_fst (p : Platform) (env : Env) (s s' : Service) (request : LidarDecodeRequest) :
    (s'.submit p env request).1 = (s.submit p env request).1 := by
  rw [submit, submit]
  split
  · rfl
  split
  · rfl
  split <;> rfl

theorem processLidar_congr (h : Twins off s s') (p : Platform) (env : Env) (header : Value)
    (body : List UInt8) (metadata : LidarMetadata) :
    Twins off (s.processLidar p env header body metadata)
      (s'.processLidar p env header body metadata) := by
  rw [processLidar, processLidar, h.decoder]
  split
  · exact rejectBinaryResponse_congr h _ _
  split
  · exact rejectBinaryResponse_congr h _ _
  obtain ⟨hverdict, htwins⟩ := shouldProcess_congr h env.due env.wallTime (topicOrType header)
  rcases hs : s.shouldProcess env.due env.wallTime (topicOrType header) with ⟨_ | _, t⟩ <;>
    rcases hs' : s'.shouldProcess env.due env.wallTime (topicOrType header) with ⟨_ | _, t'⟩ <;>
    rw [hs, hs'] at hverdict htwins
  · exact htwins
  · exact absurd hverdict (by simp)
  · exact absurd hverdict (by simp)
  · dsimp only at htwins ⊢
    rw [htwins.session]
    let request : LidarDecodeRequest := ⟨t.sessionId, topicOrType header, header, body, metadata⟩
    have hsame := submit_fst p env t t' request
    have hsubmit := htwins.after (submit_twins p env t request) (submit_twins p env t' request)
    rcases hr : t.submit p env request with ⟨e | _, u⟩ <;>
      rcases hr' : t'.submit p env request with ⟨e' | _, u'⟩ <;>
      rw [hr, hr'] at hsame hsubmit
    · obtain rfl : e' = e := by simpa using hsame
      exact failPending_congr hsubmit _ _
    · exact absurd hsame (by simp)
    · exact absurd hsame (by simp)
    · exact hsubmit

theorem dealArrayBuffer_congr (h : Twins off s s') (p : Platform) (env : Env)
    (buffer : List UInt8) :
    (s'.dealArrayBuffer p env buffer).1 = (s.dealArrayBuffer p env buffer).1 ∧
      Twins off (s.dealArrayBuffer p env buffer).2 (s'.dealArrayBuffer p env buffer).2 := by
  rw [dealArrayBuffer, dealArrayBuffer]
  split
  · exact ⟨rfl, h⟩
  split
  · exact ⟨rfl, h⟩
  next frame header body _ =>
    simp only [processBinaryPayload]
    split
    · exact ⟨rfl, processLidar_congr h p env header body _⟩
    split
    · exact ⟨rfl, rejectBinaryResponse_congr h _ _⟩
    split
    · exact ⟨rfl, rejectBinaryResponse_congr h _ _⟩
    obtain ⟨hverdict, htwins⟩ := shouldProcess_congr h env.due env.wallTime (topicOrType header)
    rcases hs : s.shouldProcess env.due env.wallTime (topicOrType header) with ⟨_ | _, t⟩ <;>
      rcases hs' : s'.shouldProcess env.due env.wallTime (topicOrType header) with ⟨_ | _, t'⟩ <;>
      rw [hs, hs'] at hverdict htwins
    · exact ⟨rfl, htwins⟩
    · exact absurd hverdict (by simp)
    · exact absurd hverdict (by simp)
    · exact ⟨rfl, htwins⟩

/-! The router and the lifecycle. -/

theorem bumpSession_congr (h : Twins off s s') : Twins off s.bumpSession s'.bumpSession := by
  have hbumped : Twins off { s with sessionId := s.sessionId + 1 }
      { s' with sessionId := s'.sessionId + 1 } :=
    ⟨h.pending, h.chunks, h.heard, h.running, h.throttle, h.decoder, congrArg (· + 1) h.session,
      h.sequence, h.nextId, h.completions⟩
  exact hbumped.after (emit_twins _ _ fun _ _ => Effect.noConfusion)
    (emit_twins _ _ fun _ _ => Effect.noConfusion)

theorem handleFault_congr (h : Twins off s s') (error : String) :
    Twins off (s.handleFault error) (s'.handleFault error) := by
  have hbumped := bumpSession_congr h
  refine failAllPending_congr ?_ error
  exact ⟨hbumped.pending, congrArg ChunkAssembler.clear hbumped.chunks |>.trans
      (ChunkAssembler.without_clear _ off).symm, hbumped.heard, rfl, hbumped.throttle,
    hbumped.decoder, hbumped.session, hbumped.sequence, hbumped.nextId, hbumped.completions⟩

theorem startNewSession_congr (h : Twins off s s') :
    Twins off s.startNewSession s'.startNewSession := by
  have hbumped := bumpSession_congr h
  refine failAllPending_congr ?_ _
  exact ⟨hbumped.pending, congrArg ChunkAssembler.clear hbumped.chunks |>.trans
      (ChunkAssembler.without_clear _ off).symm, rfl, rfl, hbumped.throttle,
    hbumped.decoder, hbumped.session, hbumped.sequence, hbumped.nextId, hbumped.completions⟩

/-- A frame that is routed has not touched the store yet. -/
theorem dealArrayBuffer_chunks {p : Platform} {env : Env} {bytes : List UInt8} {parsed : Value}
    (h : s.dealArrayBuffer p env bytes = (some parsed, t)) :
    t.chunkDataStorage = s.chunkDataStorage := by
  rcases dealArrayBuffer_cases p env s bytes with ⟨_, _, hdeal, hq⟩ | ⟨_, _, hdeal, -, -⟩
  · rw [h, Prod.mk.injEq] at hdeal
    rw [hdeal.2]
    exact hq.chunks
  · exact absurd (h.symm.trans hdeal) (by simp)

theorem handlePayload_congr (h : Twins off s s') (p : Platform) (env : Env) (payload : DcMessage)
    (hclear : ∀ parsed, routedValue p env s payload = some parsed →
      Clear off s.chunkDataStorage parsed) :
    Twins off (s.handlePayload p env payload) (s'.handlePayload p env payload) := by
  cases payload with
  | transportFault error => exact handleFault_congr h error
  | text text =>
    rw [handlePayload, handlePayload]
    rw [routedValue] at hclear
    rcases hp : parseJson p.serde (asBytes text) with e | parsed
    · exact h
    · rw [hp] at hclear
      exact dispatchSubscription_congr (handleTextResponse_congr
        (runResolve_congr h (hclear parsed rfl)) p env parsed) env parsed
  | binary bytes =>
    obtain ⟨hsame, htwins⟩ := dealArrayBuffer_congr h p env bytes
    rw [handlePayload, handlePayload]
    rw [routedValue] at hclear
    rcases hd : s.dealArrayBuffer p env bytes with ⟨_ | parsed, t⟩ <;>
      rcases hd' : s'.dealArrayBuffer p env bytes with ⟨_ | parsed', t'⟩ <;>
      rw [hd, hd'] at hsame htwins
    · exact htwins
    · exact absurd hsame (by simp)
    · exact absurd hsame (by simp)
    · obtain rfl : parsed' = parsed := by simpa using hsame
      rw [hd] at hclear
      refine dispatchSubscription_congr (runResolve_congr htwins ?_) env parsed'
      rw [dealArrayBuffer_chunks hd]
      exact hclear parsed' rfl

theorem processIngress_congr (h : Twins off s s') (p : Platform) (env : Env)
    (message : IngressMessage)
    (hclear : message.generation = s.sessionId → ∀ parsed,
      routedValue p env s message.payload = some parsed →
        Clear off s.chunkDataStorage parsed) :
    Twins off (s.processIngress p env message) (s'.processIngress p env message) := by
  rw [processIngress, processIngress, h.session]
  split
  · exact h
  next hgen => exact handlePayload_congr h p env message.payload (hclear (not_not.mp hgen))

theorem heartbeatTick_congr (h : Twins off s s') (env : Env) (epoch : ℕ) :
    Twins off (s.heartbeatTick env epoch) (s'.heartbeatTick env epoch) := by
  rw [heartbeatTick, heartbeatTick, h.session, h.heard]
  split
  · exact h
  split
  · have hstopped : Twins off { s.stopHeartbeat with dataChannelOpened := false }
        { s'.stopHeartbeat with dataChannelOpened := false } :=
      ⟨h.pending, h.chunks, h.heard, rfl, h.throttle, h.decoder, h.session, h.sequence, h.nextId,
        h.completions⟩
    have hfailed := failAllPending_congr hstopped "Heartbeat timeout"
    dsimp only
    rw [hfailed.chunks, ← ChunkAssembler.without_clear]
    exact store_congr hfailed _
  split
  · exact h.after (sendMessageLocked_twins env s _ _ _) (sendMessageLocked_twins env s' _ _ _)
  · exact h

/-- A key that nobody waits for can be left out of a loop of refusals. -/
theorem failEach_filter {key : String} (reason : String) : ∀ (keys : List String) {s : Service},
    s.pendingCallbacks.lookup key = none →
      (keys.filter fun k => k ≠ key).foldl (fun s k => s.failPending k reason) s
        = keys.foldl (fun s k => s.failPending k reason) s := by
  intro keys
  induction keys with
  | nil => intro s _; rfl
  | cons k rest ih =>
    intro s hnone
    by_cases hk : k = key
    · subst hk
      have hself : s.failPending k reason = s := by rw [failPending, settle, hnone]
      rw [List.filter_cons_of_neg (by simp), List.foldl_cons, hself]
      exact ih hnone
    · rw [List.filter_cons_of_pos (by simpa using hk), List.foldl_cons, List.foldl_cons]
      refine ih ?_
      rcases hl : (s.failPending k reason).pendingCallbacks.lookup key with _ | cb
      · rfl
      · exact absurd (hnone.symm.trans ((failPending_unanswering s k reason).entries hl)) (by simp)

theorem failEach_congr (reason : String) : ∀ (keys : List String) {s s' : Service},
    Twins off s s' → Twins off (keys.foldl (fun s k => s.failPending k reason) s)
      (keys.foldl (fun s k => s.failPending k reason) s') := by
  intro keys
  induction keys with
  | nil => intro s s' h; exact h
  | cons k rest ih => intro s s' h; exact ih (failPending_congr h k reason)

theorem expireChunks_congr (h : Twins off s s') (env : Env)
    (hidle : ∀ key, off = some key → key ∈ s.chunkDataStorage.expired env.now →
      s.pendingCallbacks.lookup key = none) :
    Twins off (s.expireChunks env) (s'.expireChunks env) := by
  rw [expireChunks, expireChunks]
  have hfailed := failEach_congr "Chunk assembly deadline expired"
    (s'.chunkDataStorage.expired env.now)
    (store_congr h (s.chunkDataStorage.expire env.now).2)
  have hstore : (s'.chunkDataStorage.expire env.now).2
      = (s.chunkDataStorage.expire env.now).2.without off := by
    rw [h.chunks]
    cases off with
    | none => rfl
    | some key => exact ChunkAssembler.without_expire _ key env.now
  -- the keys that expire are the same, but for one that nobody waits for
  have hkeys : (s'.chunkDataStorage.expired env.now).foldl
        (fun s k => s.failPending k "Chunk assembly deadline expired")
        { s with chunkDataStorage := (s.chunkDataStorage.expire env.now).2 }
      = (s.chunkDataStorage.expired env.now).foldl
        (fun s k => s.failPending k "Chunk assembly deadline expired")
        { s with chunkDataStorage := (s.chunkDataStorage.expire env.now).2 } := by
    rw [h.chunks]
    cases off with
    | none => rfl
    | some key =>
      rw [ChunkAssembler.without, ChunkAssembler.expired_remove]
      by_cases hkey : key ∈ s.chunkDataStorage.expired env.now
      · exact failEach_filter _ _ (hidle key rfl hkey)
      · rw [List.filter_eq_self.mpr fun k hk => decide_eq_true (ne_of_mem_of_not_mem hk hkey)]
  rw [hkeys, ← hstore] at hfailed
  exact hfailed

/-! Calls. -/

theorem dropGuard_congr (h : Twins off s s') (key : String) (token : ℕ) :
    Twins off (s.dropGuard key token) (s'.dropGuard key token) := by
  rw [dropGuard, dropGuard, h.pending]
  split
  · exact h
  split
  · have hremoved := storeRemove_congr h key
    exact { hremoved with
      pending := rfl, chunks := hremoved.chunks, completions := h.completions }
  · exact h

theorem register_congr (h : Twins off s s') (key : String) (expectation : ResponseExpectation) :
    Twins off (s.register key expectation) (s'.register key expectation) := by
  rw [register, register, h.pending, h.nextId, h.session]
  exact ⟨rfl, h.chunks, h.heard, h.running, h.throttle, h.decoder, rfl, h.sequence, rfl,
    h.completions⟩

theorem sendMessageLocked_fst (env : Env) (s s' : Service) (topic : String) (data : Option Value)
    (msgType : String) :
    (s'.sendMessageLocked env topic data msgType).1
      = (s.sendMessageLocked env topic data msgType).1 := by
  rw [sendMessageLocked, sendMessageLocked]
  split <;> rfl

theorem publishWithExpectation_congr (h : Twins off s s') (env : Env) (topic : String)
    (data : Option Value) (msgType : String) (expectation : ResponseExpectation) :
    (s'.publishWithExpectation env topic data msgType expectation).1
        = (s.publishWithExpectation env topic data msgType expectation).1 ∧
      Twins off (s.publishWithExpectation env topic data msgType expectation).2
        (s'.publishWithExpectation env topic data msgType expectation).2 := by
  simp only [publishWithExpectation, h.pending]
  split
  · exact ⟨rfl, h⟩
  split
  · exact ⟨rfl, h⟩
  split
  · exact ⟨rfl, h⟩
  · let key := outgoingKey msgType topic data
    have hreg := register_congr h key expectation
    have hsame := sendMessageLocked_fst env (s.register key expectation)
      (s'.register key expectation) topic data msgType
    have hsent := hreg.after (sendMessageLocked_twins env _ topic data msgType)
      (sendMessageLocked_twins env _ topic data msgType)
    rw [h.nextId]
    rcases hs : (s.register key expectation).sendMessageLocked env topic data msgType with
      ⟨e | _, t⟩ <;>
      rcases hs' : (s'.register key expectation).sendMessageLocked env topic data msgType with
        ⟨e' | _, t'⟩ <;>
      rw [hs, hs'] at hsame hsent
    · obtain rfl : e' = e := by simpa using hsame
      exact ⟨rfl, dropGuard_congr hsent key s.nextId⟩
    · exact absurd hsame (by simp)
    · exact absurd hsame (by simp)
    · exact ⟨rfl, hsent⟩

theorem publish_congr (h : Twins off s s') (fits : ℚ → Bool) (env : Env) (topic : String)
    (data : Option Value) (msgType : Option String) (timeout : Option Seconds) :
    (s'.publish fits env topic data msgType timeout).1
        = (s.publish fits env topic data msgType timeout).1 ∧
      Twins off (s.publish fits env topic data msgType timeout).2
        (s'.publish fits env topic data msgType timeout).2 := by
  rw [publish, publish]
  split
  · exact ⟨rfl, h⟩
  · exact publishWithExpectation_congr h env topic data _ _

theorem wireId_congr (h : Twins off s s') (options : Value) :
    (s'.wireId options).1 = (s.wireId options).1 ∧
      Twins off (s.wireId options).2 (s'.wireId options).2 := by
  rw [wireId, wireId]
  split
  · exact ⟨rfl, h⟩
  · refine ⟨by simp only [generatedIdentityId, h.sequence], ?_⟩
    exact ⟨h.pending, h.chunks, h.heard, h.running, h.throttle, h.decoder, h.session,
      congrArg (fun n => (n + 1) % 2 ^ 64) h.sequence, h.nextId, h.completions⟩

theorem publishRequestNew_congr (h : Twins off s s') (p : Platform) (fits : ℚ → Bool) (env : Env)
    (topic : String) (options : Value) (timeout : Option Seconds) :
    (s'.publishRequestNew p fits env topic options timeout).1
        = (s.publishRequestNew p fits env topic options timeout).1 ∧
      Twins off (s.publishRequestNew p fits env topic options timeout).2
        (s'.publishRequestNew p fits env topic options timeout).2 := by
  obtain ⟨hid, htwins⟩ := wireId_congr h options
  simp only [publishRequestNew, hid]
  split
  · exact ⟨rfl, h⟩
  split
  · exact ⟨rfl, htwins⟩
  · exact publishWithExpectation_congr htwins env topic _ _ _

end Service

end Unitree
