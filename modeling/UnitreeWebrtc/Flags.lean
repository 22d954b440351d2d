/-
The flags of a session.

`data_channel_opened` and `heartbeat_running` are written all over the service,
but almost every one of these stores is a `false`.  Below, every step of the
service is sorted by what it can do to the two flags: most steps stay away from
them, a calm step can only lower them, and the one thing that is not calm is a
`Validation Ok.` of the current generation.

The generations that the service announces to the transport go the same way:
they are never ahead of the session id.

* `Service.Apart`, `Service.Calm`, `Service.Resets` — flags that are not touched,
  flags that fall, flags that are down;
* `Service.processIngress_apart`, `Service.processIngress_cases` — the one message
  that raises a flag;
* `Sys.step_apart`, `Sys.step_calm` — and no other step does.
-/
import UnitreeWebrtc.Epoch

namespace Unitree

/-- A generation for the transport. -/
def Effect.announces : Effect → Bool
  | .setIngressGeneration _ => true
  | _ => false

/-- A heartbeat worker. -/
def Effect.spawns : Effect → Bool
  | .spawnHeartbeat _ _ => true
  | _ => false

/-- A message of the heartbeat's type. -/
def Effect.beats : Effect → Bool
  | .sendText message => strOf message "type" = DcType.heartbeat
  | _ => false

/-- What any step may hand out. -/
def Effect.Ordinary (e : Effect) : Prop := e.announces = false ∧ e.spawns = false

/-- What the router may hand out: its messages are never heartbeats. -/
def Effect.Internal (e : Effect) : Prop := e.Ordinary ∧ e.beats = false

/-- The types of the messages that the router sends. -/
theorem types_ne_heartbeat :
    DcType.validation ≠ DcType.heartbeat ∧ DcType.rtcInnerReq ≠ DcType.heartbeat := by
  decide

namespace Service

/-! ### Calm steps -/

/-- The session goes on, and nothing is announced to the transport. -/
structure Steady (s s' : Service) : Prop where
  session : s'.sessionId = s.sessionId
  announced : ∀ g, Effect.setIngressGeneration g ∈ s'.effects →
    Effect.setIngressGeneration g ∈ s.effects

/-- In addition the flags can only fall. -/
structure Calm (s s' : Service) : Prop extends Steady s s' where
  opened : s'.dataChannelOpened = true → s.dataChannelOpened = true
  running : s'.heartbeatRunning = true → s.heartbeatRunning = true

/-- A reset, by a fault or by a new session: the next generation is announced,
and both flags are down. -/
structure Resets (s s' : Service) : Prop where
  session : s'.sessionId = s.sessionId + 1
  announced : ∀ g, Effect.setIngressGeneration g ∈ s'.effects →
    Effect.setIngressGeneration g ∈ s.effects ∨ g = s'.sessionId
  opened : s'.dataChannelOpened = false
  running : s'.heartbeatRunning = false

/-- The step stays away from the flags, the stop channel and the session, and
hands out such effects only. -/
structure Apart (P : Effect → Prop) (s s' : Service) : Prop where
  session : s'.sessionId = s.sessionId
  opened : s'.dataChannelOpened = s.dataChannelOpened
  running : s'.heartbeatRunning = s.heartbeatRunning
  stopTx : s'.heartbeatStopTx = s.heartbeatStopTx
  nextId : s.nextId ≤ s'.nextId
  effects : ∃ es, s'.effects = s.effects ++ es ∧ ∀ e ∈ es, P e

theorem Steady.after {s₁ s₂ s₃ : Service} (h' : Steady s₂ s₃) (h : Steady s₁ s₂) :
    Steady s₁ s₃ :=
  ⟨h'.session.trans h.session, fun g hg => h.announced g (h'.announced g hg)⟩

/-- The fields that matter here were not touched. -/
theorem Steady.same {s s' : Service} (hs : s'.sessionId = s.sessionId)
    (he : s'.effects = s.effects) : Steady s s' :=
  ⟨hs, fun _ hg => he ▸ hg⟩

theorem Calm.refl (s : Service) : Calm s s := ⟨.same rfl rfl, id, id⟩

theorem Calm.lowered {s s' : Service} (hs : s'.sessionId = s.sessionId)
    (he : s'.effects = s.effects) (ho : s'.dataChannelOpened = false)
    (hr : s'.heartbeatRunning = false) : Calm s s' :=
  ⟨.same hs he, fun h => absurd h (by simp [ho]), fun h => absurd h (by simp [hr])⟩

theorem Calm.trans {s₁ s₂ s₃ : Service} (h : Calm s₁ s₂) (h' : Calm s₂ s₃) : Calm s₁ s₃ :=
  ⟨h'.toSteady.after h.toSteady, fun ho => h.opened (h'.opened ho),
    fun hr => h.running (h'.running hr)⟩

variable {s s' : Service} {P Q : Effect → Prop}

namespace Apart

/-- The fields that matter here were not touched. -/
theorem same (h : (s'.sessionId, s'.dataChannelOpened, s'.heartbeatRunning, s'.heartbeatStopTx,
      s'.nextId, s'.effects) =
    (s.sessionId, s.dataChannelOpened, s.heartbeatRunning, s.heartbeatStopTx, s.nextId,
      s.effects)) : Apart P s s' := by
  simp only [Prod.mk.injEq] at h
  obtain ⟨hs, ho, hr, ht, hn, he⟩ := h
  exact ⟨hs, ho, hr, ht, hn.ge, [], by rw [he, List.append_nil], by simp⟩

theorem refl (s : Service) : Apart P s s := .same rfl

theorem trans {s₁ s₂ s₃ : Service} (h : Apart P s₁ s₂) (h' : Apart P s₂ s₃) : Apart P s₁ s₃ := by
  obtain ⟨es, he, hes⟩ := h.effects
  obtain ⟨es', he', hes'⟩ := h'.effects
  refine ⟨h'.session.trans h.session, h'.opened.trans h.opened, h'.running.trans h.running,
    h'.stopTx.trans h.stopTx, h.nextId.trans h'.nextId, es ++ es', ?_, fun e hm => ?_⟩
  · rw [he', he, List.append_assoc]
  · rcases List.mem_append.mp hm with hm | hm
    · exact hes e hm
    · exact hes' e hm

/-- The same, from the last step back. -/
theorem after {s₁ s₂ s₃ : Service} (h' : Apart P s₂ s₃) (h : Apart P s₁ s₂) : Apart P s₁ s₃ :=
  h.trans h'

theorem mono (h : Apart P s s') (hpq : ∀ e, P e → Q e) : Apart Q s s' := by
  obtain ⟨es, he, hes⟩ := h.effects
  exact ⟨h.session, h.opened, h.running, h.stopTx, h.nextId, es, he, fun e hm => hpq e (hes e hm)⟩

/-- What the router does, any step may do. -/
theorem ordinary (h : Apart Effect.Internal s s') : Apart Effect.Ordinary s s' :=
  h.mono fun _ he => he.1

/-- Steps that stay away are calm. -/
theorem calm (h : Apart Effect.Ordinary s s') : Calm s s' := by
  obtain ⟨es, he, hes⟩ := h.effects
  refine ⟨⟨h.session, fun g hg => ?_⟩, fun ho => h.opened ▸ ho, fun hr => h.running ▸ hr⟩
  rw [he] at hg
  rcases List.mem_append.mp hg with hg | hg
  · exact hg
  · exact absurd (hes _ hg).1 (by simp [Effect.announces])

end Apart

theorem emit_apart (s : Service) {e : Effect} (h : P e) : Apart P s (s.emit e) :=
  ⟨rfl, rfl, rfl, rfl, le_refl _, [e], rfl, by simpa using h⟩

theorem settle_apart (s : Service) (key : String) (answer : PendingCallback → PortResult Value) :
    Apart Effect.Internal s (s.settle key answer) := by
  rw [settle]
  split
  · exact .refl s
  · exact (emit_apart _ ⟨⟨rfl, rfl⟩, rfl⟩).after (.same rfl)

theorem failAllPending_apart (s : Service) (reason : String) :
    Apart Effect.Internal s (s.failAllPending reason) := by
  refine ⟨rfl, rfl, rfl, rfl, le_refl _, _, rfl, fun e he => ?_⟩
  obtain ⟨callback, -, rfl⟩ := List.mem_map.mp he
  exact ⟨⟨rfl, rfl⟩, rfl⟩

theorem bumpSession_announced (s : Service) (g : ℕ)
    (hg : Effect.setIngressGeneration g ∈ s.bumpSession.effects) :
    Effect.setIngressGeneration g ∈ s.effects ∨ g = s.sessionId + 1 := by
  rcases List.mem_append.mp hg with hg | hg
  · exact Or.inl hg
  · exact Or.inr (Effect.setIngressGeneration.inj (List.mem_singleton.mp hg))

theorem handleFault_resets (s : Service) (error : String) : Resets s (s.handleFault error) :=
  ⟨rfl, fun g hg => bumpSession_announced s g
    ((failAllPending_apart _ error).ordinary.calm.announced g hg), rfl, rfl⟩

theorem startNewSession_resets (s : Service) : Resets s s.startNewSession :=
  ⟨rfl, fun g hg => bumpSession_announced s g
    ((failAllPending_apart _ _).ordinary.calm.announced g hg), rfl, rfl⟩

/-- A sender may have to say that its message is no heartbeat. -/
theorem sendMessageLocked_apart (env : Env) (s : Service) (topic : String) (data : Option Value)
    (msgType : String) (h : P (.sendText (outgoing topic data msgType))) :
    Apart P s (s.sendMessageLocked env topic data msgType).2 := by
  rw [sendMessageLocked]
  split
  · exact emit_apart s h
  · exact .refl s

/-! ### Messages -/

theorem Settles.apart (h : Settles s s') : Apart Effect.Internal s s' := by
  cases h with
  | nothing chunks => exact .same rfl
  | refusal chunks key reason => exact (settle_apart _ _ _).after (.same rfl)
  | answer chunks message => exact (settle_apart _ _ _).after (.same rfl)

theorem shouldProcess_apart (due : ℚ → ℚ → ℚ → Bool) (now : ℚ) (s : Service)
    (topicOrType : String) : Apart P s (s.shouldProcess due now topicOrType).2 := by
  rw [shouldProcess]
  split
  · exact .refl s
  · dsimp only
    split
    · exact .same rfl
    · exact .refl s

theorem dispatchSubscription_apart (env : Env) (s : Service) (message : Value) :
    Apart Effect.Internal s (s.dispatchSubscription env message) := by
  simp only [dispatchSubscription]
  split
  · exact .refl s
  have hc := shouldProcess_apart (P := Effect.Internal) env.due env.dispatchTime s
    (strOf message "topic")
  rcases hs : s.shouldProcess env.due env.dispatchTime (strOf message "topic") with ⟨_ | _, s'⟩
  · rw [hs] at hc
    exact hc
  · rw [hs] at hc
    dsimp only
    split
    · exact (emit_apart _ ⟨⟨rfl, rfl⟩, rfl⟩).after hc
    · exact hc

theorem submit_apart (p : Platform) (env : Env) (s : Service) (request : LidarDecodeRequest) :
    Apart Effect.Internal s (s.submit p env request).2 := by
  rw [submit]
  split
  · exact .refl s
  split
  · exact .refl s
  split
  · exact .refl s
  · exact emit_apart s ⟨⟨rfl, rfl⟩, rfl⟩

theorem rejectBinaryResponse_apart (s : Service) (message : Value) (reason : String) :
    Apart Effect.Internal s (s.rejectBinaryResponse message reason) :=
  (settle_apart _ _ _).after (.same rfl)

theorem processLidar_apart (p : Platform) (env : Env) (s : Service) (decodedJson : Value)
    (binaryData : List UInt8) (metadata : LidarMetadata) :
    Apart Effect.Internal s (s.processLidar p env decodedJson binaryData metadata) := by
  rw [processLidar]
  split
  · exact rejectBinaryResponse_apart s _ _
  split
  · exact rejectBinaryResponse_apart s _ _
  have hc := shouldProcess_apart (P := Effect.Internal) env.due env.wallTime s
    (topicOrType decodedJson)
  rcases hs : s.shouldProcess env.due env.wallTime (topicOrType decodedJson) with ⟨_ | _, s'⟩
  · rw [hs] at hc
    exact hc
  · rw [hs] at hc
    dsimp only
    have hsub := submit_apart p env s'
      ⟨s'.sessionId, topicOrType decodedJson, decodedJson, binaryData, metadata⟩
    rcases hr : s'.submit p env
        ⟨s'.sessionId, topicOrType decodedJson, decodedJson, binaryData, metadata⟩ with
      ⟨e | _, s''⟩
    · rw [hr] at hsub
      exact (settle_apart s'' _ _).after (hsub.after hc)
    · rw [hr] at hsub
      exact hsub.after hc

theorem dealArrayBuffer_apart (p : Platform) (env : Env) (s : Service) (buffer : List UInt8) :
    Apart Effect.Internal s (s.dealArrayBuffer p env buffer).2 := by
  rw [dealArrayBuffer]
  split
  · exact .refl s
  split
  · exact .refl s
  next frame header payload _ =>
    simp only [processBinaryPayload]
    split
    · exact processLidar_apart p env s _ _ _
    split
    · exact rejectBinaryResponse_apart s _ _
    split
    · exact rejectBinaryResponse_apart s _ _
    have hc := shouldProcess_apart (P := Effect.Internal) env.due env.wallTime s
      (topicOrType header)
    rcases hs : s.shouldProcess env.due env.wallTime (topicOrType header) with ⟨_ | _, s'⟩ <;>
      rw [hs] at hc <;> exact hc

/-! ### Validation -/

/-- The document that opens a session. -/
def isValidationOk (message : Value) : Bool :=
  strOf message "type" = DcType.validation ∧
    (message.get "data").bind Value.asStr = some "Validation Ok."

/-- The messages that open one: texts with that document. -/
def validates (p : Platform) : DcMessage → Bool
  | .text text =>
    match parseJson p.serde (asBytes text) with
    | .ok message => isValidationOk message
    | .error _ => false
  | _ => false

/-- A message of another type is no heartbeat. -/
theorem internal_outgoing (topic : String) (data : Option Value) {msgType : String}
    (h : msgType ≠ DcType.heartbeat) :
    Effect.Internal (.sendText (outgoing topic data msgType)) := by
  refine ⟨⟨rfl, rfl⟩, ?_⟩
  rw [Effect.beats, decide_eq_false_iff_not]
  cases data with
  | none => exact h
  | some data => exact h

theorem sendValidation_apart (p : Platform) (env : Env) (s : Service) (key : String) :
    Apart Effect.Internal s (s.sendValidation p env key) := by
  rw [sendValidation]
  split
  · exact .refl s
  · exact sendMessageLocked_apart env s _ _ _ (internal_outgoing _ _ types_ne_heartbeat.1)

theorem requestNetworkStatusOnce_apart (env : Env) (s : Service) :
    Apart Effect.Internal s (s.requestNetworkStatusOnce env) := by
  rw [requestNetworkStatusOnce]
  split
  · exact .refl s
  · exact (sendMessageLocked_apart env _ _ _ _ (internal_outgoing _ _ types_ne_heartbeat.2)).after
      (.same rfl)

theorem startHeartbeatInSession_steady (s : Service) : Steady s s.startHeartbeatInSession := by
  rw [startHeartbeatInSession]
  split
  · exact .same rfl rfl
  · refine ⟨rfl, fun g hg => ?_⟩
    rcases List.mem_append.mp hg with hg | hg
    · exact hg
    · exact absurd (List.mem_singleton.mp hg) (by simp)

theorem handleRtcInnerReq_apart (env : Env) (s : Service) (message : Value) :
    Apart Effect.Internal s (s.handleRtcInnerReq env message) := by
  have hecho : ∀ info, Apart Effect.Internal s
      (s.sendMessageLocked env "" (some info) DcType.rtcInnerReq).2 :=
    fun info => sendMessageLocked_apart env s _ _ _ (internal_outgoing _ _ types_ne_heartbeat.2)
  rw [handleRtcInnerReq]
  split
  · exact .refl s
  · dsimp only
    split <;> split
    · exact (hecho _).trans (.same rfl)
    · exact .same rfl
    · exact hecho _
    · exact .refl s

theorem handleTextResponse_apart (p : Platform) (env : Env) (s : Service) {message : Value}
    (h : isValidationOk message = false) :
    Apart Effect.Internal s (s.handleTextResponse p env message) := by
  simp only [handleTextResponse]
  split
  next htype =>
    rw [handleValidation]
    split
    · exact .refl s
    next key hkey =>
      rw [if_neg (by rintro rfl; simp [isValidationOk, htype, hkey] at h)]
      exact (sendValidation_apart p env _ _).after (.same rfl)
  split
  · exact handleRtcInnerReq_apart env s message
  split
  · exact .same rfl
  split
  · rw [handleValidationErr]
    split
    · exact sendValidation_apart p env s _
    · exact .refl s
  · exact .refl s

/-- A validation starts the heartbeat. -/
theorem handleTextResponse_validation (p : Platform) (env : Env) (s : Service) {message : Value}
    (h : isValidationOk message = true) :
    s.handleTextResponse p env message = requestNetworkStatusOnce env (startHeartbeatInSession
      { s with dataChannelOpened := true, heartbeatLastResponse := env.wallSecs }) := by
  rw [isValidationOk, decide_eq_true_eq] at h
  rw [handleTextResponse, if_pos h.1, handleValidation, h.2]
  exact if_pos rfl

/-- What the router does with a message: it keeps away from the flags, or the
message is of the current generation and resets the session, or is the
`Validation Ok.` of its peer. -/
theorem processIngress_apart (p : Platform) (env : Env) (s : Service) (message : IngressMessage) :
    let s' := s.processIngress p env message
    Apart Effect.Internal s s' ∧
        ¬ (message.generation = s.sessionId ∧ validates p message.payload = true) ∨
      message.generation = s.sessionId ∧ validates p message.payload = false ∧
        (∃ error, s' = s.handleFault error) ∨
      message.generation = s.sessionId ∧ validates p message.payload = true ∧
        ∃ s₁, Apart Effect.Internal s s₁ ∧
          Apart Effect.Internal (startHeartbeatInSession
            { s₁ with dataChannelOpened := true, heartbeatLastResponse := env.wallSecs }) s' := by
  intro s'
  by_cases hgen : message.generation = s.sessionId
  · have hs' : s' = s.handlePayload p env message.payload := if_neg (not_not.mpr hgen)
    rw [hs']
    cases message.payload with
    | transportFault error => exact Or.inr (Or.inl ⟨hgen, rfl, error, rfl⟩)
    | text text =>
      rw [handlePayload, validates]
      rcases parseJson p.serde (asBytes text) with e | parsed
      · exact Or.inl ⟨.refl s, by simp⟩
      have hresolve := (runResolve_settles env s parsed).apart
      have hdispatch := dispatchSubscription_apart env
        ((s.runResolve env parsed).handleTextResponse p env parsed) parsed
      rcases hok : isValidationOk parsed with _ | _
      · exact Or.inl ⟨hdispatch.after ((handleTextResponse_apart p env _ hok).after hresolve),
          by simp [hok]⟩
      · rw [handleTextResponse_validation p env _ hok] at hdispatch
        dsimp only
        rw [handleTextResponse_validation p env _ hok]
        exact Or.inr (Or.inr ⟨hgen, hok, _, hresolve,
          (requestNetworkStatusOnce_apart env _).trans hdispatch⟩)
    | binary bytes =>
      have hdeal := dealArrayBuffer_apart p env s bytes
      rw [handlePayload]
      rcases hd : s.dealArrayBuffer p env bytes with ⟨_ | parsed, s'⟩
      · rw [hd] at hdeal
        exact Or.inl ⟨hdeal, by simp [validates]⟩
      · rw [hd] at hdeal
        exact Or.inl ⟨(dispatchSubscription_apart env _ parsed).after
          ((runResolve_settles env s' parsed).apart.after hdeal), by simp [validates]⟩
  · have hs' : s' = s := if_pos hgen
    rw [hs']
    exact Or.inl ⟨.refl s, fun h => hgen h.1⟩

/-- The router raises a flag in one case only: the message is of the current
generation, and it is the `Validation Ok.` of its peer. -/
theorem processIngress_cases (p : Platform) (env : Env) (s : Service) (message : IngressMessage) :
    let s' := s.processIngress p env message
    Calm s s' ∨ message.generation = s.sessionId ∧
      (Resets s s' ∨ Steady s s' ∧ validates p message.payload = true) := by
  intro s'
  rcases processIngress_apart p env s message with
    ⟨h, -⟩ | ⟨hgen, -, error, h⟩ | ⟨hgen, hok, s₁, h, h'⟩
  · exact Or.inl h.ordinary.calm
  · refine Or.inr ⟨hgen, Or.inl ?_⟩
    rw [show s' = s.handleFault error from h]
    exact handleFault_resets s error
  · have hopen : Steady s₁ { s₁ with
        dataChannelOpened := true, heartbeatLastResponse := env.wallSecs } := .same rfl rfl
    exact Or.inr ⟨hgen, Or.inr ⟨h'.ordinary.calm.toSteady.after
      ((startHeartbeatInSession_steady _).after (hopen.after h.ordinary.calm.toSteady)), hok⟩⟩

/-! ### Calls -/

theorem dropGuard_apart (s : Service) (key : String) (token : ℕ) :
    Apart P s (s.dropGuard key token) := by
  rw [dropGuard]
  split
  · exact .refl s
  · split
    · exact .same rfl
    · exact .refl s

theorem publishWithExpectation_apart (env : Env) (s : Service) (topic : String)
    (data : Option Value) (msgType : String) (expectation : ResponseExpectation) :
    Apart Effect.Ordinary s (s.publishWithExpectation env topic data msgType expectation).2 := by
  have hregister : Apart Effect.Ordinary s
      (s.register (outgoingKey msgType topic data) expectation) :=
    ⟨rfl, rfl, rfl, rfl, Nat.le_succ _, [], (List.append_nil _).symm, by simp⟩
  have hsend : Apart Effect.Ordinary s
      ((s.register (outgoingKey msgType topic data) expectation).sendMessageLocked
        env topic data msgType).2 :=
    hregister.trans (sendMessageLocked_apart env _ topic data msgType ⟨rfl, rfl⟩)
  rcases s.publishWithExpectation_cases env topic data msgType expectation with
    ⟨e, h⟩ | ⟨-, -, ⟨-, h⟩ | ⟨e, -, h⟩⟩
  · rw [h]
    exact .refl s
  · rw [h]
    exact hsend
  · rw [h]
    exact (dropGuard_apart _ _ _).after hsend

theorem publishRequestNew_apart (p : Platform) (fits : ℚ → Bool) (env : Env) (s : Service)
    (topic : String) (options : Value) (timeout : Option Seconds) :
    Apart Effect.Ordinary s (s.publishRequestNew p fits env topic options timeout).2 := by
  have hid : Apart Effect.Ordinary s (s.wireId options).2 := by
    rw [wireId]
    split
    · exact .refl s
    · exact .same rfl
  rw [publishRequestNew]
  split
  · exact .refl s
  · dsimp only
    split
    · exact hid
    · exact (publishWithExpectation_apart env _ topic _ _ _).after hid

theorem subscribe_apart (env : Env) (s : Service) (topic : String) :
    Apart Effect.Ordinary s (s.subscribe env topic).2 ∧
      Apart Effect.Ordinary s (s.unsubscribe env topic).2 := by
  rw [subscribe_eq, unsubscribe_eq]
  constructor
  · exact (sendMessageLocked_apart env s topic none _ ⟨rfl, rfl⟩).trans (.same rfl)
  · exact (sendMessageLocked_apart env s topic none _ ⟨rfl, rfl⟩).trans (.same rfl)

theorem expireChunks_apart (env : Env) (s : Service) :
    Apart Effect.Internal s (s.expireChunks env) :=
  (expireChunks_rel .refl .trans (fun s key => settle_apart s key _) env s).after (.same rfl)

theorem heartbeatTick_calm (env : Env) (s : Service) (epoch : ℕ) :
    Calm s (s.heartbeatTick env epoch) := by
  rw [heartbeatTick]
  split
  · exact Calm.refl s
  split
  · have hstop : Calm s { s.stopHeartbeat with dataChannelOpened := false } :=
      .lowered rfl rfl rfl rfl
    have hfail := hstop.trans (failAllPending_apart _ "Heartbeat timeout").ordinary.calm
    exact hfail.trans ⟨.same rfl rfl, id, id⟩
  split
  · exact (sendMessageLocked_apart env s _ _ _ ⟨rfl, rfl⟩).calm
  · exact Calm.refl s

theorem store_calm (s : Service) (which : UnlockedStore) : Calm s (s.store which) := by
  cases which with
  | heartbeatRunning => exact ⟨.same rfl rfl, id, by simp [store]⟩
  | heartbeatStopTx => exact ⟨.same rfl rfl, id, id⟩
  | networkProbeRunning => exact ⟨.same rfl rfl, id, id⟩
  | dataChannelOpened => exact ⟨.same rfl rfl, by simp [store], id⟩

end Service

/-- What callers and the expiry of chunks do. -/
def Action.called : Action → Bool
  | .processIngress _ _ => false
  | .heartbeatTick _ _ => false
  | .store _ => false
  | .startNewSession => false
  | _ => true

/-- They stay away from the flags. -/
theorem Sys.step_apart (p : Platform) (y : Sys) {a : Action} (ha : a.called = true) :
    Service.Apart Effect.Ordinary y.service (y.step p a).service := by
  cases a with
  | publish fits env topic data msgType timeout =>
    rw [Sys.step, Sys.started_outputs, Service.publish]
    split
    · exact .refl _
    · exact Service.publishWithExpectation_apart env _ topic data _ _
  | publishRequestNew fits env topic options timeout =>
    rw [Sys.step, Sys.started_outputs]
    exact Service.publishRequestNew_apart p fits env _ topic options timeout
  | publishWithoutCallback env topic data msgType =>
    have hplain : Effect.Ordinary
        (.sendText (Service.outgoing topic data (msgType.getD DcType.msg))) :=
      ⟨rfl, rfl⟩
    exact Service.sendMessageLocked_apart env y.service topic data _ hplain
  | subscribe env topic => exact (Service.subscribe_apart env _ topic).1
  | unsubscribe env topic => exact (Service.subscribe_apart env _ topic).2
  | poll token =>
    rw [Sys.step]
    split
    · exact Service.dropGuard_apart _ _ _
    · exact .refl _
  | giveUp token error =>
    rw [Sys.step]
    split
    · exact Service.dropGuard_apart _ _ _
    · exact .refl _
  | expireChunks env => exact (Service.expireChunks_apart env _).ordinary
  | processIngress env message => exact absurd ha (by simp [Action.called])
  | heartbeatTick env epoch => exact absurd ha (by simp [Action.called])
  | store which => exact absurd ha (by simp [Action.called])
  | startNewSession => exact absurd ha (by simp [Action.called])

/-- Beside the router and the resets, every step of the service is calm. -/
theorem Sys.step_calm (p : Platform) (y : Sys) {a : Action} (ha : Node.isProcessIngress a = false)
    (hreset : a ≠ .startNewSession) : Service.Calm y.service (y.step p a).service := by
  by_cases hcalled : a.called = true
  · exact (Sys.step_apart p y hcalled).calm
  cases a with
  | heartbeatTick env epoch => exact Service.heartbeatTick_calm env _ epoch
  | store which => exact Service.store_calm _ which
  | processIngress env message => exact absurd ha (by simp [Node.isProcessIngress])
  | startNewSession => exact absurd rfl hreset
  | _ => exact absurd rfl hcalled

end Unitree
