/-
What the router hands on to the other threads.

Processing a message hands on at most an event for the callback channel and a
job for the LiDAR workers, and both carry the session of the message.  A topic
event then meets the budget of the channel: on a channel with nothing
outstanding only its own accounted size can keep it out.

* `processIngress_outputs` — what is handed on belongs to the session of the
  message, and a message of another session hands on nothing;
* `topic_event_enqueued_iff` — a topic event is accepted by an empty channel
  exactly when it fits the control budget;
* `binary_frame_dropped` — a frame within the ingress limits that does not.
-/
import UnitreeWebrtc.Routing
import UnitreeWebrtc.Traffic
import UnitreeWebrtc.Traversal

namespace Unitree

/-- What is handed on is bound to this generation. -/
def Effect.BoundTo (generation : ℕ) : Effect → Prop
  | .event g _ => g = generation
  | .submit request => request.generation = generation
  | _ => True

namespace Service

/-! ### Settling is silent -/

theorem settle_silent (s : Service) (key : String) (answer : PendingCallback → PortResult Value) :
    Silent s (s.settle key answer) := by
  rw [settle]
  split
  · exact Silent.refl s
  · exact (emit_silent _ _ rfl).after ⟨rfl, rfl, rfl, rfl⟩

theorem settleChunk_silent (s : Service) (message : Value) (schema : ChunkSchema)
    (result : PortResult (Option (List UInt8))) :
    Silent s (s.settleChunk message schema result) := by
  rcases result with e | _ | bytes
  · exact (settle_silent _ _ _).after ⟨rfl, rfl, rfl, rfl⟩
  · exact Silent.refl s
  · simp only [settleChunk]
    split
    · exact settle_silent s _ _
    · split
      · exact settle_silent s _ _
      · exact Silent.refl s

theorem runResolve_silent (env : Env) (s : Service) (message : Value) :
    Silent s (s.runResolve env message) := by
  rw [runResolve]
  split
  · exact Silent.refl s
  · rw [handleChunkedResponse]
    rcases chunkView message with _ | c
    · exact settle_silent s _ _
    · exact (settleChunk_silent _ message c.schema _).after ⟨rfl, rfl, rfl, rfl⟩

theorem rejectBinaryResponse_silent (s : Service) (message : Value) (reason : String) :
    Silent s (s.rejectBinaryResponse message reason) :=
  (settle_silent _ _ _).after ⟨rfl, rfl, rfl, rfl⟩

theorem expireChunks_silent (env : Env) (s : Service) : Silent s (s.expireChunks env) :=
  (expireChunks_rel Silent.refl (fun h h' => h'.after h) (fun s key => settle_silent s key _)
    env s).after ⟨rfl, rfl, rfl, rfl⟩

/-! ### What is handed on -/

/-- The service handed on these effects, of its own session. -/
def Hands (s s' : Service) (es : List Effect) : Prop :=
  s'.outputs = s.outputs ++ es ∧ s'.subscriptions = s.subscriptions ∧
    s'.sessionId = s.sessionId ∧ ∀ e ∈ es, e.BoundTo s.sessionId

theorem Silent.hands {s s' : Service} (h : Silent s s') : Hands s s' [] :=
  ⟨by simp [h.outputs], h.subscriptions, h.session, fun e he => absurd he (by simp)⟩

theorem Hands.trans {s₁ s₂ s₃ : Service} {es es' : List Effect} (h : Hands s₁ s₂ es)
    (h' : Hands s₂ s₃ es') : Hands s₁ s₃ (es ++ es') := by
  obtain ⟨ho, hsub, hses, hb⟩ := h
  obtain ⟨ho', hsub', hses', hb'⟩ := h'
  refine ⟨by rw [ho', ho, List.append_assoc], hsub'.trans hsub, hses'.trans hses, ?_⟩
  intro e he
  rcases List.mem_append.mp he with he | he
  · exact hb e he
  · exact hses ▸ hb' e he

theorem shouldProcess_hands (due : ℚ → ℚ → ℚ → Bool) (now : ℚ) (s : Service)
    (topicOrType : String) : Hands s (s.shouldProcess due now topicOrType).2 [] := by
  have hnone : ∀ e ∈ ([] : List Effect), e.BoundTo s.sessionId := fun e he => absurd he (by simp)
  rw [shouldProcess]
  split
  · exact ⟨by simp, rfl, rfl, hnone⟩
  · dsimp only
    split
    · exact ⟨by simp [outputs], rfl, rfl, hnone⟩
    · exact ⟨by simp, rfl, rfl, hnone⟩

theorem emit_hands (s : Service) (e : Effect) (h : e.handedOn = true)
    (hbound : e.BoundTo s.sessionId) : Hands s (s.emit e) [e] := by
  refine ⟨?_, rfl, rfl, ?_⟩
  · rw [outputs, outputs, emit, List.filter_append, List.filter_singleton, h]
    rfl
  · intro e' he'
    rw [List.mem_singleton.mp he']
    exact hbound

theorem dispatchSubscription_hands (env : Env) (s : Service) (message : Value) :
    ∃ es, Hands s (s.dispatchSubscription env message) es := by
  simp only [dispatchSubscription]
  split
  · exact ⟨[], (Silent.refl s).hands⟩
  · have hh := shouldProcess_hands env.due env.dispatchTime s (strOf message "topic")
    rcases hs : s.shouldProcess env.due env.dispatchTime (strOf message "topic") with ⟨_ | _, s'⟩
    · rw [hs] at hh
      exact ⟨[], hh⟩
    · rw [hs] at hh
      dsimp only
      split
      · exact ⟨_, hh.trans (emit_hands s' (.event s'.sessionId _) rfl rfl)⟩
      · exact ⟨[], hh⟩

/-- A subscribed topic without a limit: the event is handed on. -/
theorem dispatchSubscription_subscribed (env : Env) {s : Service} {message : Value}
    (htopic : strOf message "topic" ≠ "") (hfree : throttleLimit (strOf message "topic") = none)
    (hsub : strOf message "topic" ∈ s.subscriptions) :
    Hands s (s.dispatchSubscription env message)
      [.event s.sessionId (topicEvent env (strOf message "topic") message)] := by
  simp only [dispatchSubscription, if_neg htopic, shouldProcess_unlimited hfree, if_pos hsub]
  exact emit_hands s (.event s.sessionId _) rfl rfl

theorem submit_hands (p : Platform) (env : Env) (s : Service) (request : LidarDecodeRequest)
    (hgen : request.generation = s.sessionId) : ∃ es, Hands s (s.submit p env request).2 es := by
  rw [submit]
  split
  · exact ⟨[], (Silent.refl s).hands⟩
  split
  · exact ⟨[], (Silent.refl s).hands⟩
  split
  · exact ⟨[], (Silent.refl s).hands⟩
  · exact ⟨_, emit_hands s (.submit request) rfl hgen⟩

theorem processLidar_hands (p : Platform) (env : Env) (s : Service) (decodedJson : Value)
    (binaryData : List UInt8) (metadata : LidarMetadata) :
    ∃ es, Hands s (s.processLidar p env decodedJson binaryData metadata) es := by
  rw [processLidar]
  split
  · exact ⟨[], (rejectBinaryResponse_silent s decodedJson _).hands⟩
  split
  · exact ⟨[], (rejectBinaryResponse_silent s decodedJson _).hands⟩
  have hh := shouldProcess_hands env.due env.wallTime s (topicOrType decodedJson)
  rcases hs : s.shouldProcess env.due env.wallTime (topicOrType decodedJson) with ⟨_ | _, s'⟩
  · rw [hs] at hh
    exact ⟨[], hh⟩
  · rw [hs] at hh
    dsimp only
    -- the job takes the session as it stands
    obtain ⟨es, hsub⟩ := submit_hands p env s'
      ⟨s'.sessionId, topicOrType decodedJson, decodedJson, binaryData, metadata⟩ rfl
    rcases hr : s'.submit p env
        ⟨s'.sessionId, topicOrType decodedJson, decodedJson, binaryData, metadata⟩ with
      ⟨e | _, s''⟩
    · rw [hr] at hsub
      exact ⟨_, (hh.trans hsub).trans (settle_silent s'' _ _).hands⟩
    · rw [hr] at hsub
      exact ⟨_, hh.trans hsub⟩

theorem dealArrayBuffer_hands (p : Platform) (env : Env) (s : Service) (buffer : List UInt8) :
    ∃ es, Hands s (s.dealArrayBuffer p env buffer).2 es ∧
      ((s.dealArrayBuffer p env buffer).1.isSome → es = []) := by
  rw [dealArrayBuffer]
  split
  · exact ⟨[], (Silent.refl s).hands, fun _ => rfl⟩
  split
  · exact ⟨[], (Silent.refl s).hands, fun _ => rfl⟩
  next frame header payload _ =>
    simp only [processBinaryPayload]
    split
    next metadata _ =>
      obtain ⟨es, hh⟩ := processLidar_hands p env s header payload metadata
      exact ⟨es, hh, fun h => absurd h (by simp)⟩
    next =>
      split
      · exact ⟨[], (rejectBinaryResponse_silent s header _).hands, fun _ => rfl⟩
      split
      · exact ⟨[], (rejectBinaryResponse_silent s header _).hands, fun _ => rfl⟩
      have hh := shouldProcess_hands env.due env.wallTime s (topicOrType header)
      rcases hs : s.shouldProcess env.due env.wallTime (topicOrType header) with ⟨_ | _, s'⟩
      · rw [hs] at hh
        exact ⟨[], hh, fun _ => rfl⟩
      · rw [hs] at hh
        exact ⟨[], hh, fun _ => rfl⟩

/-- A routed value reaches the dispatcher with nothing handed on yet. -/
theorem handlePayload_dispatch {p : Platform} {env : Env} {s : Service} {payload : DcMessage}
    {parsed : Value} (h : routedValue p env s payload = some parsed) :
    ∃ s₁, Hands s s₁ [] ∧ s.handlePayload p env payload = s₁.dispatchSubscription env parsed := by
  cases payload with
  | transportFault error => exact absurd h (by simp [routedValue])
  | text text =>
    rw [routedValue] at h
    rw [handlePayload]
    rcases hp : parseJson p.serde (asBytes text) with e | parsed'
    · rw [hp] at h
      exact absurd h (by simp)
    · rw [hp] at h
      obtain rfl := Option.some_inj.mp h
      refine ⟨_, ?_, rfl⟩
      exact ((handleTextResponse_still p env _ parsed').silent.after
        (runResolve_silent env s parsed')).hands
  | binary bytes =>
    rw [routedValue] at h
    rw [handlePayload]
    obtain ⟨es, hh, hes⟩ := dealArrayBuffer_hands p env s bytes
    rw [hes (by rw [h]; rfl)] at hh
    rcases hd : s.dealArrayBuffer p env bytes with ⟨v, s'⟩
    rw [hd] at h hh
    obtain rfl : v = some parsed := h
    exact ⟨_, hh.trans (runResolve_silent env s' parsed).hands, rfl⟩

theorem handlePayload_hands (p : Platform) (env : Env) (s : Service) (payload : DcMessage)
    (hfault : ∀ error, payload ≠ .transportFault error) :
    ∃ es, Hands s (s.handlePayload p env payload) es := by
  rcases hv : routedValue p env s payload with _ | parsed
  · cases payload with
    | transportFault error => exact absurd rfl (hfault error)
    | text text =>
      rw [routedValue] at hv
      rw [handlePayload]
      rcases hp : parseJson p.serde (asBytes text) with e | parsed
      · exact ⟨[], (Silent.refl s).hands⟩
      · rw [hp] at hv
        exact absurd hv (by simp)
    | binary bytes =>
      rw [routedValue] at hv
      rw [handlePayload]
      obtain ⟨es, hh, -⟩ := dealArrayBuffer_hands p env s bytes
      rcases hd : s.dealArrayBuffer p env bytes with ⟨v, s'⟩
      rw [hd] at hv hh
      obtain rfl : v = none := hv
      exact ⟨es, hh⟩
  · obtain ⟨s₁, hh, heq⟩ := handlePayload_dispatch hv
    obtain ⟨es, hd⟩ := dispatchSubscription_hands env s₁ parsed
    rw [heq]
    exact ⟨_, hh.trans hd⟩

/-- Failing every call hands nothing on. -/
theorem failAllPending_outputs (s : Service) (reason : String) :
    (s.failAllPending reason).outputs = s.outputs := by
  have hcomplete : ∀ cbs : List PendingCallback,
      (cbs.map fun cb => Effect.complete cb.token (.error reason)).filter Effect.handedOn = [] := by
    intro cbs
    induction cbs with
    | nil => rfl
    | cons cb rest ih => exact ih
  rw [outputs, failAllPending, List.filter_append, hcomplete, List.append_nil]
  rfl

theorem bumpSession_outputs (s : Service) : s.bumpSession.outputs = s.outputs :=
  (emit_silent { s with sessionId := s.sessionId + 1 } _ rfl).outputs

theorem handleFault_outputs (s : Service) (error : String) :
    (s.handleFault error).outputs = s.outputs :=
  (failAllPending_outputs _ error).trans (bumpSession_outputs s)

/-- What processing a message hands on is bound to the session of the message,
and a message of another session hands on nothing. -/
theorem processIngress_outputs (p : Platform) (env : Env) (s : Service)
    (message : IngressMessage) :
    ∃ es, (s.processIngress p env message).outputs = s.outputs ++ es ∧
      ∀ e ∈ es, e.BoundTo message.generation ∧ message.generation = s.sessionId := by
  rw [processIngress]
  split
  · exact ⟨[], by simp, fun e he => absurd he (by simp)⟩
  next hgen =>
    have hgen := not_not.mp hgen
    by_cases hfault : ∃ error, message.payload = .transportFault error
    · obtain ⟨error, he⟩ := hfault
      rw [he]
      exact ⟨[], by rw [List.append_nil]; exact handleFault_outputs s error,
        fun e he => absurd he (by simp)⟩
    · obtain ⟨es, ho, -, -, hb⟩ := handlePayload_hands p env s message.payload
        fun error he => hfault ⟨error, he⟩
      exact ⟨es, ho, fun e he => ⟨hgen ▸ hb e he, hgen⟩⟩

end Service

/-! ### Topic events and the budget -/

namespace Traffic

variable {ε : Type} {size : ε → EventClass × ℕ}

/-- With nothing queued or held, the counters are at zero. -/
theorem usage_of_empty {t : Traffic ε} (hl : Ledger size t.channel t.held)
    (hempty : t.channel.outstanding t.held = []) (cls : EventClass) :
    t.channel.usage.count cls = 0 ∧ t.channel.usage.bytes cls = 0 := by
  constructor
  · rw [hl.accounted.count_eq, hempty]
    rfl
  · rw [hl.accounted.bytes_eq, hempty]
    rfl

/-- On an empty channel only the event's own size can exhaust the budget. -/
theorem exhausted_of_empty {t : Traffic ε} (hl : Ledger size t.channel t.held)
    (hempty : t.channel.outstanding t.held = []) (hcap : 1 ≤ t.channel.capacity) (event : ε) :
    t.channel.Exhausted size event ↔ byteLimit (size event).1 < (size event).2 := by
  obtain ⟨hcount, hbytes⟩ := usage_of_empty hl hempty (size event).1
  have hroom : 1 ≤ countLimit t.channel.capacity (size event).1 := by
    cases (size event).1 with
    | control => exact hcap
    | media => exact le_min hcap (by omega)
  rw [Channel.Exhausted, hcount, hbytes]
  omega

end Traffic

namespace Service

/-- The accounted size of a topic event is within the control budget exactly
when the plain sum is: saturation and the early exits make no difference. -/
theorem eventSize_topicEvent (base : ℕ) (env : Env) (topic : String) (message : Value) :
    (eventSize base (topicEvent env topic message)).1 = .control ∧
      ((eventSize base (topicEvent env topic message)).2 ≤ controlBytes ↔
        topic.utf8ByteSize + (env.footprint message).total + base ≤ controlBytes) := by
  refine ⟨rfl, ?_⟩
  show saturatingAdd (saturatingAdd topic.utf8ByteSize (jsonSize (env.footprint message))) base
    ≤ controlBytes ↔ _
  rw [jsonSize_eq, capped]
  split
  next h =>
    simp only [saturatingAdd, controlBytes, usizeMax] at h ⊢
    omega
  next h =>
    simp only [saturatingAdd, controlBytes, usizeMax] at h ⊢
    omega

/-- A topic event on an empty channel: its own size decides. -/
theorem trySend_topicEvent {base capacity : ℕ} {t : Traffic CallbackEvent}
    (hinv : Traffic.Inv (eventSize base) capacity t) (hcap : 1 ≤ capacity)
    (halive : t.channel.receiverAlive = true) (hempty : t.channel.outstanding t.held = [])
    (env : Env) (topic : String) (message : Value) :
    t.channel.trySend (eventSize base) t.channel.current (topicEvent env topic message) = some (
      if topic.utf8ByteSize + (env.footprint message).total + base ≤ controlBytes then
        (t.channel.enqueue (Channel.envelope (eventSize base) t.channel.current
          (topicEvent env topic message)), .ok ())
      else (t.channel, .error (.full (topicEvent env topic message)))) := by
  obtain ⟨hcls, hsize⟩ := eventSize_topicEvent base env topic message
  have hexh : t.channel.Exhausted (eventSize base) (topicEvent env topic message) ↔
      ¬ topic.utf8ByteSize + (env.footprint message).total + base ≤ controlBytes := by
    rw [Traffic.exhausted_of_empty hinv.ledger hempty (hinv.capacity_eq.symm ▸ hcap), ← hsize,
      not_le, hcls]
    rfl
  rw [Channel.trySend_eq hinv.ledger hinv.closed_eq, if_neg (not_not.mpr rfl),
    if_neg (by rw [halive]; simp)]
  by_cases hfit : topic.utf8ByteSize + (env.footprint message).total + base ≤ controlBytes
  · rw [if_pos hfit, if_neg (fun hx => hexh.mp hx hfit)]
  · rw [if_neg hfit, if_pos (hexh.mpr hfit)]

/-- A message on a subscribed topic without a limit hands its event on. -/
theorem processIngress_topicEvent {p : Platform} {env : Env} {s : Service}
    {message : IngressMessage} {v : Value} (hgen : message.generation = s.sessionId)
    (hv : routedValue p env s message.payload = some v) (htopic : strOf v "topic" ≠ "")
    (hfree : throttleLimit (strOf v "topic") = none) (hsub : strOf v "topic" ∈ s.subscriptions) :
    (s.processIngress p env message).outputs
      = s.outputs ++ [.event s.sessionId (topicEvent env (strOf v "topic") v)] := by
  obtain ⟨s₁, hh, heq⟩ := handlePayload_dispatch hv
  obtain ⟨hout, hsubs, hses, -⟩ := hh
  have hd := (dispatchSubscription_subscribed env htopic hfree (hsubs ▸ hsub)).1
  rw [processIngress, if_neg (not_not.mpr hgen), heq, hd, hout, List.append_nil, hses]

/-- **Topic events.**  A message of the current session that is routed as `v`,
on a subscribed topic without a throttle limit, hands one event with `v` on.
A channel with its receiver alive and nothing outstanding enqueues that event
when its accounted size is within the control budget, and refuses it otherwise. -/
theorem topic_event_enqueued_iff (p : Platform) (env : Env) (s : Service)
    (message : IngressMessage) (v : Value) (base capacity : ℕ) (c : Channel CallbackEvent)
    (as : List (Traffic.Action CallbackEvent)) (t : Traffic CallbackEvent)
    (hgen : message.generation = s.sessionId)
    (hv : routedValue p env s message.payload = some v)
    (htopic : strOf v "topic" ≠ "") (hfree : throttleLimit (strOf v "topic") = none)
    (hsub : strOf v "topic" ∈ s.subscriptions)
    (hopen : Channel.open' capacity = .ok c) (hrun : Traffic.run (eventSize base) c as = some t)
    (halive : t.channel.receiverAlive = true) (hcurrent : t.channel.current = s.sessionId)
    (hempty : t.channel.outstanding t.held = []) :
    let event := topicEvent env (strOf v "topic") v
    (s.processIngress p env message).outputs = s.outputs ++ [.event s.sessionId event] ∧
      t.channel.trySend (eventSize base) s.sessionId event = some (
        if (strOf v "topic").utf8ByteSize + (env.footprint v).total + base ≤ controlBytes then
          (t.channel.enqueue (Channel.envelope (eventSize base) s.sessionId event), .ok ())
        else (t.channel, .error (.full event))) := by
  intro event
  constructor
  · exact processIngress_topicEvent hgen hv htopic hfree hsub
  · obtain ⟨t', hrun', hinv⟩ := Traffic.run_inv (eventSize base) hopen as
    obtain rfl : t = t' := Option.some_inj.mp (hrun.symm.trans hrun')
    rw [← hcurrent]
    exact trySend_topicEvent hinv (Channel.open'_capacity hopen) halive hempty env _ v

/-- The service of session 3, subscribed to `t`. -/
def subscribed : Service := ((Service.new 3 0).subscribe (.at 0) "t").2

/-- A callback channel of capacity one in session 3. -/
def callbacks : Traffic CallbackEvent :=
  { channel := { Channel.fresh 1 with current := 3 }, held := [], accepted := [], dequeued := [] }

/-- The document `{"topic":"t"}`, and a platform that reads it. -/
def topicText : String := "\x7b\"topic\":\"t\"\x7d"

def topicValue : Value := .object [("topic", .string "t")]

def topicPlatform : Platform := .reading [(topicText, .object [("topic", .string "t")])]

/-- As a text it is enqueued. -/
theorem topic_event_enqueued_iff_text :
    ∃ c', callbacks.channel.trySend (eventSize 72) 3 (topicEvent (.at 0) "t" topicValue)
      = some (c', .ok ()) := by
  have hsize : "t".utf8ByteSize + (Footprint.ofValue topicValue).total + 72 ≤ controlBytes := by
    simp only [topicValue, Footprint.ofValue, Footprint.ofEntries, Footprint.total_object,
      List.map_cons, List.map_nil, Footprint.total]
    decide
  have hsend := (topic_event_enqueued_iff topicPlatform (.at 0) subscribed ⟨3, .text topicText⟩
    topicValue 72 1 _ [.setGeneration 3] callbacks rfl rfl (by decide) rfl
    (Finset.mem_insert_self _ _) rfl rfl rfl rfl rfl).2
  exact ⟨_, hsend.trans (congrArg some (if_pos hsize))⟩

/-- A byte array costs 160 bytes for every byte. -/
theorem total_bytesToJsonArray (bytes : List UInt8) :
    (Footprint.ofValue (bytesToJsonArray bytes)).total = 128 + 160 * bytes.length := by
  have hsum : ∀ bytes : List UInt8, ((Footprint.ofValues (bytes.map fun byte =>
      Value.number (.ofByte byte))).map Footprint.total).sum = 128 * bytes.length := by
    intro bytes
    induction bytes with
    | nil => rfl
    | cons b rest ih =>
      simp only [List.map_cons, Footprint.ofValues, Footprint.ofValue, List.sum_cons, ih,
        Footprint.total, List.length_cons]
      omega
  rw [bytesToJsonArray, Footprint.ofValue, Footprint.total_array, hsum, List.length_map]
  omega

/-- The same document as the header of a frame with this body. -/
def frame (body : List UInt8) : List UInt8 := [13, 0, 0, 0] ++ asBytes topicText ++ body

def frameValue (body : List UInt8) : Value :=
  .object [("data", .object [("data", bytesToJsonArray body)]), ("topic", .string "t")]

theorem routedValue_frame {body : List UInt8} (h : body.length ≤ maxBinaryExpansionBytes) :
    routedValue topicPlatform (.at 0) subscribed (.binary (frame body)) =
      some (frameValue body) := by
  have hparse : Framing.parse topicPlatform.serde (frame body) = .ok (.normal, topicValue, body) :=
    Framing.parse_normal rfl (by decide) rfl
  have hlength : ¬ (frame body).length > maxBinaryBytes := by
    have hheader : (asBytes topicText).length = 13 := rfl
    rw [frame, List.length_append, List.length_append, hheader]
    simp only [maxBinaryBytes, maxBinaryExpansionBytes, List.length_cons, List.length_nil] at h ⊢
    omega
  rw [routedValue, dealArrayBuffer, if_neg hlength, hparse]
  show (subscribed.processBinaryPayload topicPlatform (.at 0) .normal topicValue body).1 = _
  rw [processBinaryPayload_plain rfl h rfl]
  rfl

/-- A body of 13107 bytes or more makes an event that a channel with nothing
outstanding refuses. -/
theorem trySend_frame {body : List UInt8} (h : 13107 ≤ body.length) :
    callbacks.channel.trySend (eventSize 72) 3 (topicEvent (.at 0) "t" (frameValue body))
      = some (callbacks.channel, .error (.full (topicEvent (.at 0) "t" (frameValue body)))) := by
  have hbig : ¬ "t".utf8ByteSize + (Footprint.ofValue (frameValue body)).total + 72
      ≤ controlBytes := by
    simp only [frameValue, Footprint.ofValue, Footprint.ofEntries, Footprint.total_object,
      List.map_cons, List.map_nil, List.sum_cons, total_bytesToJsonArray, controlBytes]
    omega
  obtain ⟨t, hrun, hinv⟩ := Traffic.run_inv (eventSize 72) (show Channel.open' 1 = .ok _ from rfl)
    [.setGeneration 3]
  obtain rfl : callbacks = t := Option.some_inj.mp hrun
  have hsend := trySend_topicEvent hinv (le_refl 1) rfl rfl (.at 0) "t" (frameValue body)
  exact hsend.trans (congrArg some (if_neg hbig))

/-- A frame with a body of 13107 bytes is within every ingress limit and is
routed, and its event is refused by a channel with nothing outstanding. -/
theorem binary_frame_dropped :
    let body := List.replicate 13107 (0 : UInt8)
    let event := topicEvent (.at 0) "t" (frameValue body)
    routedValue topicPlatform (.at 0) subscribed (.binary (frame body)) = some (frameValue body) ∧
      (subscribed.processIngress topicPlatform (.at 0) ⟨3, .binary (frame body)⟩).outputs
        = subscribed.outputs ++ [.event 3 event] ∧
      callbacks.channel.outstanding callbacks.held = [] ∧
      callbacks.channel.receiverAlive = true ∧ callbacks.channel.current = 3 ∧
      callbacks.channel.trySend (eventSize 72) 3 event
        = some (callbacks.channel, .error (.full event)) := by
  intro body event
  have hlength : body.length = 13107 := List.length_replicate
  clear_value body
  have hsmall : body.length ≤ maxBinaryExpansionBytes := by
    rw [hlength]
    decide
  have hv := routedValue_frame hsmall
  have hout : (subscribed.processIngress topicPlatform (.at 0) ⟨3, .binary (frame body)⟩).outputs
      = subscribed.outputs ++ [.event 3 event] :=
    processIngress_topicEvent (v := frameValue body) rfl hv (show "t" ≠ "" by decide) rfl
      (Finset.mem_insert_self _ _)
  exact ⟨hv, hout, rfl, rfl, rfl, trySend_frame (le_of_eq hlength.symm)⟩

end Service

end Unitree
