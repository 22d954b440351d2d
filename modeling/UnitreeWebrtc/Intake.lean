/-
What the data channels of the peers take in (`rtc_engine/handlers.rs`).

Every data channel, the one a peer is created with and any that the robot opens, gets
handlers of its own.  For each message they look at the ready state and the generation,
check the size, decode a text, look at the generation again and then try the ingress queue,
which all peers share; what comes in between is up to the other threads.  `Node` has these
handlers as two steps, without the messages they refuse.  Here they are step by step, with
the four logs that each data channel has.

* `payload_ok`, `payload_error` — what the checks let through, and what not;
* `Intake.step` — the handlers over the rest of the system;
* `Intake.step_inv`, `Intake.run_inv` — handlers, logs and the queue agree;
* `Intake.step_turns` — what a step does with a data channel;
* `Intake.run_refines` — to the rest of the system a run is a run of `Node`;
* `Intake.messages_accounted` — where every message is.
-/
import UnitreeWebrtc.Engine
import UnitreeWebrtc.Envelope
import UnitreeWebrtc.Epoch
import UnitreeWebrtc.Tally

namespace Unitree

/-! ### Checks -/

structure DataChannelMessage where
  isString : Bool
  data : List UInt8

/-- What becomes of a message. -/
inductive IngressOutcome where
  /-- The ready state was closed or failed. -/
  | notReady
  | stale
  | oversized
  | invalidText
  | queued
  | full
  | disconnected
deriving DecidableEq

/-- The logs of a data channel. -/
inductive IngressLog where
  | full
  | closed
  | invalidText
  | oversized
deriving DecidableEq

namespace IngressLog

def name : IngressLog → String × String
  | full => ("dc_incoming_drop", "incoming_queue_full")
  | closed => ("dc_incoming_drop", "incoming_queue_disconnected")
  | invalidText => ("datachannel_invalid_utf8", "invalid_utf8")
  | oversized => ("datachannel_ingress_rejected", "message_size")

def order : List IngressLog := [full, closed, invalidText, oversized]

theorem mem_order (log : IngressLog) : log ∈ order := by
  cases log <;> decide

end IngressLog

/-- The log that counts it, which is `handle_send_error`'s for the last two. -/
def IngressOutcome.failure : IngressOutcome → Option IngressLog
  | oversized => some .oversized
  | invalidText => some .invalidText
  | full => some .full
  | disconnected => some .closed
  | notReady | stale | queued => none

/-- `message_size_allowed`. -/
def messageSizeAllowed (isString : Bool) (size : ℕ) : Bool :=
  size ≤ if isString then maxTextBytes else maxBinaryBytes

def decodeTextMessage (data : List UInt8) : Option String :=
  if data.length > maxTextBytes then none else fromUtf8 data

/-- The message as it goes into the queue, or why it does not. -/
def payload (message : DataChannelMessage) : Except IngressOutcome DcMessage :=
  if ¬ messageSizeAllowed message.isString message.data.length then .error .oversized
  else if message.isString then
    match decodeTextMessage message.data with
    | some text => .ok (.text text)
    | none => .error .invalidText
  else .ok (.binary message.data)

/-- The most bytes that a message of its kind can have. -/
def DataChannelMessage.limit (message : DataChannelMessage) : ℕ :=
  if message.isString then maxTextBytes else maxBinaryBytes

/-- The message is within its limit, and this is what its bytes are. -/
def Loads (message : DataChannelMessage) (load : DcMessage) : Prop :=
  message.data.length ≤ message.limit ∧
    if message.isString then ∃ text, load = .text text ∧ asBytes text = message.data
    else load = .binary message.data

theorem messageSizeAllowed_iff {message : DataChannelMessage} :
    messageSizeAllowed message.isString message.data.length = true ↔
      message.data.length ≤ message.limit :=
  decide_eq_true_iff

/-- What the checks let through. -/
theorem payload_ok {message : DataChannelMessage} {load : DcMessage} :
    payload message = .ok load ↔ Loads message load := by
  rw [payload, Loads]
  by_cases hsize : message.data.length ≤ message.limit
  swap
  · rw [if_pos fun hallowed => hsize (messageSizeAllowed_iff.mp hallowed)]
    exact iff_of_false (by simp) fun h => hsize h.1
  rw [if_neg (not_not.mpr (messageSizeAllowed_iff.mpr hsize)), and_iff_right hsize]
  rw [DataChannelMessage.limit] at hsize
  cases hstring : message.isString with
  | false =>
    simp only [Bool.false_eq_true, if_false]
    exact ⟨fun h => (Except.ok.inj h).symm, fun h => by rw [h]⟩
  | true =>
    rw [hstring, if_pos rfl] at hsize
    simp only [if_true, decodeTextMessage, if_neg (not_lt.mpr hsize)]
    rcases htext : fromUtf8 message.data with _ | text
    · simp only [reduceCtorEq, false_iff]
      rintro ⟨text, -, hbytes⟩
      rw [← hbytes, fromUtf8_eq.mpr rfl] at htext
      exact absurd htext (by simp)
    · have hbytes := fromUtf8_eq.mp htext
      constructor
      · rintro h
        exact ⟨text, (Except.ok.inj h).symm, hbytes.symm⟩
      · rintro ⟨text', rfl, hbytes'⟩
        have hsame := fromUtf8_eq.mpr hbytes'.symm
        rw [htext] at hsame
        rw [Option.some_inj.mp hsame]

/-- What they do not, and why. -/
theorem payload_error {message : DataChannelMessage} {e : IngressOutcome}
    (h : payload message = .error e) :
    e = .oversized ∧ message.limit < message.data.length ∨
      e = .invalidText ∧ message.data.length ≤ message.limit ∧ message.isString = true ∧
        ∀ text, asBytes text ≠ message.data := by
  have hnone : ∀ load, ¬ Loads message load := fun load hload =>
    absurd (h.symm.trans (payload_ok.mpr hload)) (by simp)
  rw [payload] at h
  split at h
  next hsize =>
    exact .inl ⟨(Except.error.inj h).symm,
      not_le.mp fun hfits => hsize (messageSizeAllowed_iff.mpr hfits)⟩
  next hsize =>
    have hsize : message.data.length ≤ message.limit :=
      messageSizeAllowed_iff.mp (not_not.mp hsize)
    split at h
    next hstring =>
      refine .inr ⟨?_, hsize, hstring, fun text htext => ?_⟩
      · split at h
        · exact absurd h (by simp)
        · exact (Except.error.inj h).symm
      · refine hnone (.text text) ⟨hsize, ?_⟩
        rw [if_pos hstring]
        exact ⟨text, rfl, htext⟩
    next => exact absurd h (by simp)

/-- `Node` checks the size of what is decoded. -/
theorem Loads.size {message : DataChannelMessage} {load : DcMessage} (h : Loads message load) :
    Node.messageSizeAllowed load = true := by
  obtain ⟨hsize, hload⟩ := h
  rw [DataChannelMessage.limit] at hsize
  cases hstring : message.isString with
  | false =>
    rw [hstring, if_neg (by simp)] at hload hsize
    rw [hload]
    exact decide_eq_true hsize
  | true =>
    rw [hstring, if_pos rfl] at hload hsize
    obtain ⟨text, rfl, hbytes⟩ := hload
    exact decide_eq_true (hbytes ▸ hsize)

/-! ### The system -/

/-- Where the handler of messages is. -/
inductive HandlerStage where
  | idle
  /-- Before the first look at the generation. -/
  | compare (message : DataChannelMessage)
  /-- Before the look of `enqueue_current`. -/
  | recheck (message : DataChannelMessage) (p : DcMessage)
  /-- Before `try_send`. -/
  | send (message : DataChannelMessage) (p : DcMessage)

/-- A data channel with its handlers. -/
structure Handler where
  peer : ℕ
  generation : ℕ
  stage : HandlerStage
  dropped : Bool
  logs : Tally IngressLog Unit
  messages : List DataChannelMessage
  outcomes : List (DataChannelMessage × IngressOutcome)

/-- The peers' data channels and the system they feed. -/
structure Intake where
  node : Node
  readyState : RtcReadyState
  handlers : List Handler
  /-- The router has ended, and its end of the queue with it. -/
  routerGone : Bool
  /-- What has gone into the queue, with the data channel it came by, and what was taken
  out of it. -/
  accepted : List (Option ℕ × Source × IngressMessage)
  routed : List (Source × IngressMessage)

namespace Handler

/-- `bind_data_channel_handlers`. -/
def bind (peer generation : ℕ) : Handler :=
  { peer, generation, stage := .idle, dropped := false, logs := .new IngressLog.name,
    messages := [], outcomes := [] }

/-- The handler is done with a message. -/
def settle (h : Handler) (message : DataChannelMessage) (outcome : IngressOutcome) (now : ℕ) :
    Handler :=
  { h with
    stage := .idle
    outcomes := h.outcomes ++ [(message, outcome)]
    logs :=
      match outcome.failure with
      | none => h.logs
      | some log => h.logs.record log now none }

/-- `DcMessage::for_generation`. -/
def stamp (h : Handler) (p : DcMessage) : Source × IngressMessage :=
  (.peer h.peer, { generation := h.generation, payload := p })

end Handler

namespace Intake

inductive Action where
  /-- Another thread stores a ready state. -/
  | ready (state : RtcReadyState)
  | bind (peer : ℕ)
  /-- A message comes, and the ready state is looked at. -/
  | onMessage (i : ℕ) (message : DataChannelMessage) (now : ℕ)
  | advance (i : ℕ) (now : ℕ)
  /-- The data channel is freed, and its handlers with it. -/
  | drop (i : ℕ)
  | routerEnds
  | node (a : Node.Action)

def setHandler (s : Intake) (i : ℕ) (h : Handler) : Intake :=
  { s with handlers := s.handlers.set i h }

/-- `enqueue_current` has found the generation current; `incoming.try_send`. -/
def trySend (p : Platform) (base capacity : ℕ) (s : Intake) (i : ℕ) (h : Handler)
    (message : DataChannelMessage) (load : DcMessage) (now : ℕ) : Intake :=
  if s.routerGone then s.setHandler i (h.settle message .disconnected now)
  else
    let node := s.node.step p base capacity (.enqueue (s.node.inFlight.idxOf (h.stamp load)))
    if s.node.ingress.length < capacity then
      { s.setHandler i (h.settle message .queued now) with
        node, accepted := s.accepted ++ [(some i, h.stamp load)] }
    else { s.setHandler i (h.settle message .full now) with node }

/-- The handlers' own steps are not the others' to take, and with the router gone nobody
is left who uses the queue or the retained fault. -/
def allowed (s : Intake) : Node.Action → Bool
  | .onMessage _ _ | .enqueue _ => false
  | .commandFault _ | .routeMessage _ | .takeFault _ | .route _ => !s.routerGone
  | _ => true

/-- A step of another thread: the router takes the first message of the queue, the engine
may put one at its end. -/
def others (p : Platform) (base capacity : ℕ) (s : Intake) (a : Node.Action) : Intake :=
  let node := s.node.step p base capacity a
  match a with
  | .route _ => { s with node, routed := s.routed ++ s.node.ingress.head?.toList }
  | _ =>
    let added := node.ingress.drop s.node.ingress.length
    { s with node, accepted := s.accepted ++ added.map fun m => (none, m) }

def step (p : Platform) (base capacity : ℕ) (s : Intake) : Action → Intake
  | .ready state => { s with readyState := state }
  | .bind peer =>
    match s.node.peers[peer]? with
    | none => s
    | some generation => { s with handlers := s.handlers ++ [.bind peer generation] }
  | .onMessage i message now =>
    match s.handlers[i]? with
    | none => s
    | some h =>
      match h.dropped, h.stage with
      | false, .idle =>
        let h := { h with messages := h.messages ++ [message] }
        if s.readyState = .closed ∨ s.readyState = .failed then
          s.setHandler i (h.settle message .notReady now)
        else s.setHandler i { h with stage := .compare message }
      | _, _ => s
  | .advance i now =>
    match s.handlers[i]? with
    | none => s
    | some h =>
      match h.stage with
      | .idle => s
      | .compare message =>
        if h.generation ≠ s.node.ingressGeneration then
          s.setHandler i (h.settle message .stale now)
        else
          match payload message with
          | .error outcome => s.setHandler i (h.settle message outcome now)
          | .ok load => s.setHandler i { h with stage := .recheck message load }
      | .recheck message load =>
        if h.generation ≠ s.node.ingressGeneration then
          s.setHandler i (h.settle message .stale now)
        else
          { s.setHandler i { h with stage := .send message load } with
            node := s.node.step p base capacity (.onMessage h.peer load) }
      | .send message load => s.trySend p base capacity i h message load now
  | .drop i =>
    match s.handlers[i]? with
    | none => s
    | some h =>
      match h.dropped, h.stage with
      | false, .idle =>
        s.setHandler i { h with dropped := true, logs := h.logs.drop IngressLog.order }
      | _, _ => s
  | .routerEnds => { s with routerGone := true }
  | .node a => if s.allowed a then s.others p base capacity a else s

def init (node : Node) : Intake :=
  { node, readyState := .closed, handlers := [], routerGone := false, accepted := [], routed := [] }

end Intake

/-! ### What the others leave alone -/

namespace Node

variable {p : Platform} {base capacity : ℕ} {n : Node}

theorem process_queues (env : Env) (m : Source × IngressMessage) :
    (n.process p base env m).inFlight = n.inFlight ∧
      (n.process p base env m).ingress = n.ingress ∧
      (n.process p base env m).peers = n.peers := by
  have hfold : ∀ (es : List Effect) (n' : Node),
      (es.foldl (handOn base m.1) n').inFlight = n'.inFlight ∧
        (es.foldl (handOn base m.1) n').ingress = n'.ingress ∧
        (es.foldl (handOn base m.1) n').peers = n'.peers := by
    intro es
    induction es with
    | nil => exact fun n' => ⟨rfl, rfl, rfl⟩
    | cons e rest ih =>
      intro n'
      obtain ⟨hflight, hingress, hpeers⟩ := ih (n'.handOn base m.1 e)
      rw [List.foldl_cons, hflight, hingress, hpeers]
      cases e <;> exact ⟨rfl, rfl, rfl⟩
  exact hfold _ _

theorem push_queues (m : Source × IngressMessage) :
    (n.push capacity m).inFlight = n.inFlight ∧ (n.push capacity m).peers = n.peers ∧
      (n.push capacity m).ingress =
        if n.ingress.length < capacity then n.ingress ++ [m] else n.ingress := by
  rw [push]
  split <;> exact ⟨rfl, rfl, rfl⟩

/-- The others leave the messages of the handlers alone. -/
theorem step_inFlight (a : Action) (hmessage : ∀ peer load, a ≠ .onMessage peer load)
    (henqueue : ∀ i, a ≠ .enqueue i) :
    (n.step p base capacity a).inFlight = n.inFlight := by
  cases a with
  | onMessage peer load => exact absurd rfl (hmessage peer load)
  | enqueue i => exact absurd rfl (henqueue i)
  | takeFault env | route env =>
    simp only [step]
    split
    · rfl
    · exact (process_queues env _).1
  | commandFault | routeMessage =>
    simp only [step]
    repeat' split
    all_goals first | rfl | exact (push_queues _).1
  | _ =>
    simp only [step]
    repeat' split
    all_goals rfl

theorem step_peers (a : Action) : n.peers <+: (n.step p base capacity a).peers := by
  cases a with
  | createPeer => exact List.prefix_append _ _
  | takeFault env | route env =>
    simp only [step]
    split
    · exact List.prefix_rfl
    · rw [(process_queues env _).2.2]
  | commandFault | routeMessage | enqueue =>
    simp only [step]
    repeat' split
    all_goals first | exact List.prefix_rfl | rw [(push_queues _).2.1]
  | _ =>
    simp only [step]
    repeat' split
    all_goals exact List.prefix_rfl

/-- The others put a message at the end of the queue, if there is room. -/
theorem step_ingress (a : Action) (henqueue : ∀ i, a ≠ .enqueue i)
    (hroute : ∀ env, a ≠ .route env) :
    (n.step p base capacity a).ingress = n.ingress ∨ n.ingress.length < capacity ∧
      ∃ m, (n.step p base capacity a).ingress = n.ingress ++ [m] := by
  have hpush : ∀ (n' : Node) m, n'.ingress = n.ingress →
      (n'.push capacity m).ingress = n.ingress ∨ n.ingress.length < capacity ∧
        ∃ m', (n'.push capacity m).ingress = n.ingress ++ [m'] := by
    intro n' m hsame
    rw [(push_queues m).2.2, hsame]
    by_cases hroom : n.ingress.length < capacity
    · exact .inr ⟨hroom, m, if_pos hroom⟩
    · exact .inl (if_neg hroom)
  cases a with
  | enqueue i => exact absurd rfl (henqueue i)
  | route env => exact absurd rfl (hroute env)
  | takeFault env =>
    simp only [step]
    split
    · exact .inl rfl
    · exact .inl (process_queues env _).2.1
  | commandFault | routeMessage =>
    simp only [step]
    repeat' split
    all_goals
      first
      | exact .inl rfl
      | apply hpush; rfl
  | _ =>
    refine .inl ?_
    simp only [step]
    repeat' split
    all_goals rfl

theorem route_ingress (env : Env) :
    (n.step p base capacity (.route env)).ingress = n.ingress.tail := by
  simp only [step]
  split
  next hnone => rw [hnone, List.tail_nil]
  next m rest hsome =>
    rw [(process_queues env m).2.1, hsome]
    rfl

variable (p base capacity)

/-- A handler that has found its generation current goes on with its message. -/
theorem onMessage_inFlight {peer generation : ℕ} {load : DcMessage}
    (hpeer : n.peers[peer]? = some generation) (hcurrent : generation = n.ingressGeneration)
    (hsize : messageSizeAllowed load = true) :
    n.step p base capacity (.onMessage peer load) =
      { n with inFlight := n.inFlight ++ [(.peer peer, { generation, payload := load })] } := by
  simp only [step, hpeer]
  exact if_pos ⟨hcurrent, hsize⟩

/-- And the queue gets the message that was its. -/
theorem enqueue_inFlight {m : Source × IngressMessage} (hm : m ∈ n.inFlight) :
    let n' := n.step p base capacity (.enqueue (n.inFlight.idxOf m))
    n'.inFlight = n.inFlight.erase m ∧ n'.peers = n.peers ∧
      n'.ingress = if n.ingress.length < capacity then n.ingress ++ [m] else n.ingress := by
  have hget : n.inFlight[n.inFlight.idxOf m]? = some m := by
    rw [List.getElem?_eq_getElem (List.idxOf_lt_length_of_mem hm), List.getElem_idxOf]
  have hstep : n.step p base capacity (.enqueue (n.inFlight.idxOf m)) =
      ({ n with inFlight := n.inFlight.eraseIdx (n.inFlight.idxOf m) }).push capacity m := by
    simp only [step, hget]
  dsimp only
  rw [hstep]
  set n' : Node := { n with inFlight := n.inFlight.eraseIdx (n.inFlight.idxOf m) }
  obtain ⟨hflight, hpeers, hingress⟩ :
      (n'.push capacity m).inFlight = n'.inFlight ∧ (n'.push capacity m).peers = n'.peers ∧
        (n'.push capacity m).ingress =
          if n'.ingress.length < capacity then n'.ingress ++ [m] else n'.ingress := push_queues m
  exact ⟨hflight.trans (List.erase_eq_eraseIdx_of_idxOf rfl).symm, hpeers, hingress⟩

end Node

/-! ### One data channel -/

/-- The message that a handler has in hand. -/
def HandlerStage.inHand : HandlerStage → List DataChannelMessage
  | .idle => []
  | .compare message | .recheck message _ | .send message _ => [message]

/-- The steps that are left at most, until its outcome is there. -/
def HandlerStage.left : HandlerStage → ℕ
  | .idle => 0
  | .compare _ => 3
  | .recheck _ _ => 2
  | .send _ _ => 1

/-- What the stage says of the message in hand. -/
def HandlerStage.Checked : HandlerStage → Prop
  | .idle | .compare _ => True
  | .recheck message load | .send message load => Loads message load

namespace Handler

/-- The messages that went into the queue. -/
def queued (h : Handler) : List (Source × IngressMessage) :=
  h.outcomes.filterMap fun x => if x.2 = .queued then (payload x.1).toOption.map h.stamp else none

/-- Messages, outcomes and logs of one data channel agree. -/
structure Inv (h : Handler) : Prop where
  handled : h.messages = h.outcomes.map Prod.fst ++ h.stage.inHand
  checked : h.stage.Checked
  balanced : h.logs.Balanced
  label : h.logs.label = 0
  recorded : h.logs.recorded = h.outcomes.filterMap fun x => x.2.failure.map fun log => (log, 0)
  settled : h.dropped = true → h.stage = .idle ∧ ∀ log, h.logs.waiting log 0 = 0

variable {h : Handler}

theorem bind_inv (peer generation : ℕ) : (bind peer generation).Inv where
  handled := rfl
  checked := trivial
  balanced := Tally.balanced_new _
  label := rfl
  recorded := rfl
  settled := fun hdropped => absurd hdropped (by simp [bind])

/-- The handler is done with the message it had. -/
theorem settle_inv {message : DataChannelMessage} (hdropped : h.dropped = false)
    (hhandled : h.messages = h.outcomes.map Prod.fst ++ [message])
    (hbalanced : h.logs.Balanced) (hlabel : h.logs.label = 0)
    (hrecorded : h.logs.recorded =
      h.outcomes.filterMap fun x => x.2.failure.map fun log => (log, 0))
    (outcome : IngressOutcome) (now : ℕ) : (h.settle message outcome now).Inv where
  handled := by simpa [settle, HandlerStage.inHand] using hhandled
  checked := trivial
  balanced := by
    rw [settle]
    rcases outcome.failure with _ | log
    · exact hbalanced
    · exact Tally.balanced_record hbalanced log now none
  label := by
    rw [settle]
    rcases outcome.failure with _ | log <;> exact hlabel
  recorded := by
    rcases hfailure : outcome.failure with _ | log
    · simp [settle, hfailure, hrecorded]
    · simp [settle, hfailure, hrecorded, hlabel, Tally.record, RepeatLog.Op.records]
  settled := fun hgone => absurd (hdropped.symm.trans hgone) (by simp)

theorem Inv.settles (hinv : h.Inv) {message : DataChannelMessage}
    (hhand : h.stage.inHand = [message]) (outcome : IngressOutcome) (now : ℕ) :
    (h.settle message outcome now).Inv := by
  have hdropped : h.dropped = false := by
    by_contra hgone
    obtain ⟨hidle, -⟩ := hinv.settled (by simpa using hgone)
    rw [hidle] at hhand
    exact absurd hhand (by simp [HandlerStage.inHand])
  exact settle_inv hdropped (hinv.handled.trans (by rw [hhand])) hinv.balanced hinv.label
    hinv.recorded outcome now

/-- The handler goes on with the message it has. -/
theorem Inv.goes (hinv : h.Inv) {message : DataChannelMessage}
    (hhand : h.stage.inHand = [message]) {stage : HandlerStage}
    (hhand' : stage.inHand = [message]) (hchecked : stage.Checked) :
    ({ h with stage } : Handler).Inv :=
  { hinv with
    handled := hinv.handled.trans (by rw [hhand, hhand'])
    checked := hchecked
    settled := fun hgone => by
      obtain ⟨hidle, -⟩ := hinv.settled hgone
      rw [hidle] at hhand
      exact absurd hhand (by simp [HandlerStage.inHand]) }

theorem Inv.load (hinv : h.Inv) {message : DataChannelMessage} {load : DcMessage}
    (hstage : h.stage = .recheck message load ∨ h.stage = .send message load) :
    Loads message load := by
  have hchecked := hinv.checked
  rcases hstage with hstage | hstage
  all_goals
    rw [hstage] at hchecked
    exact hchecked

theorem Inv.drop (hinv : h.Inv) (hidle : h.stage = .idle) :
    ({ h with dropped := true, logs := h.logs.drop IngressLog.order } : Handler).Inv :=
  { hinv with
    balanced := Tally.balanced_drop hinv.balanced
    label := Tally.drop_label.trans hinv.label
    recorded := (Tally.drop_recorded hinv.balanced).trans hinv.recorded
    settled := fun _ =>
      ⟨hidle, fun log => Tally.drop_waiting hinv.balanced IngressLog.mem_order log 0⟩ }

theorem queued_settle {message : DataChannelMessage} {outcome : IngressOutcome} {now : ℕ} :
    (h.settle message outcome now).queued = h.queued ++
      if outcome = .queued then ((payload message).toOption.map h.stamp).toList else [] := by
  have hstamp : (h.settle message outcome now).stamp = h.stamp := rfl
  have houtcomes : (h.settle message outcome now).outcomes = h.outcomes ++ [(message, outcome)] :=
    rfl
  rw [queued, queued, hstamp, houtcomes, List.filterMap_append, List.filterMap_cons,
    List.filterMap_nil]
  by_cases hqueued : outcome = .queued
  · rw [if_pos hqueued, if_pos hqueued]
    rcases (payload message).toOption with _ | load <;> rfl
  · rw [if_neg hqueued, if_neg hqueued]

/-- The message that the handler is about to send. -/
def sending (h : Handler) : Option (Source × IngressMessage) :=
  match h.stage with
  | .send _ load => some (h.stamp load)
  | _ => none

end Handler

/-! ### All of them, and the queue -/

/-- A bound on a count follows one entry. -/
theorem countP_set_le {α : Type} {l : List α} {f : α → Bool} {i : ℕ} {x y : α} {a b : ℕ}
    (hget : l[i]? = some x)
    (hnew : (if f y then 1 else 0) + a ≤ (if f x then 1 else 0) + b) (hold : l.countP f ≤ a) :
    (l.set i y).countP f ≤ b := by
  obtain ⟨hlt, rfl⟩ := List.getElem?_eq_some_iff.mp hget
  rw [List.countP_set hlt]
  cases hx : f l[i] with
  | false =>
    rw [hx] at hnew
    simp only [Bool.false_eq_true, if_false] at hnew ⊢
    omega
  | true =>
    have hpos : 0 < l.countP f := List.countP_pos_iff.mpr ⟨l[i], List.getElem_mem hlt, hx⟩
    rw [hx] at hnew
    simp only [if_true] at hnew ⊢
    omega

/-- What is taken out of a list is missing there once. -/
theorem count_le_erase {α : Type} [BEq α] [LawfulBEq α] (l : List α) (x y : α) :
    l.count y ≤ (if x == y then 1 else 0) + (l.erase x).count y := by
  rw [List.count_erase]
  cases x == y with
  | true =>
    simp only [if_true]
    omega
  | false =>
    simp only [Bool.false_eq_true, if_false]
    omega

namespace Intake

/-- The handlers are in order, what they are about to send is in flight, and what went into
the queue is in it or with the router. -/
structure Inv (capacity : ℕ) (s : Intake) : Prop where
  handlers : ∀ h ∈ s.handlers, h.Inv
  bound : ∀ h ∈ s.handlers, s.node.peers[h.peer]? = some h.generation
  flight : ∀ m, s.handlers.countP (fun h => h.sending = some m) ≤ s.node.inFlight.count m
  room : s.node.ingress.length ≤ capacity
  queue : s.accepted.map Prod.snd = s.routed ++ s.node.ingress
  queued : ∀ i h, s.handlers[i]? = some h →
    h.queued = (s.accepted.filter fun x => x.1 = some i).map Prod.snd
  known : ∀ x ∈ s.accepted, ∀ i, x.1 = some i → i < s.handlers.length

variable {p : Platform} {base capacity : ℕ} {s : Intake} {i : ℕ} {h : Handler}

theorem init_inv {node : Node} (hempty : node.ingress = []) : (init node).Inv capacity where
  handlers := fun _ hmem => absurd hmem List.not_mem_nil
  bound := fun _ hmem => absurd hmem List.not_mem_nil
  flight := fun _ => Nat.zero_le _
  room := by
    rw [show (init node).node.ingress = [] from hempty]
    exact Nat.zero_le _
  queue := hempty.symm
  queued := fun _ _ hget => absurd hget (by simp [init])
  known := fun _ hmem => absurd hmem List.not_mem_nil

/-- One handler goes on, and what it puts into the queue is what it counts as queued. -/
theorem Inv.update (hinv : s.Inv capacity) (hget : s.handlers[i]? = some h) {h' : Handler}
    (hh' : h'.Inv) (hpeer : h'.peer = h.peer) (hgeneration : h'.generation = h.generation)
    (node : Node) (hpeers : node.peers = s.node.peers)
    (hflight : ∀ m, (if h'.sending = some m then 1 else 0) + s.node.inFlight.count m ≤
      (if h.sending = some m then 1 else 0) + node.inFlight.count m)
    {added : List (Source × IngressMessage)} (hingress : node.ingress = s.node.ingress ++ added)
    (hroom : node.ingress.length ≤ capacity) (hqueued : h'.queued = h.queued ++ added) :
    ({ s.setHandler i h' with
        node
        accepted := s.accepted ++ added.map fun m => (some i, m) } : Intake).Inv capacity where
  handlers := fun x hx => by
    rcases List.mem_or_eq_of_mem_set hx with hx | rfl
    · exact hinv.handlers x hx
    · exact hh'
  bound := fun x hx => by
    dsimp only
    rw [hpeers]
    rcases List.mem_or_eq_of_mem_set hx with hx | rfl
    · exact hinv.bound x hx
    · rw [hpeer, hgeneration]
      exact hinv.bound h (List.mem_of_getElem? hget)
  flight := fun m => countP_set_le hget (by simpa using hflight m) (hinv.flight m)
  room := hroom
  queue := by
    have hsnd : (added.map fun m => ((some i : Option ℕ), m)).map Prod.snd = added := by
      rw [List.map_map]
      exact List.map_id _
    dsimp only [setHandler]
    rw [List.map_append, hinv.queue, hingress, List.append_assoc, hsnd]
  queued := fun j x hx => by
    obtain ⟨hlt, -⟩ := List.getElem?_eq_some_iff.mp hget
    dsimp only [setHandler] at hx ⊢
    rw [List.filter_append, List.map_append]
    by_cases hji : j = i
    · subst hji
      rw [List.getElem?_set_self hlt] at hx
      obtain rfl := Option.some.inj hx
      rw [hqueued, hinv.queued j h hget]
      simp [List.filter_map, Function.comp_def]
    · rw [List.getElem?_set_ne (Ne.symm hji)] at hx
      rw [hinv.queued j x hx]
      simp [List.filter_map, Function.comp_def, Ne.symm hji]
  known := fun x hx j hj => by
    dsimp only [setHandler] at hx ⊢
    rw [List.length_set]
    rcases List.mem_append.mp hx with hx | hx
    · exact hinv.known x hx j hj
    · obtain ⟨m, -, rfl⟩ := List.mem_map.mp hx
      obtain rfl := Option.some.inj hj
      exact (List.getElem?_eq_some_iff.mp hget).1

/-- One handler goes on and sends nothing. -/
theorem Inv.set (hinv : s.Inv capacity) (hget : s.handlers[i]? = some h) {h' : Handler}
    (hh' : h'.Inv) (hpeer : h'.peer = h.peer) (hgeneration : h'.generation = h.generation)
    (hsends : h'.sending = none) (hqueued : h'.queued = h.queued) :
    (s.setHandler i h').Inv capacity := by
  have hflight : ∀ m, (if h'.sending = some m then 1 else 0) + s.node.inFlight.count m ≤
      (if h.sending = some m then 1 else 0) + s.node.inFlight.count m := by
    intro m
    simp [hsends]
  have hnew := hinv.update hget hh' hpeer hgeneration s.node rfl hflight
    (List.append_nil _).symm hinv.room (hqueued.trans (List.append_nil _).symm)
  rw [List.map_nil, List.append_nil] at hnew
  exact hnew

/-- A handler is done with a message that it has not put into the queue. -/
theorem Inv.settle (hinv : s.Inv capacity) (hget : s.handlers[i]? = some h)
    {message : DataChannelMessage} (hhand : h.stage.inHand = [message]) {outcome : IngressOutcome}
    (houtcome : outcome ≠ .queued) (now : ℕ) :
    (s.setHandler i (h.settle message outcome now)).Inv capacity := by
  have hh : (h.settle message outcome now).Inv :=
    (hinv.handlers h (List.mem_of_getElem? hget)).settles hhand outcome now
  refine hinv.set hget hh rfl rfl rfl ?_
  rw [Handler.queued_settle, if_neg houtcome, List.append_nil]

theorem Inv.bind (hinv : s.Inv capacity) {peer generation : ℕ}
    (hpeer : s.node.peers[peer]? = some generation) :
    ({ s with handlers := s.handlers ++ [.bind peer generation] } : Intake).Inv capacity where
  handlers := fun x hx => by
    rcases List.mem_append.mp hx with hx | hx
    · exact hinv.handlers x hx
    · rw [List.mem_singleton.mp hx]
      exact Handler.bind_inv peer generation
  bound := fun x hx => by
    rcases List.mem_append.mp hx with hx | hx
    · exact hinv.bound x hx
    · rw [List.mem_singleton.mp hx]
      exact hpeer
  flight := fun m => by
    have hidle : (Handler.bind peer generation).sending = none := rfl
    dsimp only
    rw [List.countP_append, List.countP_singleton, hidle]
    simpa using hinv.flight m
  room := hinv.room
  queue := hinv.queue
  queued := fun j x hx => by
    by_cases hlt : j < s.handlers.length
    · exact hinv.queued j x ((List.getElem?_append_left hlt).symm.trans hx)
    · have hnew : x = .bind peer generation := by
        have hmem : x ∈ [Handler.bind peer generation] := by
          rw [List.getElem?_append_right (by omega)] at hx
          exact List.mem_of_getElem? hx
        exact List.mem_singleton.mp hmem
      have hnone : (s.accepted.filter fun x => x.1 = some j) = [] := by
        rw [List.filter_eq_nil_iff]
        intro y hy hj
        exact hlt (hinv.known y hy j (by simpa using hj))
      rw [hnew, hnone]
      rfl
  known := fun x hx j hj => by
    rw [List.length_append]
    exact Nat.lt_add_right 1 (hinv.known x hx j hj)

/-- Others take from the queue and put messages into it. -/
theorem Inv.beside (hinv : s.Inv capacity) {node : Node}
    (hflight : node.inFlight = s.node.inFlight) (hpeers : s.node.peers <+: node.peers)
    (hroom : node.ingress.length ≤ capacity) {taken added : List (Source × IngressMessage)}
    (hqueue : s.node.ingress ++ added = taken ++ node.ingress) :
    ({ s with
        node
        routed := s.routed ++ taken
        accepted := s.accepted ++ added.map fun m => (none, m) } : Intake).Inv capacity where
  handlers := hinv.handlers
  bound := fun x hx => by
    have hold := hinv.bound x hx
    obtain ⟨later, hlater⟩ := hpeers
    obtain ⟨hlt, -⟩ := List.getElem?_eq_some_iff.mp hold
    dsimp only
    rw [← hlater, List.getElem?_append_left hlt]
    exact hold
  flight := fun m => by
    dsimp only
    rw [hflight]
    exact hinv.flight m
  room := hroom
  queue := by
    have hsnd : (added.map fun m => ((none : Option ℕ), m)).map Prod.snd = added := by
      rw [List.map_map]
      exact List.map_id _
    dsimp only
    rw [List.map_append, hinv.queue, hsnd, List.append_assoc, hqueue, List.append_assoc]
  queued := fun j x hx => by
    rw [hinv.queued j x hx]
    simp [List.filter_map, Function.comp_def]
  known := fun x hx j hj => by
    rcases List.mem_append.mp hx with hx | hx
    · exact hinv.known x hx j hj
    · obtain ⟨m, -, rfl⟩ := List.mem_map.mp hx
      exact absurd hj (by simp)

theorem Inv.others (hinv : s.Inv capacity) {a : Node.Action} (hallowed : s.allowed a = true) :
    (s.others p base capacity a).Inv capacity := by
  have henqueue : ∀ i, a ≠ .enqueue i := by
    rintro i rfl
    exact absurd hallowed (by simp [allowed])
  have hmessage : ∀ peer load, a ≠ .onMessage peer load := by
    rintro peer load rfl
    exact absurd hallowed (by simp [allowed])
  have hflight : (s.node.step p base capacity a).inFlight = s.node.inFlight :=
    Node.step_inFlight a hmessage henqueue
  have hpeers : s.node.peers <+: (s.node.step p base capacity a).peers := Node.step_peers a
  by_cases hroute : ∃ env, a = .route env
  · obtain ⟨env, rfl⟩ := hroute
    have hingress : (s.node.step p base capacity (.route env)).ingress = s.node.ingress.tail :=
      Node.route_ingress env
    have hroom : s.node.ingress.tail.length ≤ capacity := by
      rw [List.length_tail]
      exact (Nat.sub_le _ _).trans hinv.room
    have hqueue : s.node.ingress ++ [] = s.node.ingress.head?.toList ++ s.node.ingress.tail := by
      rw [List.append_nil]
      cases s.node.ingress <;> rfl
    have hnew := hinv.beside hflight hpeers (hingress ▸ hroom) (hingress ▸ hqueue)
    rw [List.map_nil, List.append_nil] at hnew
    exact hnew
  · have hnone : ∀ env, a ≠ .route env := fun env ha => hroute ⟨env, ha⟩
    have hothers : s.others p base capacity a =
        { s with
          node := s.node.step p base capacity a
          accepted := s.accepted ++ ((s.node.step p base capacity a).ingress.drop
            s.node.ingress.length).map fun m => (none, m) } := by
      cases a with
      | route env => exact absurd rfl (hnone env)
      | _ => rfl
    rw [hothers]
    have hingress : (s.node.step p base capacity a).ingress = s.node.ingress ∨
        s.node.ingress.length < capacity ∧
          ∃ m, (s.node.step p base capacity a).ingress = s.node.ingress ++ [m] :=
      Node.step_ingress a henqueue hnone
    have hfeed : (s.node.step p base capacity a).ingress.length ≤ capacity ∧
        s.node.ingress ++ (s.node.step p base capacity a).ingress.drop s.node.ingress.length =
          [] ++ (s.node.step p base capacity a).ingress := by
      rcases hingress with hsame | ⟨hlt, m, hm⟩
      · rw [hsame, List.drop_length, List.append_nil]
        exact ⟨hinv.room, rfl⟩
      · rw [hm, List.drop_left, List.length_append]
        exact ⟨hlt, rfl⟩
    have hnew := hinv.beside hflight hpeers hfeed.1 hfeed.2
    rw [List.append_nil] at hnew
    exact hnew

/-! ### What one step does -/

/-- The reason that a message has this outcome, in the state in which it gets it. -/
def Meets (capacity : ℕ) (s : Intake) (h : Handler) (message : DataChannelMessage) :
    IngressOutcome → Prop
  | .notReady => s.readyState = .closed ∨ s.readyState = .failed
  | .stale => h.generation ≠ s.node.ingressGeneration
  | .oversized => message.limit < message.data.length
  | .invalidText => message.data.length ≤ message.limit ∧ message.isString = true ∧
      ∀ text, asBytes text ≠ message.data
  | .queued => (∃ load, Loads message load) ∧ s.routerGone = false ∧
      s.node.ingress.length < capacity
  | .full => (∃ load, Loads message load) ∧ s.routerGone = false ∧
      s.node.ingress.length = capacity
  | .disconnected => (∃ load, Loads message load) ∧ s.routerGone = true

/-- What a handler has found when it goes on to this stage. -/
def Passes (s : Intake) (h : Handler) : HandlerStage → Prop
  | .idle => False
  | .compare _ => h.stage = .idle ∧ s.readyState ≠ .closed ∧ s.readyState ≠ .failed
  | .recheck message load => h.stage = .compare message ∧
      h.generation = s.node.ingressGeneration ∧ Loads message load
  | .send message load => h.stage = .recheck message load ∧
      h.generation = s.node.ingressGeneration

/-- What a handler with a message does next. -/
inductive Advances (p : Platform) (base capacity : ℕ) (s : Intake) (i : ℕ) (h : Handler) (now : ℕ) :
    Intake → Prop
  | settles {message : DataChannelMessage} {outcome : IngressOutcome}
      (hhand : h.stage.inHand = [message]) (hqueued : outcome ≠ .queued)
      (hmeets : Meets capacity s h message outcome) :
      Advances p base capacity s i h now (s.setHandler i (h.settle message outcome now))
  | checks {message : DataChannelMessage} {load : DcMessage}
      (hpasses : Passes s h (.recheck message load)) :
      Advances p base capacity s i h now
        (s.setHandler i { h with stage := .recheck message load })
  | rechecks {message : DataChannelMessage} {load : DcMessage}
      (hpasses : Passes s h (.send message load)) :
      Advances p base capacity s i h now
        { s.setHandler i { h with stage := .send message load } with
          node := s.node.step p base capacity (.onMessage h.peer load) }
  | sends {message : DataChannelMessage} {load : DcMessage} (hstage : h.stage = .send message load)
      (hthere : s.routerGone = false) :
      Advances p base capacity s i h now (s.trySend p base capacity i h message load now)

theorem step_advances (hget : s.handlers[i]? = some h) (hh : h.Inv) (now : ℕ) :
    s.step p base capacity (.advance i now) = s ∨
      Advances p base capacity s i h now (s.step p base capacity (.advance i now)) := by
  simp only [step, hget]
  split
  · exact .inl rfl
  next message hstage =>
    have hhand : h.stage.inHand = [message] := congrArg HandlerStage.inHand hstage
    refine .inr ?_
    split
    next hstale => exact .settles hhand (by simp) hstale
    next hcurrent =>
      split
      next outcome herror =>
        rcases payload_error herror with ⟨rfl, hsize⟩ | ⟨rfl, htext⟩
        · exact .settles hhand (by simp) hsize
        · exact .settles hhand (by simp) htext
      next load hload => exact .checks ⟨hstage, not_not.mp hcurrent, payload_ok.mp hload⟩
  next message load hstage =>
    have hhand : h.stage.inHand = [message] := congrArg HandlerStage.inHand hstage
    refine .inr ?_
    split
    next hstale => exact .settles hhand (by simp) hstale
    next hcurrent => exact .rechecks ⟨hstage, not_not.mp hcurrent⟩
  next message load hstage =>
    have hhand : h.stage.inHand = [message] := congrArg HandlerStage.inHand hstage
    refine .inr ?_
    cases hgone : s.routerGone with
    | false => exact .sends hstage hgone
    | true =>
      rw [trySend, if_pos hgone]
      exact .settles hhand (by simp) ⟨⟨load, hh.load (.inr hstage)⟩, hgone⟩

/-! ### What every step keeps -/

/-- A message comes. -/
theorem Inv.onMessage (hinv : s.Inv capacity) (i : ℕ) (message : DataChannelMessage) (now : ℕ) :
    (s.step p base capacity (.onMessage i message now)).Inv capacity := by
  simp only [step]
  split
  · exact hinv
  next h hget =>
    have hh := hinv.handlers h (List.mem_of_getElem? hget)
    split
    next hlive hidle =>
      have hnew : h.messages ++ [message] = h.outcomes.map Prod.fst ++ [message] := by
        rw [hh.handled, hidle, HandlerStage.inHand, List.append_nil]
      have hgoes : ({ h with
          messages := h.messages ++ [message], stage := .compare message } : Handler).Inv :=
        { hh with
          handled := hnew
          checked := trivial
          settled := fun hgone => absurd (hlive.symm.trans hgone) (by simp) }
      split
      · have hdone : (Handler.settle { h with messages := h.messages ++ [message] } message
            .notReady now).Inv := hgoes.settles rfl .notReady now
        refine hinv.set hget hdone rfl rfl rfl ?_
        rw [Handler.queued_settle, if_neg (by simp), List.append_nil]
        rfl
      · exact hinv.set hget hgoes rfl rfl rfl rfl
    · exact hinv

/-- A handler finds its generation current for the second time, and its message is in
flight. -/
theorem Inv.recheck (hinv : s.Inv capacity) (hget : s.handlers[i]? = some h)
    {message : DataChannelMessage} {load : DcMessage} (hstage : h.stage = .recheck message load)
    (hcurrent : h.generation = s.node.ingressGeneration) :
    ({ s.setHandler i { h with stage := .send message load } with
        node := s.node.step p base capacity (.onMessage h.peer load) } : Intake).Inv capacity := by
  have hh := hinv.handlers h (List.mem_of_getElem? hget)
  have hload : Loads message load := hh.load (.inl hstage)
  have hnode := Node.onMessage_inFlight p base capacity
    (hinv.bound h (List.mem_of_getElem? hget)) hcurrent hload.size
  have hhand : h.stage.inHand = [message] := congrArg HandlerStage.inHand hstage
  have hgoes : ({ h with stage := .send message load } : Handler).Inv := hh.goes hhand rfl hload
  have hnone : h.sending = none := by
    rw [Handler.sending, hstage]
  have hflight : ∀ m, (if Handler.sending { h with stage := .send message load } = some m
        then 1 else 0) + s.node.inFlight.count m ≤
      (if h.sending = some m then 1 else 0) + (s.node.inFlight ++ [h.stamp load]).count m := by
    intro m
    have hsends : Handler.sending { h with stage := .send message load } = some (h.stamp load) :=
      rfl
    rw [hsends, hnone, List.count_append, List.count_singleton]
    by_cases hm : h.stamp load = m <;> simp [hm]
    omega
  rw [hnode]
  have hnew := hinv.update hget hgoes rfl rfl
    { s.node with inFlight := s.node.inFlight ++ [h.stamp load] } rfl hflight
    (List.append_nil _).symm hinv.room (List.append_nil _).symm
  rw [List.map_nil, List.append_nil] at hnew
  exact hnew

theorem Inv.trySend (hinv : s.Inv capacity) (hget : s.handlers[i]? = some h)
    {message : DataChannelMessage} {load : DcMessage} (hstage : h.stage = .send message load)
    (now : ℕ) : (s.trySend p base capacity i h message load now).Inv capacity := by
  have hh := hinv.handlers h (List.mem_of_getElem? hget)
  have hload : Loads message load := hh.load (.inr hstage)
  have hhand : h.stage.inHand = [message] := congrArg HandlerStage.inHand hstage
  rw [Intake.trySend]
  split
  · exact hinv.settle hget hhand (by simp) now
  have hsends : h.sending = some (h.stamp load) := by
    rw [Handler.sending, hstage]
  have hmem : h.stamp load ∈ s.node.inFlight := by
    have hpos : 0 < s.handlers.countP fun h' => h'.sending = some (h.stamp load) :=
      List.countP_pos_iff.mpr ⟨h, List.mem_of_getElem? hget, by simpa using hsends⟩
    exact List.count_pos_iff.mp (hpos.trans_le (hinv.flight _))
  obtain ⟨hflight, hpeers, hingress⟩ :=
    Node.enqueue_inFlight p base capacity hmem
  -- The message leaves the handler and what is in flight at once.
  have hcount : ∀ outcome m,
      (if (h.settle message outcome now).sending = some m then 1 else 0) +
          s.node.inFlight.count m ≤
        (if h.sending = some m then 1 else 0) + (s.node.inFlight.erase (h.stamp load)).count m := by
    intro outcome m
    have hidle : (h.settle message outcome now).sending = none := rfl
    rw [hidle, hsends, if_neg (by simp), Nat.zero_add]
    simpa using count_le_erase s.node.inFlight (h.stamp load) m
  rw [← hflight] at hcount
  dsimp only
  split
  next hroom =>
    rw [if_pos hroom] at hingress
    have hadded : (h.settle message .queued now).queued = h.queued ++ [h.stamp load] := by
      rw [Handler.queued_settle, if_pos rfl, payload_ok.mpr hload]
      rfl
    refine hinv.update hget (hh.settles hhand .queued now) rfl rfl _ hpeers (hcount .queued)
      hingress ?_ hadded
    rw [hingress, List.length_append]
    exact hroom
  next hfull =>
    rw [if_neg hfull] at hingress
    have hadded : (h.settle message .full now).queued = h.queued ++ [] := by
      rw [Handler.queued_settle, if_neg (by simp)]
    have hnew := hinv.update hget (hh.settles hhand .full now) rfl rfl _ hpeers (hcount .full)
      (hingress.trans (List.append_nil _).symm) (hingress ▸ hinv.room) hadded
    rw [List.map_nil, List.append_nil] at hnew
    exact hnew

theorem Inv.advance (hinv : s.Inv capacity) (i now : ℕ) :
    (s.step p base capacity (.advance i now)).Inv capacity := by
  rcases hget : s.handlers[i]? with _ | h
  · simp only [step, hget]
    exact hinv
  have hh := hinv.handlers h (List.mem_of_getElem? hget)
  rcases step_advances (p := p) (s := s) hget hh now with hsame | hadvances
  · rw [hsame]
    exact hinv
  generalize s.step p base capacity (.advance i now) = t at hadvances ⊢
  cases hadvances with
  | settles hhand hqueued _ => exact hinv.settle hget hhand hqueued now
  | checks hpasses =>
    obtain ⟨hstage, -, hload⟩ := hpasses
    exact hinv.set hget (hh.goes (congrArg HandlerStage.inHand hstage) rfl hload) rfl rfl rfl rfl
  | rechecks hpasses => exact hinv.recheck hget hpasses.1 hpasses.2
  | sends hstage _ => exact hinv.trySend hget hstage now

theorem step_inv (hinv : s.Inv capacity) (a : Action) :
    (s.step p base capacity a).Inv capacity := by
  cases a with
  | ready state => exact { hinv with }
  | bind peer =>
    simp only [step]
    split
    · exact hinv
    next generation hpeer => exact hinv.bind hpeer
  | onMessage i message now => exact hinv.onMessage i message now
  | advance i now => exact hinv.advance i now
  | drop i =>
    simp only [step]
    split
    · exact hinv
    next h hget =>
      split
      next hidle =>
        have hgone := (hinv.handlers h (List.mem_of_getElem? hget)).drop hidle
        exact hinv.set hget hgone rfl rfl (by simp [Handler.sending, hidle]) rfl
      · exact hinv
  | routerEnds => exact { hinv with }
  | node a =>
    simp only [step]
    split
    next hallowed => exact hinv.others hallowed
    · exact hinv

theorem run_inv {node : Node} (hempty : node.ingress = []) (as : List Action) :
    (Runs.run (step p base capacity) (init node) as).Inv capacity :=
  Runs.run_invariant (I := Inv capacity) (fun _ a hinv => step_inv hinv a) as (init_inv hempty)

/-! ### One data channel in a step -/

/-- What a step does with a data channel. -/
inductive Moves (capacity : ℕ) (s : Intake) (h : Handler) : Handler → Prop
  | comes (message : DataChannelMessage) (now : ℕ) (hidle : h.stage = .idle)
      (hmeets : Meets capacity s h message .notReady) :
      Moves capacity s h
        (Handler.settle { h with messages := h.messages ++ [message] } message .notReady now)
  | settles (message : DataChannelMessage) (outcome : IngressOutcome) (now : ℕ)
      (hhand : h.stage.inHand = [message]) (hmeets : Meets capacity s h message outcome) :
      Moves capacity s h (h.settle message outcome now)
  | goes (stage : HandlerStage) (messages : List DataChannelMessage) (hpasses : Passes s h stage) :
      Moves capacity s h { h with stage, messages }
  | drops (hidle : h.stage = .idle) :
      Moves capacity s h { h with dropped := true, logs := h.logs.drop IngressLog.order }

/-- A step takes one handler on, frees it or makes a new one. -/
def Turns (capacity : ℕ) (s t : Intake) (i : ℕ) : Prop :=
  t.handlers[i]? = s.handlers[i]? ∨
    (s.handlers[i]? = none ∧ ∃ peer generation,
      t.handlers[i]? = some (.bind peer generation)) ∨
    ∃ h h', s.handlers[i]? = some h ∧ t.handlers[i]? = some h' ∧ Moves capacity s h h'

theorem Moves.turns {t : Intake} {j : ℕ} {h' : Handler} (hmoves : Moves capacity s h h')
    (hget : s.handlers[j]? = some h) (ht : t.handlers = s.handlers.set j h') (i : ℕ) :
    Turns capacity s t i := by
  rw [Turns, ht]
  by_cases hij : i = j
  · subst hij
    exact .inr (.inr ⟨h, h', hget,
      List.getElem?_set_self (List.getElem?_eq_some_iff.mp hget).1, hmoves⟩)
  · exact .inl (List.getElem?_set_ne (Ne.symm hij))

theorem others_handlers (a : Node.Action) : (s.others p base capacity a).handlers = s.handlers := by
  cases a <;> rfl

theorem advance_turns (hinv : s.Inv capacity) (j now i : ℕ) :
    Turns capacity s (s.step p base capacity (.advance j now)) i := by
  rcases hget : s.handlers[j]? with _ | h
  · simp only [step, hget]
    exact .inl rfl
  have hh := hinv.handlers h (List.mem_of_getElem? hget)
  rcases step_advances (p := p) (s := s) hget hh now with hsame | hadvances
  · rw [hsame]
    exact .inl rfl
  generalize s.step p base capacity (.advance j now) = t at hadvances ⊢
  cases hadvances with
  | settles hhand _ hmeets => exact (Moves.settles _ _ now hhand hmeets).turns hget rfl i
  | checks hpasses => exact (Moves.goes _ h.messages hpasses).turns hget rfl i
  | rechecks hpasses => exact (Moves.goes _ h.messages hpasses).turns hget rfl i
  | sends hstage hthere =>
    have hhand : h.stage.inHand = [_] := congrArg HandlerStage.inHand hstage
    have hload := hh.load (.inr hstage)
    rw [Intake.trySend, if_neg (by simp [hthere])]
    dsimp only
    split
    next hroom =>
      exact (Moves.settles _ .queued now hhand ⟨⟨_, hload⟩, hthere, hroom⟩).turns hget rfl i
    next hfull =>
      have hlength := le_antisymm hinv.room (not_lt.mp hfull)
      exact (Moves.settles _ .full now hhand ⟨⟨_, hload⟩, hthere, hlength⟩).turns hget rfl i

theorem step_turns (p : Platform) (base : ℕ) (hinv : s.Inv capacity) (a : Action) (i : ℕ) :
    Turns capacity s (s.step p base capacity a) i := by
  cases a with
  | ready state => exact .inl rfl
  | bind peer =>
    simp only [step]
    split
    · exact .inl rfl
    next generation hpeer =>
      rw [Turns]
      rcases lt_trichotomy i s.handlers.length with hlt | rfl | hgt
      · exact .inl (List.getElem?_append_left hlt)
      · exact .inr (.inl ⟨List.getElem?_eq_none le_rfl, peer, generation,
          List.getElem?_concat_length⟩)
      · refine .inl ?_
        rw [List.getElem?_eq_none hgt.le, List.getElem?_eq_none]
        rw [List.length_append]
        exact hgt
  | onMessage j message now =>
    simp only [step]
    split
    · exact .inl rfl
    next h hget =>
      split
      next hlive hidle =>
        split
        next hready => exact (Moves.comes message now hidle hready).turns hget rfl i
        next hready =>
          have hpasses : Passes s h (.compare message) := ⟨hidle, not_or.mp hready⟩
          exact (Moves.goes _ _ hpasses).turns hget rfl i
      · exact .inl rfl
  | advance j now => exact advance_turns hinv j now i
  | drop j =>
    simp only [step]
    split
    · exact .inl rfl
    next h hget =>
      split
      next hidle => exact (Moves.drops hidle).turns hget rfl i
      · exact .inl rfl
  | routerEnds => exact .inl rfl
  | node a =>
    simp only [step]
    split
    · exact .inl (by rw [others_handlers])
    · exact .inl rfl

/-- A data channel that is free takes the message that comes. -/
theorem step_onMessage (hget : s.handlers[i]? = some h) (hlive : h.dropped = false)
    (hidle : h.stage = .idle) (message : DataChannelMessage) (now : ℕ) :
    ∃ h', (s.step p base capacity (.onMessage i message now)).handlers[i]? = some h' ∧
      h'.messages = h.messages ++ [message] := by
  have hlt : i < s.handlers.length := (List.getElem?_eq_some_iff.mp hget).1
  simp only [step, hget, hlive, hidle]
  split <;> exact ⟨_, List.getElem?_set_self hlt, rfl⟩

/-- And each of its steps brings it nearer to the end of it. -/
theorem step_advance (hget : s.handlers[i]? = some h) (hbusy : h.stage ≠ .idle) (now : ℕ) :
    ∃ h', (s.step p base capacity (.advance i now)).handlers[i]? = some h' ∧
      h'.stage.left < h.stage.left := by
  have hlt : i < s.handlers.length := (List.getElem?_eq_some_iff.mp hget).1
  simp only [step, hget, trySend]
  cases hstage : h.stage with
  | idle => exact absurd hstage hbusy
  | compare | recheck | send =>
    dsimp only
    repeat' split
    all_goals exact ⟨_, List.getElem?_set_self hlt, by simp [Handler.settle, HandlerStage.left]⟩

/-! ### Whole runs -/

/-- What a step is to the rest of the system. -/
def traced (s : Intake) : Action → List Node.Action
  | .node a => if s.allowed a then [a] else []
  | .advance i _ =>
    match s.handlers[i]? with
    | none => []
    | some h =>
      match h.stage with
      | .idle | .compare _ => []
      | .recheck _ load =>
        if h.generation ≠ s.node.ingressGeneration then [] else [.onMessage h.peer load]
      | .send _ load =>
        if s.routerGone then [] else [.enqueue (s.node.inFlight.idxOf (h.stamp load))]
  | .ready _ | .bind _ | .onMessage _ _ _ | .drop _ | .routerEnds => []

/-- What a run is to it. -/
def trace (p : Platform) (base capacity : ℕ) : Intake → List Action → List Node.Action
  | _, [] => []
  | s, a :: as => s.traced a ++ trace p base capacity (s.step p base capacity a) as

theorem step_refines (a : Action) :
    (s.step p base capacity a).node = Runs.run (Node.step p base capacity) s.node (s.traced a) := by
  cases a with
  | ready | routerEnds => rfl
  | bind peer | onMessage i message now | drop i =>
    simp only [step]
    repeat' split
    all_goals rfl
  | advance i now =>
    simp only [step, traced]
    rcases s.handlers[i]? with _ | h
    · rfl
    dsimp only
    cases h.stage with
    | idle => rfl
    | compare message =>
      dsimp only
      repeat' split
      all_goals rfl
    | recheck message load =>
      dsimp only
      split <;> rfl
    | send message load =>
      dsimp only [trySend]
      split
      · rfl
      · split <;> rfl
  | node a =>
    simp only [step, traced]
    split
    · cases a <;> rfl
    · rfl

theorem run_refines (as : List Action) : ∀ s : Intake,
    (Runs.run (step p base capacity) s as).node =
      Runs.run (Node.step p base capacity) s.node (trace p base capacity s as) := by
  induction as with
  | nil => exact fun s => rfl
  | cons a rest ih =>
    intro s
    rw [Runs.run_cons, ih, step_refines, trace, Runs.run_append]

/-- The router takes the first message of the queue, and nobody else does. -/
def Routes (s : Intake) (a : Action) (m : Source × IngressMessage) : Prop :=
  (∃ env, a = .node (.route env)) ∧ s.node.ingress.head? = some m

theorem step_routed (a : Action) :
    (s.step p base capacity a).routed = s.routed ∨
      ∃ m, Routes s a m ∧ (s.step p base capacity a).routed = s.routed ++ [m] := by
  cases a with
  | ready | routerEnds => exact .inl rfl
  | bind peer | onMessage i message now | drop i | advance i now =>
    refine .inl ?_
    simp only [step, trySend]
    repeat' split
    all_goals rfl
  | node a =>
    simp only [step]
    split
    swap
    · exact .inl rfl
    cases a with
    | route env =>
      rcases hhead : s.node.ingress.head? with _ | m
      · refine .inl ?_
        simp [others, hhead]
      · refine .inr ⟨m, ⟨⟨env, rfl⟩, hhead⟩, ?_⟩
        simp [others, hhead]
    | _ => exact .inl rfl

/-- The ready state that is stored. -/
def Action.stores : Action → Option RtcReadyState
  | .ready state => some state
  | _ => none

/-- The ready state is what was stored last, and the queue is gone once the router is. -/
theorem run_stores (as : List Action) : ∀ s : Intake,
    let s' := Runs.run (step p base capacity) s as
    s'.readyState = ((as.filterMap Action.stores).getLast?).getD s.readyState ∧
      (s'.routerGone = true ↔ s.routerGone = true ∨ .routerEnds ∈ as) := by
  have hstep : ∀ (s : Intake) a, (s.step p base capacity a).readyState =
      (Action.stores a).getD s.readyState ∧
      ((s.step p base capacity a).routerGone = true ↔ s.routerGone = true ∨ a = .routerEnds) := by
    intro s a
    cases a with
    | ready state => exact ⟨rfl, by simp [step]⟩
    | routerEnds => exact ⟨rfl, by simp [step]⟩
    | bind | onMessage | drop | advance =>
      simp only [step, trySend]
      repeat' split
      all_goals exact ⟨rfl, by simp [setHandler]⟩
    | node a =>
      simp only [step]
      split
      · cases a <;> exact ⟨rfl, by simp [others]⟩
      · exact ⟨rfl, by simp⟩
  induction as with
  | nil => exact fun s => ⟨rfl, by simp⟩
  | cons a rest ih =>
    intro s
    obtain ⟨hready, hgone⟩ := ih (s.step p base capacity a)
    obtain ⟨hready₁, hgone₁⟩ := hstep s a
    refine ⟨?_, ?_⟩
    · rw [Runs.run_cons, hready, hready₁, List.filterMap_cons]
      cases a.stores with
      | none => rfl
      | some state => rw [List.getLast?_cons]; rfl
    · rw [Runs.run_cons, hgone, hgone₁, List.mem_cons, or_assoc, eq_comm (a := a)]

/-- The outcomes of one data channel. -/
def outcomesOf (s : Intake) (i : ℕ) : List (DataChannelMessage × IngressOutcome) :=
  (s.handlers[i]?.map Handler.outcomes).getD []

/-- A step gives this message this outcome. -/
def Settles (capacity : ℕ) (i : ℕ) (s : Intake) (message : DataChannelMessage)
    (outcome : IngressOutcome) : Prop :=
  ∃ h, s.handlers[i]? = some h ∧ Meets capacity s h message outcome ∧
    (h.stage.inHand = [message] ∨ h.stage = .idle ∧ outcome = .notReady)

theorem step_outcomes (hinv : s.Inv capacity) (a : Action) (i : ℕ) :
    (s.step p base capacity a).outcomesOf i = s.outcomesOf i ∨
      ∃ x, Settles capacity i s x.1 x.2 ∧
        (s.step p base capacity a).outcomesOf i = s.outcomesOf i ++ [x] := by
  rw [outcomesOf, outcomesOf]
  rcases step_turns p base hinv a i with
    hsame | ⟨hnone, peer, generation, hnew⟩ | ⟨h, h', hget, hget', hmoves⟩
  · exact .inl (by rw [hsame])
  · exact .inl (by rw [hnone, hnew]; rfl)
  · rw [hget, hget']
    cases hmoves with
    | comes message now hidle hmeets =>
      exact .inr ⟨(message, .notReady), ⟨h, hget, hmeets, .inr ⟨hidle, rfl⟩⟩, rfl⟩
    | settles message outcome now hhand hmeets =>
      exact .inr ⟨(message, outcome), ⟨h, hget, hmeets, .inl hhand⟩, rfl⟩
    | goes | drops => exact .inl rfl

/-- A handler that stands somewhere found what it takes to get there, and has stood there
since. -/
theorem run_passes {node : Node} (hempty : node.ingress = []) {as : List Action} :
    let reached q := Runs.run (step p base capacity) (init node) q
    ∀ {i : ℕ} {h : Handler}, (reached as).handlers[i]? = some h → h.stage ≠ .idle →
      ∃ q a r, as = q ++ a :: r ∧
        (∃ h', (reached q).handlers[i]? = some h' ∧ Passes (reached q) h' h.stage) ∧
        ∀ r', r' <+: r →
          ((reached (q ++ a :: r')).handlers[i]?).map Handler.stage = some h.stage := by
  intro reached
  induction as using List.reverseRecOn with
  | nil =>
    intro i h hget
    exact absurd hget (by simp [reached, init])
  | append_singleton as a ih =>
    intro i h hget hstage
    have hinv : (reached as).Inv capacity := run_inv hempty as
    have hlast : reached (as ++ [a]) = (reached as).step p base capacity a := Runs.run_concat ..
    -- It stood there before the step already.
    have hearlier : ∀ {h₀}, (reached as).handlers[i]? = some h₀ → h₀.stage = h.stage →
        ∃ q b r, as ++ [a] = q ++ b :: r ∧
          (∃ h', (reached q).handlers[i]? = some h' ∧ Passes (reached q) h' h.stage) ∧
          ∀ r', r' <+: r →
            ((reached (q ++ b :: r')).handlers[i]?).map Handler.stage = some h.stage := by
      intro h₀ hget₀ hsame
      obtain ⟨q, b, r, rfl, hpasses, hsince⟩ := ih hget₀ (hsame ▸ hstage)
      rw [hsame] at hpasses hsince
      refine ⟨q, b, r ++ [a], by simp, hpasses, fun r' hr' => ?_⟩
      rcases List.prefix_concat_iff.mp hr' with rfl | hr'
      · have hall : q ++ b :: (r ++ [a]) = q ++ b :: r ++ [a] := by simp
        rw [hall, hget]
        rfl
      · exact hsince r' hr'
    rw [hlast] at hget
    rcases step_turns p base hinv a i with
      hsame | ⟨hnone, peer, generation, hnew⟩ | ⟨h₀, h', hget₀, hget', hmoves⟩
    · exact hearlier (hsame.symm.trans hget) rfl
    · obtain rfl := Option.some.inj (hnew.symm.trans hget)
      exact absurd rfl hstage
    · obtain rfl := Option.some.inj (hget'.symm.trans hget)
      cases hmoves with
      | comes | settles => exact absurd rfl hstage
      | drops hidle => exact absurd hidle hstage
      | goes stage messages hpasses =>
        refine ⟨as, a, [], rfl, ⟨h₀, hget₀, hpasses⟩, fun r' hr' => ?_⟩
        rw [List.prefix_nil.mp hr', hlast, hget']
        rfl

/-- What a data channel puts into the queue for a message. -/
def Puts (h : Handler) (message : DataChannelMessage) (m : Source × IngressMessage) : Prop :=
  m.1 = .peer h.peer ∧ m.2.generation = h.generation ∧ Loads message m.2.payload

/-- What it has put there are its queued messages, one by one. -/
theorem puts_queued (h : Handler) : ∀ outcomes : List (DataChannelMessage × IngressOutcome),
    (∀ x ∈ outcomes, x.2 = .queued → ∃ load, Loads x.1 load) →
    List.Forall₂ (Puts h) ((outcomes.filter fun x => x.2 = .queued).map Prod.fst)
      (outcomes.filterMap fun x =>
        if x.2 = .queued then (payload x.1).toOption.map h.stamp else none) := by
  intro outcomes
  induction outcomes with
  | nil => exact fun _ => .nil
  | cons x rest ih =>
    intro hloads
    obtain ⟨hx, hrest⟩ := List.forall_mem_cons.mp hloads
    by_cases hqueued : x.2 = .queued
    · obtain ⟨load, hload⟩ := hx hqueued
      rw [List.filter_cons_of_pos (by simpa using hqueued), List.filterMap_cons, if_pos hqueued,
        payload_ok.mpr hload]
      exact .cons ⟨rfl, rfl, hload⟩ (ih hrest)
    · rw [List.filter_cons_of_neg (by simpa using hqueued), List.filterMap_cons, if_neg hqueued]
      exact ih hrest

/-- A data channel that is free takes the message that comes, and is done with it three
steps later at most; its messages are handled once each, in order.  A message is left alone
while the ready state is closed or failed and while the generation is not the data
channel's; else its size and its text decide, and at last the queue.  Where its handler
stands, it has found the checks met, and has stood there since.  The four logs say every
message lost to size, text or queue.  What goes into the queue has the data channel's
generation and the bytes that came, and the router takes it in that order.  To the rest of
the system the handlers do what `Node` says. -/
theorem messages_accounted (p : Platform) (base capacity : ℕ) (channel : Channel Tagged)
    (sessionId requestSequence : ℕ) (as : List Action) :
    let start := init (.init channel sessionId requestSequence)
    let reached q := Runs.run (step p base capacity) start q
    let s := reached as
    (s.node = Runs.run (Node.step p base capacity) start.node (trace p base capacity start as) ∧
      s.readyState = ((as.filterMap Action.stores).getLast?).getD .closed ∧
      (s.routerGone = true ↔ .routerEnds ∈ as)) ∧
    (∀ h ∈ s.handlers, s.node.peers[h.peer]? = some h.generation ∧
      h.messages = h.outcomes.map Prod.fst ++ h.stage.inHand) ∧
    (∀ i h message now, s.handlers[i]? = some h → h.dropped = false → h.stage = .idle →
      ∃ h', (s.step p base capacity (.onMessage i message now)).handlers[i]? = some h' ∧
        h'.messages = h.messages ++ [message]) ∧
    (∀ i before message outcome after, s.outcomesOf i = before ++ (message, outcome) :: after →
      ∃ q a, q ++ [a] <+: as ∧ (reached q).outcomesOf i = before ∧
        Settles capacity i (reached q) message outcome) ∧
    (∀ (i : ℕ) (h : Handler), s.handlers[i]? = some h → h.stage ≠ .idle →
      (∃ q a r, as = q ++ a :: r ∧
        (∃ h', (reached q).handlers[i]? = some h' ∧ Passes (reached q) h' h.stage) ∧
        ∀ r', r' <+: r →
          ((reached (q ++ a :: r')).handlers[i]?).map Handler.stage = some h.stage) ∧
      ∀ now, ∃ h', (s.step p base capacity (.advance i now)).handlers[i]? = some h' ∧
        h'.stage.left < h.stage.left) ∧
    (∀ h ∈ s.handlers, h.outcomes.length < 2 ^ 64 → ∀ log,
      h.logs.counted log 0 + h.logs.waiting log 0 =
        h.outcomes.countP fun x => x.2.failure = some log) ∧
    (∀ h ∈ s.handlers, h.dropped = true → ∀ log, h.logs.waiting log 0 = 0) ∧
    (∀ i h, s.handlers[i]? = some h →
      List.Forall₂ (Puts h) ((h.outcomes.filter fun x => x.2 = .queued).map Prod.fst)
        ((s.accepted.filter fun x => x.1 = some i).map Prod.snd)) ∧
    (s.accepted.map Prod.snd = s.routed ++ s.node.ingress ∧ s.node.ingress.length ≤ capacity ∧
      ∀ before m after, s.routed = before ++ m :: after →
        ∃ q a, q ++ [a] <+: as ∧ (reached q).routed = before ∧ Routes (reached q) a m) := by
  intro start reached s
  have hempty : (Node.init channel sessionId requestSequence).ingress = [] := rfl
  have hinv : s.Inv capacity := run_inv hempty as
  have hsettles : ∀ i before message outcome after,
      s.outcomesOf i = before ++ (message, outcome) :: after →
        ∃ q a, q ++ [a] <+: as ∧ (reached q).outcomesOf i = before ∧
          Settles capacity i (reached q) message outcome :=
    fun i before message outcome after houtcomes =>
      Runs.exists_entry (outcomesOf · i) (E := fun s _ x => Settles capacity i s x.1 x.2)
        (fun _ a hinv => step_inv hinv a) (fun _ a hinv => step_outcomes hinv a i)
        (init_inv hempty) rfl houtcomes
  obtain ⟨hready, hgone⟩ : s.readyState = ((as.filterMap Action.stores).getLast?).getD .closed ∧
      (s.routerGone = true ↔ start.routerGone = true ∨ .routerEnds ∈ as) := run_stores as start
  refine ⟨⟨run_refines as start, hready, hgone.trans (by simp [start, init])⟩,
    fun h hmem => ⟨hinv.bound h hmem, (hinv.handlers h hmem).handled⟩,
    fun i h message now hget hlive hidle => step_onMessage hget hlive hidle message now,
    hsettles, fun i h hget hbusy => ⟨run_passes hempty hget hbusy, step_advance hget hbusy⟩,
    fun h hmem hfew log => ?_, fun h hmem hdropped => ((hinv.handlers h hmem).settled hdropped).2,
    fun i h hget => ?_, hinv.queue, hinv.room, fun before m after hrouted => ?_⟩
  · have hh := hinv.handlers h hmem
    exact (hh.balanced.counts hh.recorded hfew log 0).trans (List.countP_congr (by simp))
  · rw [← hinv.queued i h hget]
    refine puts_queued h h.outcomes fun x hx hqueued => ?_
    obtain ⟨before, after, hsplit⟩ := List.append_of_mem hx
    have houtcomes : s.outcomesOf i = before ++ (x.1, x.2) :: after := by
      rw [outcomesOf, hget]
      exact hsplit
    obtain ⟨q, a, -, -, h', -, hmeets, -⟩ := hsettles i before x.1 x.2 after houtcomes
    rw [hqueued] at hmeets
    exact hmeets.1
  · exact Runs.exists_entry routed (I := Inv capacity) (fun _ a hinv => step_inv hinv a)
      (fun _ a _ => step_routed a) (init_inv hempty) rfl hrouted

/-- A message that came while the channel was closed, one that was queued, and one for which
the queue of one place had no room. -/
example :
    let message : DataChannelMessage := { isString := false, data := [7] }
    let handled : List Action :=
      [.onMessage 0 message 0, .advance 0 0, .advance 0 0, .advance 0 0]
    let s := Runs.run (step (.reading []) 72 1) (init (.init (.fresh 2) 0 0))
      ([.node .createPeer, .bind 0, .onMessage 0 message 0, .ready .opened] ++ handled ++ handled)
    (s.outcomesOf 0).map Prod.snd = [.notReady, .queued, .full] ∧
      s.node.ingress.map Prod.fst = [.peer 0] := by
  decide +kernel

end Intake

end Unitree
