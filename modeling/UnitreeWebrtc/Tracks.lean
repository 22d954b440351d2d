/-
The media tasks of a peer (`rtc_engine/setup.rs`, `video/service.rs`,
`audio/receive/service.rs`).

Every track of a supported codec gets a task of its own, whose handle goes into a list that
the resources of the peer own.  `close` takes the list, aborts the tasks and waits for all
of them before it closes the peer; a drop takes it and aborts them.  A track that comes
later finds no list and gets no task.  An abort only takes effect where a task awaits, and
between two awaits a task may still send what it has in hand.

* `AudioStream` — a track of Opus packets; the video tasks are in `Streams`;
* `PeerMedia.step` — tracks, tasks, the owner, and what others do with the channel;
* `PeerMedia.step_inv`, `PeerMedia.run_inv` — handles, tasks and the channel agree;
* `PeerMedia.media_tasks_are_owned` — whose the tasks are, and that `close` leaves none;
* `PeerMedia.media_accounted` — where every frame and every packet is.
-/
import UnitreeWebrtc.Streams
import UnitreeWebrtc.Workers

namespace Unitree

/-! ### Opus -/

/-- The two logs of an audio task. -/
inductive AudioLog where
  | frameDrops
  | decodeErrors
deriving DecidableEq

namespace AudioLog

def name : AudioLog → String × String
  | frameDrops => ("audio_frame_drop", "callback_queue_full")
  | decodeErrors => ("audio_decode_error", "invalid_opus_packet")

/-- The order in which the locals of the task are dropped. -/
def order : List AudioLog := [decodeErrors, frameDrops]

theorem mem_order (log : AudioLog) : log ∈ order := by
  cases log <;> decide

end AudioLog

/-- What becomes of a packet. -/
inductive PacketOutcome where
  /-- Its samples were offered to the callback channel. -/
  | offered (samples : List UInt16) (outcome : FrameOutcome)
  | silent
  | undecodable
deriving DecidableEq

def PacketOutcome.failure : PacketOutcome → Option AudioLog
  | offered _ .full => some .frameDrops
  | offered _ _ | silent => none
  | undecodable => some .decodeErrors

/-- The `opus` crate: a decoder that keeps a state, and the samples of a packet, both
channels. -/
structure OpusCrate (σ : Type) where
  fresh : σ
  decode : σ → List UInt8 → σ × Option (List UInt16)

/-- `OpusDecoder::decode`: an empty packet does not reach the crate. -/
def OpusCrate.decodePacket {σ : Type} (crate : OpusCrate σ) (decoder : σ) (packet : List UInt8) :
    σ × Option (List UInt16) :=
  if packet = [] then (decoder, some []) else crate.decode decoder packet

inductive AudioStage where
  | spawned
  | reading
  | sending (packet : List UInt8) (samples : List UInt16)
  | ended (why : StreamEnd)

structure AudioStream (σ : Type) where
  stage : AudioStage
  decoder : σ
  frameCount : ℕ
  logs : Tally AudioLog Unit
  packets : List (List UInt8)
  outcomes : List (List UInt8 × PacketOutcome)

namespace AudioStream

variable {σ : Type}

inductive Action where
  | start (initialized : Bool)
  | packet (payload : List UInt8) (now : ℕ)
  | readError
  | answer (outcome : FrameOutcome) (now : ℕ)
  | cancel

def stop (s : AudioStream σ) (why : StreamEnd) : AudioStream σ :=
  { s with stage := .ended why, logs := s.logs.drop AudioLog.order }

/-- The packet is done with, and counted if it has failed. -/
def settle (s : AudioStream σ) (packet : List UInt8) (outcome : PacketOutcome) (now : ℕ) :
    AudioStream σ :=
  { s with
    stage := .reading
    outcomes := s.outcomes ++ [(packet, outcome)]
    logs :=
      match outcome.failure with
      | none => s.logs
      | some log => s.logs.record log now none }

def step (crate : OpusCrate σ) (s : AudioStream σ) : Action → AudioStream σ
  | .start initialized =>
    match s.stage with
    | .spawned => if initialized then { s with stage := .reading } else s.stop .decoderInit
    | _ => s
  | .packet payload now =>
    match s.stage with
    | .reading =>
      let (decoder, decoded) := crate.decodePacket s.decoder payload
      let s := { s with decoder, packets := s.packets ++ [payload] }
      match decoded with
      | none => s.settle payload .undecodable now
      | some [] => s.settle payload .silent now
      | some samples =>
        { s with stage := .sending payload samples, frameCount := s.frameCount + 1 }
    | _ => s
  | .readError =>
    match s.stage with
    | .reading => s.stop .readError
    | _ => s
  | .answer outcome now =>
    match s.stage with
    | .sending packet samples =>
      let s := s.settle packet (.offered samples outcome) now
      if outcome = .disconnected then s.stop .callbackClosed else s
    | _ => s
  | .cancel =>
    match s.stage with
    | .spawned | .reading => s.stop .cancelled
    | _ => s

def init (crate : OpusCrate σ) : AudioStream σ :=
  { stage := .spawned, decoder := crate.fresh, frameCount := 0, logs := .new AudioLog.name,
    packets := [], outcomes := [] }

/-- The packet whose samples are on their way to the callback channel. -/
def inFlight : AudioStage → Option (List UInt8 × List UInt16)
  | .sending packet samples => some (packet, samples)
  | _ => none

/-- Packets, their outcomes and the logs agree. -/
structure Inv (s : AudioStream σ) : Prop where
  handled : s.packets = s.outcomes.map Prod.fst ++ (inFlight s.stage).toList.map Prod.fst
  balanced : s.logs.Balanced
  label : s.logs.label = 0
  recorded : s.logs.recorded = s.outcomes.filterMap fun o => o.2.failure.map fun log => (log, 0)
  settled : ∀ why, s.stage = .ended why → ∀ log g, s.logs.waiting log g = 0

variable {crate : OpusCrate σ} {s : AudioStream σ}

theorem Inv.stop (h : s.Inv) (hflight : inFlight s.stage = none) (why : StreamEnd) :
    (s.stop why).Inv := by
  refine ⟨?_, Tally.balanced_drop h.balanced, Tally.drop_label.trans h.label,
    (Tally.drop_recorded h.balanced).trans h.recorded,
    fun _ _ log g => Tally.drop_waiting h.balanced AudioLog.mem_order log g⟩
  have hhandled := h.handled
  rw [hflight] at hhandled
  exact hhandled

/-- The packet in hand gets its outcome. -/
theorem settle_inv {packet : List UInt8}
    (hpackets : s.packets = s.outcomes.map Prod.fst ++ [packet]) (hbalanced : s.logs.Balanced)
    (hlabel : s.logs.label = 0)
    (hrecorded : s.logs.recorded =
      s.outcomes.filterMap fun o => o.2.failure.map fun log => (log, 0))
    (outcome : PacketOutcome) (now : ℕ) : (s.settle packet outcome now).Inv := by
  refine ⟨?_, ?_, ?_, ?_, fun why hwhy => absurd hwhy (by simp [settle])⟩
  · simpa [settle, inFlight] using hpackets
  · rw [settle]
    rcases outcome.failure with _ | log
    · exact hbalanced
    · exact Tally.balanced_record hbalanced log now none
  · rw [settle]
    rcases outcome.failure with _ | log <;> exact hlabel
  · rcases hfailure : outcome.failure with _ | log
    · simp [settle, hfailure, hrecorded]
    · simp [settle, hfailure, hrecorded, hlabel, Tally.record, RepeatLog.Op.records]

theorem step_inv (h : s.Inv) (a : Action) : (s.step crate a).Inv := by
  have hhandled := h.handled
  cases a with
  | start initialized =>
    simp only [step]
    split
    next hstage =>
      rw [hstage] at hhandled
      split
      · exact ⟨hhandled, h.balanced, h.label, h.recorded, fun _ hwhy => absurd hwhy (by simp)⟩
      · exact h.stop (by rw [hstage]; rfl) _
    next => exact h
  | packet payload now =>
    simp only [step]
    split
    next hstage =>
      have hpackets : s.packets ++ [payload] = s.outcomes.map Prod.fst ++ [payload] := by
        rw [hhandled, hstage]
        simp [inFlight]
      let decoder := (crate.decodePacket s.decoder payload).1
      let s' : AudioStream σ := { s with decoder, packets := s.packets ++ [payload] }
      have hsettled : ∀ outcome, (s'.settle payload outcome now).Inv :=
        fun outcome => settle_inv (s := s') hpackets h.balanced h.label h.recorded outcome now
      split
      · exact hsettled _
      · exact hsettled _
      · exact ⟨hpackets, h.balanced, h.label, h.recorded, fun _ hwhy => absurd hwhy (by simp)⟩
    next => exact h
  | readError =>
    simp only [step]
    split
    next hstage => exact h.stop (by rw [hstage]; rfl) _
    next => exact h
  | answer outcome now =>
    simp only [step]
    split
    next packet samples hstage =>
      rw [hstage] at hhandled
      have hsettled : (s.settle packet (.offered samples outcome) now).Inv :=
        settle_inv hhandled h.balanced h.label h.recorded _ now
      split
      · exact hsettled.stop rfl _
      · exact hsettled
    next => exact h
  | cancel =>
    simp only [step]
    split
    next hstage => exact h.stop (by rw [hstage]; rfl) _
    next hstage => exact h.stop (by rw [hstage]; rfl) _
    next => exact h

theorem step_ended {why : StreamEnd} (h : s.stage = .ended why) (a : Action) :
    s.step crate a = s := by
  cases a <;> simp [step, h]

/-- Only an answer of the channel is the outcome of samples. -/
theorem step_outcomes {a : Action} (ha : ∀ outcome now, a ≠ .answer outcome now) :
    (s.step crate a).outcomes = s.outcomes ∨
      ∃ packet outcome, (s.step crate a).outcomes = s.outcomes ++ [(packet, outcome)] ∧
        ∀ samples answer, outcome ≠ .offered samples answer := by
  cases a with
  | packet payload now =>
    simp only [step]
    split
    · split
      · exact .inr ⟨payload, .undecodable, rfl, by simp⟩
      · exact .inr ⟨payload, .silent, rfl, by simp⟩
      · exact .inl rfl
    · exact .inl rfl
  | answer outcome now => exact absurd rfl (ha outcome now)
  | start | readError | cancel =>
    simp only [step]
    repeat' split
    all_goals exact .inl rfl

theorem init_inv (crate : OpusCrate σ) : (init crate).Inv :=
  ⟨rfl, Tally.balanced_new _, rfl, rfl, fun _ hwhy => absurd hwhy (by simp [init])⟩

end AudioStream

/-! ### Tasks -/

inductive RTPCodecType where
  | unspecified
  | audio
  | video
deriving DecidableEq

structure RTCRtpCodecCapability where
  mimeType : String
  clockRate : UInt32
  channels : UInt16

/-- `eq_ignore_ascii_case`. -/
def eqIgnoreAsciiCase (a b : String) : Bool :=
  decide (a.toList.map Char.toLower = b.toList.map Char.toLower)

def supportedCodec (kind : RTPCodecType) (codec : RTCRtpCodecCapability) : Bool :=
  match kind with
  | .video => eqIgnoreAsciiCase codec.mimeType "video/h264" && codec.clockRate = 90000
  | .audio =>
    eqIgnoreAsciiCase codec.mimeType "audio/opus" && codec.clockRate = 48000 && codec.channels = 2
  | .unspecified => false

inductive MediaTask (σ : Type) where
  | video (s : VideoStream)
  | audio (s : AudioStream σ)

namespace MediaTask

variable {σ : Type}

/-- What a task does of its own, or GStreamer for it. -/
inductive Action where
  | video (a : VideoStream.Action)
  | audio (a : AudioStream.Action)

/-- The answers of the callback channel and the aborts come from elsewhere. -/
def Action.own : Action → Bool
  | .video (.answer _ _) | .video .cancel | .audio (.answer _ _) | .audio .cancel => false
  | _ => true

def step (crate : OpusCrate σ) : MediaTask σ → Action → MediaTask σ
  | .video s, .video a => .video (s.step a)
  | .audio s, .audio a => .audio (s.step crate a)
  | t, _ => t

/-- The event that the task has in hand. -/
def pending : MediaTask σ → Option CallbackEvent
  | .video s => (VideoStream.inFlight s.stage).map DecodedFrame.event
  | .audio s => (AudioStream.inFlight s.stage).map fun (_, samples) =>
      .audioFrame { data := samples, capacity := samples.length } 48000 2

def answer (crate : OpusCrate σ) (outcome : FrameOutcome) (now : ℕ) : MediaTask σ → MediaTask σ
  | .video s => .video (s.step (.answer outcome now))
  | .audio s => .audio (s.step crate (.answer outcome now))

def cancel (crate : OpusCrate σ) : MediaTask σ → MediaTask σ
  | .video s => .video (s.step .cancel)
  | .audio s => .audio (s.step crate .cancel)

def isFinished : MediaTask σ → Bool
  | .video s => match s.stage with
    | .ended _ => true
    | _ => false
  | .audio s => match s.stage with
    | .ended _ => true
    | _ => false

/-- The events of a task that the channel has accepted. -/
def sent : MediaTask σ → List CallbackEvent
  | .video s => s.outcomes.filterMap fun o =>
      if o.2 = .sent then some o.1.event else none
  | .audio s => s.outcomes.filterMap fun o =>
      match o.2 with
      | .offered samples .sent =>
        some (.audioFrame { data := samples, capacity := samples.length } 48000 2)
      | _ => none

/-- The events of a task that it offered to the channel, with the answers. -/
def offered : MediaTask σ → List (CallbackEvent × FrameOutcome)
  | .video s => s.outcomes.map fun o => (o.1.event, o.2)
  | .audio s => s.outcomes.filterMap fun o =>
      match o.2 with
      | .offered samples outcome =>
        some (.audioFrame { data := samples, capacity := samples.length } 48000 2, outcome)
      | _ => none

def kind : MediaTask σ → RTPCodecType
  | .video _ => .video
  | .audio _ => .audio

def Inv : MediaTask σ → Prop
  | .video s => s.Inv
  | .audio s => s.Inv

variable {crate : OpusCrate σ} {t t' : MediaTask σ}

/-- What a task does between two answers of the channel. -/
structure Advances (t t' : MediaTask σ) : Prop where
  inv : t.Inv → t'.Inv
  kind : t'.kind = t.kind
  finished : t.isFinished = true → t'.isFinished = true
  offered : t'.offered = t.offered

theorem sent_eq (t : MediaTask σ) :
    t.sent = t.offered.filterMap fun o => if o.2 = .sent then some o.1 else none := by
  cases t with
  | video s => simp only [sent, offered, List.filterMap_map, Function.comp_def]
  | audio s =>
    simp only [sent, offered, List.filterMap_filterMap]
    refine List.filterMap_congr fun o _ => ?_
    rcases o with ⟨packet, outcome⟩
    cases outcome with
    | offered samples answer => cases answer <;> rfl
    | silent | undecodable => rfl

theorem Advances.sent (h : Advances t t') : t'.sent = t.sent := by
  rw [sent_eq, sent_eq, h.offered]

theorem Advances.refl (t : MediaTask σ) : Advances t t := ⟨id, rfl, id, rfl⟩

theorem isFinished_video {s : VideoStream} :
    (video s : MediaTask σ).isFinished = true ↔ ∃ why, s.stage = .ended why := by
  simp only [isFinished]
  split
  next why h => exact ⟨fun _ => ⟨why, h⟩, fun _ => rfl⟩
  next h => exact ⟨fun hf => absurd hf (by simp), fun ⟨why, hw⟩ => absurd hw (h why)⟩

theorem isFinished_audio {s : AudioStream σ} :
    (audio s).isFinished = true ↔ ∃ why, s.stage = .ended why := by
  simp only [isFinished]
  split
  next why h => exact ⟨fun _ => ⟨why, h⟩, fun _ => rfl⟩
  next h => exact ⟨fun hf => absurd hf (by simp), fun ⟨why, hw⟩ => absurd hw (h why)⟩

theorem video_advances {s : VideoStream} {a : VideoStream.Action}
    (ha : ∀ outcome now, a ≠ .answer outcome now) :
    Advances (video s : MediaTask σ) (video (s.step a)) := by
  refine ⟨fun h => VideoStream.step_inv h a, rfl, fun hf => ?_, ?_⟩
  · obtain ⟨why, hwhy⟩ := isFinished_video.mp hf
    rw [VideoStream.step_ended hwhy]
    exact hf
  · rw [offered, offered, VideoStream.step_outcomes ha]

theorem audio_advances {s : AudioStream σ} {a : AudioStream.Action}
    (ha : ∀ outcome now, a ≠ .answer outcome now) :
    Advances (audio s) (audio (s.step crate a)) := by
  refine ⟨fun h => AudioStream.step_inv h a, rfl, fun hf => ?_, ?_⟩
  · obtain ⟨why, hwhy⟩ := isFinished_audio.mp hf
    rw [AudioStream.step_ended hwhy]
    exact hf
  · rw [offered, offered]
    obtain hsame | ⟨packet, outcome, hmore, hother⟩ := AudioStream.step_outcomes ha
    · rw [hsame]
    · rw [hmore, List.filterMap_append, List.filterMap_cons]
      cases outcome with
      | offered samples answer => exact absurd rfl (hother samples answer)
      | silent | undecodable => exact List.append_nil _

theorem step_advances (t : MediaTask σ) {a : Action} (ha : a.own = true) :
    Advances t (t.step crate a) := by
  cases t with
  | video s =>
    cases a with
    | video a =>
      refine video_advances fun outcome now heq => ?_
      rw [heq] at ha
      exact absurd ha (by simp [Action.own])
    | audio a => exact .refl _
  | audio s =>
    cases a with
    | video a => exact .refl _
    | audio a =>
      refine audio_advances fun outcome now heq => ?_
      rw [heq] at ha
      exact absurd ha (by simp [Action.own])

theorem cancel_advances (t : MediaTask σ) : Advances t (t.cancel crate) := by
  cases t with
  | video s => exact video_advances (by simp)
  | audio s => exact audio_advances (by simp)

theorem answer_inv (h : t.Inv) (outcome : FrameOutcome) (now : ℕ) :
    (t.answer crate outcome now).Inv := by
  cases t with
  | video s => exact VideoStream.step_inv h _
  | audio s => exact AudioStream.step_inv h _

theorem answer_kind (outcome : FrameOutcome) (now : ℕ) :
    (t.answer crate outcome now).kind = t.kind := by
  cases t <;> rfl

/-- A task that is over does nothing more. -/
theorem step_finished (h : t.isFinished = true) (a : Action) : t.step crate a = t := by
  cases t with
  | video s =>
    obtain ⟨why, hwhy⟩ := isFinished_video.mp h
    cases a with
    | video a => rw [step, VideoStream.step_ended hwhy]
    | audio a => rfl
  | audio s =>
    obtain ⟨why, hwhy⟩ := isFinished_audio.mp h
    cases a with
    | video a => rfl
    | audio a => rw [step, AudioStream.step_ended hwhy]

theorem cancel_finished (h : t.isFinished = true) : t.cancel crate = t := by
  cases t with
  | video s =>
    obtain ⟨why, hwhy⟩ := isFinished_video.mp h
    rw [cancel, VideoStream.step_ended hwhy]
  | audio s =>
    obtain ⟨why, hwhy⟩ := isFinished_audio.mp h
    rw [cancel, AudioStream.step_ended hwhy]

/-- The event in hand gets its answer. -/
theorem answer_offered {event : CallbackEvent} (hpending : t.pending = some event)
    (outcome : FrameOutcome) (now : ℕ) :
    (t.answer crate outcome now).offered = t.offered ++ [(event, outcome)] := by
  cases t with
  | video s =>
    obtain ⟨frame, hflight, rfl⟩ := Option.map_eq_some_iff.mp hpending
    have hstage : s.stage = .sending frame := by
      cases hstage : s.stage <;> simp_all [VideoStream.inFlight]
    rw [answer, offered, offered]
    simp only [VideoStream.step, hstage]
    cases outcome <;> simp [VideoStream.stop]
  | audio s =>
    obtain ⟨⟨packet, samples⟩, hflight, rfl⟩ := Option.map_eq_some_iff.mp hpending
    have hstage : s.stage = .sending packet samples := by
      cases hstage : s.stage <;> simp_all [AudioStream.inFlight]
    rw [answer, offered, offered]
    simp only [AudioStream.step, hstage]
    cases outcome <;> simp [AudioStream.settle, AudioStream.stop]

/-- What an accepted event adds to the events of its task. -/
theorem answer_sent {event : CallbackEvent} (hpending : t.pending = some event)
    (outcome : FrameOutcome) (now : ℕ) :
    (t.answer crate outcome now).sent = t.sent ++ if outcome = .sent then [event] else [] := by
  rw [sent_eq, sent_eq, answer_offered hpending, List.filterMap_append]
  split
  next h => simp [h]
  next h => simp [h]

/-- A task with an event in hand is not over. -/
theorem isFinished_of_pending {event : CallbackEvent} (hpending : t.pending = some event) :
    t.isFinished = false := by
  cases t with
  | video s =>
    obtain ⟨frame, hflight, -⟩ := Option.map_eq_some_iff.mp hpending
    cases hstage : s.stage <;> simp_all [VideoStream.inFlight, isFinished]
  | audio s =>
    obtain ⟨_, hflight, -⟩ := Option.map_eq_some_iff.mp hpending
    cases hstage : s.stage <;> simp_all [AudioStream.inFlight, isFinished]

/-- A task that awaits is over when it is dropped; otherwise the channel has to answer. -/
def Rests (crate : OpusCrate σ) (t : MediaTask σ) : Prop :=
  t.pending ≠ none ∨ (t.cancel crate).isFinished = true

theorem rests_video {s : VideoStream} (h : VideoStream.distance s.stage = 0) :
    Rests crate (video s) := by
  cases hstage : s.stage with
  | sending frame => exact .inl (by simp [pending, hstage, VideoStream.inFlight])
  | weighing | admitted | pushed | polling =>
    rw [hstage] at h
    exact absurd h (by simp [VideoStream.distance])
  | spawned | reading | ended =>
    exact .inr (isFinished_video.mpr (by simp [VideoStream.step, VideoStream.stop, hstage]))

theorem rests_audio (s : AudioStream σ) : Rests crate (audio s) := by
  cases hstage : s.stage with
  | sending packet samples => exact .inl (by simp [pending, hstage, AudioStream.inFlight])
  | spawned | reading | ended =>
    exact .inr (isFinished_audio.mpr (by simp [AudioStream.step, AudioStream.stop, hstage]))

/-- After an answer a task awaits again, or is over. -/
theorem answer_rests {event : CallbackEvent} (hpending : t.pending = some event)
    (outcome : FrameOutcome) (now : ℕ) :
    ((t.answer crate outcome now).cancel crate).isFinished = true := by
  cases t with
  | video s =>
    obtain ⟨frame, hflight, -⟩ := Option.map_eq_some_iff.mp hpending
    cases hstage : s.stage <;> simp_all [VideoStream.inFlight]
    cases outcome <;>
      exact isFinished_video.mpr (by simp [VideoStream.step, VideoStream.stop, hstage])
  | audio s =>
    obtain ⟨_, hflight, -⟩ := Option.map_eq_some_iff.mp hpending
    cases hstage : s.stage <;> simp_all [AudioStream.inFlight]
    cases outcome <;>
      exact isFinished_audio.mpr
        (by simp [AudioStream.step, AudioStream.settle, AudioStream.stop, hstage])

end MediaTask

/-! ### The peer -/

/-- What has become of `PeerResources`. -/
inductive OwnerStage where
  | held
  /-- `close` waits for these tasks. -/
  | joining (tasks : List ℕ)
  | closingPeer
  | closed
  | dropped
deriving DecidableEq

structure PeerMedia (σ : Type) where
  owner : OwnerStage
  /-- The list of handles; `none` once it was taken. -/
  media : Option (List ℕ)
  /-- The tasks in the order they were spawned in, each with the codec of its track. -/
  tasks : List (RTCRtpCodecCapability × MediaTask σ)
  aborted : List ℕ
  generation : ℕ
  traffic : Traffic CallbackEvent
  /-- What the channel has accepted from the tasks. -/
  sent : List (ℕ × Delivery CallbackEvent)

namespace PeerMedia

variable {σ : Type}

inductive Action where
  /-- `on_track`. -/
  | track (kind : RTPCodecType) (codec : RTCRtpCodecCapability)
  | work (w : ℕ) (a : MediaTask.Action)
  | send (w now : ℕ)
  /-- A task that was aborted is dropped where it awaits. -/
  | interrupt (w : ℕ)
  | close
  | join
  | peerClosed
  /-- The call of `close` is dropped. -/
  | cancelClose
  | drop
  /-- What others do with the callback channel. -/
  | channel (a : Traffic.Action CallbackEvent)

def finished (p : PeerMedia σ) (w : ℕ) : Bool :=
  match p.tasks[w]? with
  | some (_, task) => task.isFinished
  | none => true

def setTask (p : PeerMedia σ) (w : ℕ) (task : MediaTask σ) : PeerMedia σ :=
  { p with tasks := p.tasks.modify w fun (codec, _) => (codec, task) }

/-- The list is taken, and every task in it aborted. -/
def abortMedia (p : PeerMedia σ) : PeerMedia σ :=
  { p with media := none, aborted := p.aborted ++ p.media.getD [] }

def onTrack (crate : OpusCrate σ) (p : PeerMedia σ) (kind : RTPCodecType)
    (codec : RTCRtpCodecCapability) : PeerMedia σ :=
  if ¬ supportedCodec kind codec then p
  else
    match p.media with
    | none => p
    | some handles =>
      let handles := handles.filter fun w => !p.finished w
      match kind with
      | .video =>
        { p with
          media := some (handles ++ [p.tasks.length])
          tasks := p.tasks ++ [(codec, .video .init)] }
      | .audio =>
        { p with
          media := some (handles ++ [p.tasks.length])
          tasks := p.tasks ++ [(codec, .audio (.init crate))] }
      | .unspecified => { p with media := some handles }

/-- `try_send` of a sender that is bound to the generation of the peer. -/
def send (crate : OpusCrate σ) (base : ℕ) (p : PeerMedia σ) (w now : ℕ) (task : MediaTask σ)
    (event : CallbackEvent) : PeerMedia σ :=
  let size := eventSize base
  match p.traffic.channel.trySend size p.generation event with
  | none => p
  | some (channel, .ok ()) =>
    let d := Channel.envelope size p.generation event
    { p with
      traffic := { p.traffic with channel, accepted := p.traffic.accepted ++ [d] }
      sent := p.sent ++ [(w, d)] }.setTask w (task.answer crate .sent now)
  | some (channel, .error (.full _)) =>
    { p with traffic := { p.traffic with channel } }.setTask w (task.answer crate .full now)
  | some (channel, .error (.disconnected _)) =>
    { p with traffic := { p.traffic with channel } }.setTask w
      (task.answer crate .disconnected now)

def step (crate : OpusCrate σ) (base : ℕ) (p : PeerMedia σ) : Action → PeerMedia σ
  | .track kind codec => p.onTrack crate kind codec
  | .work w a =>
    match p.tasks[w]? with
    | some (_, task) => if a.own then p.setTask w (task.step crate a) else p
    | none => p
  | .send w now =>
    match p.tasks[w]? with
    | some (_, task) =>
      match task.pending with
      | some event => p.send crate base w now task event
      | none => p
    | none => p
  | .interrupt w =>
    match p.tasks[w]? with
    | some (_, task) => if w ∈ p.aborted then p.setTask w (task.cancel crate) else p
    | none => p
  | .close =>
    match p.owner with
    | .held => { p.abortMedia with owner := .joining (p.media.getD []) }
    | _ => p
  | .join =>
    match p.owner with
    | .joining (w :: rest) => if p.finished w then { p with owner := .joining rest } else p
    | .joining [] => { p with owner := .closingPeer }
    | _ => p
  | .peerClosed =>
    match p.owner with
    | .closingPeer => { p with owner := .closed }
    | _ => p
  | .cancelClose =>
    match p.owner with
    | .joining _ | .closingPeer => { p with owner := .dropped }
    | _ => p
  | .drop =>
    match p.owner with
    | .held => { p.abortMedia with owner := .dropped }
    | _ => p
  | .channel a =>
    if WorkerPool.allowed p.traffic a then
      { p with traffic := (p.traffic.step (eventSize base) a).getD p.traffic }
    else p

/-- The resources of a new peer. -/
def init (channel : Channel CallbackEvent) (generation : ℕ) : PeerMedia σ :=
  { owner := .held, media := some [], tasks := [], aborted := [], generation
    traffic := { channel, held := [], accepted := [], dequeued := [] }, sent := [] }

/-! ### What a step keeps -/

/-- The answer of the channel to a sender that lives, and what it leaves behind. -/
theorem trySend_grows {ε : Type} {size : ε → EventClass × ℕ} {limit : ℕ} {t : Traffic ε}
    (h : Traffic.Inv size limit t) (hsenders : t.channel.senders ≠ 0) (generation : ℕ)
    (event : ε) :
    ∃ channel r, t.channel.trySend size generation event = some (channel, r) ∧
      (r = .ok () ∧ WorkerPool.Grows size t
          { t with channel, accepted := t.accepted ++ [Channel.envelope size generation event] } ∨
        (∃ e, r = .error e) ∧ WorkerPool.Grows size t { t with channel }) := by
  obtain ⟨t', ht', -⟩ := Traffic.step_inv h (.trySend generation event)
  have hgrows := WorkerPool.channel_grows h (a := .trySend generation event) rfl
  rw [ht', Option.getD_some] at hgrows
  rw [Traffic.step, if_neg hsenders] at ht'
  obtain ⟨⟨channel, r⟩, hsend, rfl⟩ := Option.map_eq_some_iff.mp ht'
  refine ⟨channel, r, hsend, ?_⟩
  cases r with
  | ok => exact .inl ⟨rfl, hgrows⟩
  | error e => exact .inr ⟨⟨e, rfl⟩, hgrows⟩

/-- The envelopes that a task has sent. -/
def sentBy (p : PeerMedia σ) (w : ℕ) : List (Delivery CallbackEvent) :=
  (p.sent.filter fun s => s.1 = w).map Prod.snd

/-- What a task has offered, with the answers. -/
def offeredBy (p : PeerMedia σ) (w : ℕ) : List (CallbackEvent × FrameOutcome) :=
  match p.tasks[w]? with
  | some (_, task) => task.offered
  | none => []

/-- What the channel is when it answers so. -/
def Answers (base : ℕ) (p : PeerMedia σ) (event : CallbackEvent) : FrameOutcome → Prop
  | .sent => p.traffic.channel.current = p.generation ∧ p.traffic.channel.receiverAlive = true ∧
      ¬ p.traffic.channel.Exhausted (eventSize base) event
  | .full => p.traffic.channel.current ≠ p.generation ∨
      p.traffic.channel.receiverAlive = true ∧
        p.traffic.channel.Exhausted (eventSize base) event
  | .disconnected => p.traffic.channel.current = p.generation ∧
      p.traffic.channel.receiverAlive = false

/-- A task offers the event that it has in hand, and the channel answers. -/
def Offers (base : ℕ) (p : PeerMedia σ) (w : ℕ) (o : CallbackEvent × FrameOutcome) : Prop :=
  (∃ codec task, p.tasks[w]? = some (codec, task) ∧ task.pending = some o.1) ∧
    Answers base p o.1 o.2

/-- The handles, the tasks and the channel agree. -/
structure Inv (base limit : ℕ) (p : PeerMedia σ) : Prop where
  tasks : ∀ (w : ℕ) codec (task : MediaTask σ), p.tasks[w]? = some (codec, task) →
    task.Inv ∧ supportedCodec task.kind codec = true
  owned : ∀ w, p.finished w = false →
    w ∈ p.aborted ∨ ∃ handles, p.media = some handles ∧ w ∈ handles
  handles : ∀ handles, p.media = some handles → handles.Nodup ∧ ∀ w ∈ handles, w < p.tasks.length
  held : p.owner = .held ∧ (∃ handles, p.media = some handles) ∧ p.aborted = [] ∨
    p.owner ≠ .held ∧ p.media = none
  joining : ∀ rest, p.owner = .joining rest → ∀ w, p.finished w = false → w ∈ rest
  joined : p.owner = .closingPeer ∨ p.owner = .closed → ∀ w, p.finished w = true
  traffic : Traffic.Inv (eventSize base) limit p.traffic
  senders : p.traffic.channel.senders ≠ 0
  sends : ∀ (w : ℕ) codec (task : MediaTask σ), p.tasks[w]? = some (codec, task) →
    p.sentBy w = task.sent.map (Channel.envelope (eventSize base) p.generation)
  known : ∀ s ∈ p.sent, s.1 < p.tasks.length
  accepted : (p.sent.map Prod.snd).Sublist p.traffic.accepted

variable {crate : OpusCrate σ} {base limit : ℕ} {p : PeerMedia σ} {w : ℕ}
  {codec : RTCRtpCodecCapability} {task task' : MediaTask σ}

theorem getElem?_setTask (hw : p.tasks[w]? = some (codec, task)) (task' : MediaTask σ) (v : ℕ) :
    (p.setTask w task').tasks[v]? = if v = w then some (codec, task') else p.tasks[v]? := by
  rw [setTask, List.getElem?_modify]
  by_cases hv : w = v
  · subst hv
    simp [hw]
  · simp [hv, Ne.symm hv]

theorem finished_setTask (hw : p.tasks[w]? = some (codec, task)) (task' : MediaTask σ) (v : ℕ) :
    (p.setTask w task').finished v = if v = w then task'.isFinished else p.finished v := by
  rw [finished, getElem?_setTask hw]
  by_cases hv : v = w
  · simp [hv]
  · simp [hv, finished]

theorem finished_eq (hw : p.tasks[w]? = some (codec, task)) : p.finished w = task.isFinished := by
  rw [finished, hw]

/-- A task goes on, and what it has sent is on the books. -/
theorem Inv.update (h : p.Inv base limit) (hw : p.tasks[w]? = some (codec, task))
    (hinv : task'.Inv) (hkind : task'.kind = task.kind)
    (hfinished : task.isFinished = true → task'.isFinished = true)
    {traffic : Traffic CallbackEvent} (new : List CallbackEvent)
    (hgrows : WorkerPool.Grows (eventSize base) p.traffic traffic)
    (hsent : task'.sent = task.sent ++ new)
    (haccepted : traffic.accepted = p.traffic.accepted ++
      new.map (Channel.envelope (eventSize base) p.generation)) :
    ({ p with
        traffic
        sent := p.sent ++ new.map fun e => (w, Channel.envelope (eventSize base) p.generation e) }
      |>.setTask w task').Inv base limit := by
  set p' : PeerMedia σ := { p with
    traffic
    sent := p.sent ++ new.map fun e => (w, Channel.envelope (eventSize base) p.generation e) }
    with hp'
  have hw' : p'.tasks[w]? = some (codec, task) := hw
  have hdone : ∀ v, (p'.setTask w task').finished v = false → p.finished v = false := by
    intro v hv
    rw [finished_setTask hw'] at hv
    split at hv
    next heq =>
      subst heq
      rw [finished_eq hw]
      rcases hf : task.isFinished
      · rfl
      · exact absurd ((hfinished hf).symm.trans hv) (by simp)
    next => exact hv
  refine ⟨fun v codec' task'' hv => ?_, fun v hv => h.owned v (hdone v hv), ?_, h.held,
    fun rest hrest v hv => h.joining rest hrest v (hdone v hv), fun howner v => ?_,
    hgrows.inv limit h.traffic, hgrows.senders h.senders, fun v codec' task'' hv => ?_, ?_, ?_⟩
  · rw [getElem?_setTask hw'] at hv
    split at hv
    next heq =>
      obtain ⟨rfl, rfl⟩ := Prod.mk.inj (Option.some_inj.mp hv)
      exact ⟨hinv, hkind ▸ (h.tasks w codec task hw).2⟩
    next => exact h.tasks v codec' task'' hv
  · intro handles hmedia
    obtain ⟨hnodup, hlt⟩ := h.handles handles hmedia
    refine ⟨hnodup, fun v hv => ?_⟩
    rw [setTask, List.length_modify]
    exact hlt v hv
  · by_contra hne
    have hfalse := hdone v (by simpa using hne)
    exact absurd ((h.joined howner v).symm.trans hfalse) (by simp)
  · rw [getElem?_setTask hw'] at hv
    have hsplit : (p'.setTask w task').sentBy v = p.sentBy v ++
        if v = w then new.map (Channel.envelope (eventSize base) p.generation) else [] := by
      show ((p.sent ++ _).filter _).map _ = _
      rw [List.filter_append, List.map_append, sentBy]
      congr 1
      split
      next heq => simp [List.filter_map, heq, Function.comp_def]
      next hne => simp [List.filter_map, Function.comp_def, Ne.symm hne]
    rw [hsplit]
    split at hv
    next heq =>
      obtain ⟨rfl, rfl⟩ := Prod.mk.inj (Option.some_inj.mp hv)
      rw [heq, if_pos rfl, h.sends w codec task hw, hsent, List.map_append]
      rfl
    next hne =>
      rw [if_neg hne, List.append_nil]
      exact h.sends v codec' task'' hv
  · intro s hs
    rw [setTask, List.length_modify]
    rcases List.mem_append.mp hs with hs | hs
    · exact h.known s hs
    · obtain ⟨e, -, rfl⟩ := List.mem_map.mp hs
      exact (List.getElem?_eq_some_iff.mp hw).choose
  · show ((p.sent ++ _).map Prod.snd).Sublist traffic.accepted
    rw [haccepted, List.map_append, List.map_map]
    exact h.accepted.append (List.Sublist.refl _)

theorem Inv.advance (h : p.Inv base limit) (hw : p.tasks[w]? = some (codec, task))
    (ha : MediaTask.Advances task task') : (p.setTask w task').Inv base limit := by
  have hupdate := h.update hw (ha.inv (h.tasks w codec task hw).1) ha.kind ha.finished []
    (WorkerPool.Grows.refl (eventSize base) p.traffic)
    (ha.sent.trans (List.append_nil _).symm) (List.append_nil _).symm
  simpa using hupdate

theorem send_inv (h : p.Inv base limit) (hw : p.tasks[w]? = some (codec, task))
    {event : CallbackEvent} (hpending : task.pending = some event) (now : ℕ) :
    (p.send crate base w now task event).Inv base limit := by
  have htask := (h.tasks w codec task hw).1
  have hrunning := MediaTask.isFinished_of_pending hpending
  have hstays : ∀ {outcome : FrameOutcome}, task.isFinished = true →
      (task.answer crate outcome now).isFinished = true :=
    fun hf => absurd (hf.symm.trans hrunning) (by simp)
  obtain ⟨channel, r, hsend, ⟨rfl, hgrows⟩ | ⟨⟨e, rfl⟩, hgrows⟩⟩ :=
    trySend_grows h.traffic h.senders p.generation event
  · rw [send]
    dsimp only
    rw [hsend]
    exact h.update hw (MediaTask.answer_inv htask .sent now) (MediaTask.answer_kind .sent now)
      hstays [event] hgrows (MediaTask.answer_sent hpending .sent now) rfl
  · have hrefused : ∀ outcome : FrameOutcome, outcome ≠ .sent →
        ({ p with traffic := { p.traffic with channel } } |>.setTask w
          (task.answer crate outcome now)).Inv base limit := by
      intro outcome hne
      have hsent : (task.answer crate outcome now).sent = _ :=
        MediaTask.answer_sent hpending outcome now
      rw [if_neg hne] at hsent
      have hupdate := h.update hw (MediaTask.answer_inv htask outcome now)
        (MediaTask.answer_kind outcome now) hstays [] hgrows hsent
        (List.append_nil _).symm
      simpa using hupdate
    rw [send]
    dsimp only
    rw [hsend]
    cases e with
    | full => exact hrefused .full (by simp)
    | disconnected => exact hrefused .disconnected (by simp)

/-- A track gets a task, and finished ones leave the list. -/
theorem Inv.spawn (h : p.Inv base limit) {handles : List ℕ} (hmedia : p.media = some handles)
    (hinv : task.Inv) (hcodec : supportedCodec task.kind codec = true) (hsent : task.sent = []) :
    ({ p with
        media := some (handles.filter (fun w => !p.finished w) ++ [p.tasks.length])
        tasks := p.tasks ++ [(codec, task)] } : PeerMedia σ).Inv base limit := by
  set p' : PeerMedia σ := { p with
    media := some (handles.filter (fun w => !p.finished w) ++ [p.tasks.length])
    tasks := p.tasks ++ [(codec, task)] } with hp'
  obtain ⟨howner, -, haborted⟩ : p.owner = .held ∧ (∃ handles, p.media = some handles) ∧
      p.aborted = [] := by
    rcases h.held with hheld | ⟨-, hnone⟩
    · exact hheld
    · exact absurd (hmedia.symm.trans hnone) (by simp)
  obtain ⟨hnodup, hlt⟩ := h.handles handles hmedia
  have hcases : ∀ {v codec' task'}, p'.tasks[v]? = some (codec', task') →
      p.tasks[v]? = some (codec', task') ∨
        v = p.tasks.length ∧ codec' = codec ∧ task' = task := by
    intro v codec' task' hv
    rcases lt_trichotomy v p.tasks.length with hlt | rfl | hgt
    · exact .inl (by rwa [hp', List.getElem?_append_left hlt] at hv)
    · rw [hp', List.getElem?_concat_length] at hv
      obtain ⟨rfl, rfl⟩ := Prod.mk.inj (Option.some_inj.mp hv)
      exact .inr ⟨rfl, rfl, rfl⟩
    · have hnone : p'.tasks[v]? = none := by
        rw [List.getElem?_eq_none_iff, hp', List.length_append, List.length_singleton]
        exact hgt
      exact absurd (hv.symm.trans hnone) (by simp)
  refine ⟨fun v codec' task' hv => ?_, fun v hv => ?_, ?_, .inl ⟨howner, ⟨_, rfl⟩, haborted⟩,
    fun rest hrest => absurd (howner.symm.trans hrest) (by simp), fun hover => ?_, h.traffic,
    h.senders, fun v codec' task' hv => ?_, fun s hs => ?_, h.accepted⟩
  · rcases hcases hv with hold | ⟨-, rfl, rfl⟩
    · exact h.tasks v codec' task' hold
    · exact ⟨hinv, hcodec⟩
  · rw [finished] at hv
    rcases htask : p'.tasks[v]? with _ | ⟨codec', task'⟩
    · rw [htask] at hv
      exact absurd hv (by simp)
    · rw [htask] at hv
      refine .inr ⟨_, rfl, ?_⟩
      rcases hcases htask with hold | ⟨rfl, -, -⟩
      · have hrunning : p.finished v = false := (finished_eq hold).trans hv
        rcases h.owned v hrunning with hab | ⟨handles', hmedia', hmem⟩
        · exact absurd (haborted ▸ hab) (by simp)
        · obtain rfl := Option.some_inj.mp (hmedia.symm.trans hmedia')
          exact List.mem_append_left _ (List.mem_filter.mpr ⟨hmem, by simp [hrunning]⟩)
      · simp
  · intro handles' hhandles'
    obtain rfl := Option.some_inj.mp hhandles'
    refine ⟨?_, fun v hv => ?_⟩
    · refine List.nodup_append.mpr
        ⟨hnodup.filter _, List.nodup_singleton _, fun v hv u hu heq => ?_⟩
      rw [List.mem_singleton.mp hu] at heq
      exact absurd (hlt v (List.mem_filter.mp hv).1) (by omega)
    · rw [hp', List.length_append, List.length_singleton]
      rcases List.mem_append.mp hv with hv | hv
      · exact Nat.lt_succ_of_lt (hlt v (List.mem_filter.mp hv).1)
      · rw [List.mem_singleton.mp hv]
        exact Nat.lt_succ_self _
  · rcases hover with hover | hover <;> exact absurd (howner.symm.trans hover) (by simp)
  · rcases hcases hv with hold | ⟨rfl, -, rfl⟩
    · exact h.sends v codec' task' hold
    · rw [hsent]
      have hnone : p.sent.filter (fun s => s.1 = p.tasks.length) = [] := by
        refine List.filter_eq_nil_iff.mpr fun s hs => ?_
        have := h.known s hs
        simpa using Nat.ne_of_lt this
      show (p.sent.filter _).map Prod.snd = _
      rw [hnone]
      rfl
  · rw [hp', List.length_append]
    exact Nat.lt_add_right _ (h.known s hs)

theorem onTrack_inv (h : p.Inv base limit) (kind : RTPCodecType)
    (codec : RTCRtpCodecCapability) : (p.onTrack crate kind codec).Inv base limit := by
  rw [onTrack]
  split
  · exact h
  next hsupported =>
    rw [not_not] at hsupported
    rcases hmedia : p.media with _ | handles
    · exact h
    · cases kind with
      | video => exact h.spawn hmedia VideoStream.init_inv hsupported rfl
      | audio => exact h.spawn hmedia (AudioStream.init_inv crate) hsupported rfl
      | unspecified => exact absurd hsupported (by simp [supportedCodec])

/-- The list is taken from the owner. -/
theorem Inv.take (h : p.Inv base limit) (howner : p.owner = .held) {owner : OwnerStage}
    (hto : owner = .joining (p.media.getD []) ∨ owner = .dropped) :
    ({ p.abortMedia with owner } : PeerMedia σ).Inv base limit := by
  obtain ⟨handles, hmedia, haborted⟩ : ∃ handles, p.media = some handles ∧ p.aborted = [] := by
    rcases h.held with ⟨-, ⟨handles, hmedia⟩, haborted⟩ | ⟨hother, -⟩
    · exact ⟨handles, hmedia, haborted⟩
    · exact absurd howner hother
  have hall : ∀ v, p.finished v = false → v ∈ handles := by
    intro v hv
    rcases h.owned v hv with hab | ⟨handles', hmedia', hmem⟩
    · exact absurd (haborted ▸ hab) (by simp)
    · rwa [Option.some_inj.mp (hmedia.symm.trans hmedia')]
  refine ⟨h.tasks, fun v hv => .inl ?_,
    fun handles' hhandles' => absurd hhandles' (by simp [abortMedia]), .inr ⟨?_, rfl⟩,
    fun rest hrest v hv => ?_, fun hover => ?_, h.traffic, h.senders, h.sends,
    h.known, h.accepted⟩
  · show v ∈ p.aborted ++ p.media.getD []
    rw [haborted, hmedia]
    exact hall v hv
  · rcases hto with rfl | rfl <;> simp
  · rcases hto with rfl | rfl
    · obtain rfl := OwnerStage.joining.inj hrest
      rw [hmedia]
      exact hall v hv
    · exact absurd hrest (by simp)
  · rcases hto with rfl | rfl <;> exact absurd hover (by simp)

/-- The owner goes on, with no list of its own. -/
theorem Inv.goes (h : p.Inv base limit) (hfrom : p.owner ≠ .held) {owner : OwnerStage}
    (hto : owner ≠ .held)
    (hjoining : ∀ rest, owner = .joining rest → ∀ v, p.finished v = false → v ∈ rest)
    (hjoined : owner = .closingPeer ∨ owner = .closed → ∀ v, p.finished v = true) :
    ({ p with owner } : PeerMedia σ).Inv base limit := by
  have hnone : p.media = none := by
    rcases h.held with ⟨hheld, -⟩ | ⟨-, hnone⟩
    · exact absurd hheld hfrom
    · exact hnone
  exact ⟨h.tasks, h.owned, h.handles, .inr ⟨hto, hnone⟩, hjoining, hjoined, h.traffic, h.senders,
    h.sends, h.known, h.accepted⟩

theorem join_inv (h : p.Inv base limit) : (p.step crate base .join).Inv base limit := by
  rw [step]
  split
  next v rest howner =>
    have hrest := h.joining _ howner
    split
    next hfinished =>
      refine h.goes (by simp [howner]) (by simp) (fun rest' hrest' u hu => ?_) (by simp)
      obtain rfl := OwnerStage.joining.inj hrest'
      rcases List.mem_cons.mp (hrest u hu) with rfl | hmem
      · exact absurd (hfinished.symm.trans hu) (by simp)
      · exact hmem
    next => exact h
  next howner =>
    refine h.goes (by simp [howner]) (by simp) (by simp) fun _ u => ?_
    by_contra hne
    exact absurd (h.joining _ howner u (by simpa using hne)) (by simp)
  next => exact h

theorem step_inv (h : p.Inv base limit) (a : Action) : (p.step crate base a).Inv base limit := by
  cases a with
  | track kind codec => exact onTrack_inv h kind codec
  | work w a =>
    simp only [step]
    split
    next codec task hw =>
      split
      next ha => exact h.advance hw (MediaTask.step_advances task ha)
      next => exact h
    next => exact h
  | send w now =>
    simp only [step]
    split
    next codec task hw =>
      split
      next event hpending => exact send_inv h hw hpending now
      next => exact h
    next => exact h
  | interrupt w =>
    simp only [step]
    split
    next codec task hw =>
      split
      · exact h.advance hw (MediaTask.cancel_advances task)
      · exact h
    next => exact h
  | close =>
    simp only [step]
    split
    next howner => exact h.take howner (.inl rfl)
    next => exact h
  | join => exact join_inv h
  | peerClosed =>
    simp only [step]
    split
    next howner =>
      exact h.goes (by simp [howner]) (by simp) (by simp) fun _ => h.joined (.inl howner)
    next => exact h
  | cancelClose =>
    simp only [step]
    split
    next howner => exact h.goes (by simp [howner]) (by simp) (by simp) (by simp)
    next howner => exact h.goes (by simp [howner]) (by simp) (by simp) (by simp)
    next => exact h
  | drop =>
    simp only [step]
    split
    next howner => exact h.take howner (.inr rfl)
    next => exact h
  | channel a =>
    simp only [step]
    split
    next ha =>
      have hgrows := WorkerPool.channel_grows h.traffic ha
      exact ⟨h.tasks, h.owned, h.handles, h.held, h.joining, h.joined, hgrows.inv limit h.traffic,
        hgrows.senders h.senders, h.sends, h.known, h.accepted.trans hgrows.accepted.sublist⟩
    next => exact h

theorem offeredBy_setTask (hw : p.tasks[w]? = some (codec, task)) (task' : MediaTask σ) (v : ℕ) :
    (p.setTask w task').offeredBy v = if v = w then task'.offered else p.offeredBy v := by
  rw [offeredBy, getElem?_setTask hw]
  by_cases hv : v = w
  · simp [hv]
  · simp [hv, offeredBy]

theorem offeredBy_eq (hw : p.tasks[w]? = some (codec, task)) : p.offeredBy w = task.offered := by
  rw [offeredBy, hw]

theorem offeredBy_advance (hw : p.tasks[w]? = some (codec, task))
    (ha : MediaTask.Advances task task') (v : ℕ) :
    (p.setTask w task').offeredBy v = p.offeredBy v := by
  rw [offeredBy_setTask hw]
  split
  next hv => rw [hv, offeredBy_eq hw, ha.offered]
  next => rfl

/-- A new task has offered nothing. -/
theorem offeredBy_spawn (htask : task.offered = []) (media : Option (List ℕ)) (v : ℕ) :
    ({ p with media, tasks := p.tasks ++ [(codec, task)] } : PeerMedia σ).offeredBy v =
      p.offeredBy v := by
  simp only [offeredBy]
  rcases lt_trichotomy v p.tasks.length with hv | rfl | hv
  · rw [List.getElem?_append_left hv]
  · rw [List.getElem?_concat_length, List.getElem?_eq_none le_rfl]
    exact htask
  · rw [List.getElem?_eq_none hv.le, List.getElem?_eq_none]
    rw [List.length_append, List.length_singleton]
    exact hv

theorem onTrack_offeredBy (kind : RTPCodecType) (codec : RTCRtpCodecCapability) (v : ℕ) :
    (p.onTrack crate kind codec).offeredBy v = p.offeredBy v := by
  rw [onTrack]
  split
  · rfl
  split
  · rfl
  · cases kind with
    | video => exact offeredBy_spawn rfl _ v
    | audio => exact offeredBy_spawn rfl _ v
    | unspecified => rfl

theorem send_offers (crate : OpusCrate σ) (h : p.Inv base limit)
    (hw : p.tasks[w]? = some (codec, task)) {event : CallbackEvent}
    (hpending : task.pending = some event) (now : ℕ) :
    ∃ outcome, Answers base p event outcome ∧ ∀ v,
      (p.send crate base w now task event).offeredBy v =
        if v = w then p.offeredBy w ++ [(event, outcome)] else p.offeredBy v := by
  have hset : ∀ (p' : PeerMedia σ) (outcome : FrameOutcome), p'.tasks = p.tasks → ∀ v,
      (p'.setTask w (task.answer crate outcome now)).offeredBy v =
        if v = w then p.offeredBy w ++ [(event, outcome)] else p.offeredBy v := by
    intro p' outcome htasks v
    rw [offeredBy_setTask (by rw [htasks]; exact hw), MediaTask.answer_offered hpending,
      offeredBy_eq hw, offeredBy, htasks, offeredBy]
  rw [send]
  dsimp only
  rw [Channel.trySend_eq h.traffic.ledger h.traffic.closed_eq]
  by_cases hstale : p.traffic.channel.current ≠ p.generation
  · rw [if_pos hstale]
    exact ⟨.full, .inl hstale, hset _ _ rfl⟩
  rw [if_neg hstale]
  push Not at hstale
  by_cases hgone : p.traffic.channel.receiverAlive = false
  · rw [if_pos hgone]
    exact ⟨.disconnected, ⟨hstale, hgone⟩, hset _ _ rfl⟩
  rw [if_neg hgone]
  rw [Bool.not_eq_false] at hgone
  by_cases hfull : p.traffic.channel.Exhausted (eventSize base) event
  · rw [if_pos hfull]
    exact ⟨.full, .inr ⟨hgone, hfull⟩, hset _ _ rfl⟩
  · rw [if_neg hfull]
    exact ⟨.sent, ⟨hstale, hgone, hfull⟩, hset _ _ rfl⟩

theorem step_offers (h : p.Inv base limit) (a : Action) (v : ℕ) :
    (p.step crate base a).offeredBy v = p.offeredBy v ∨
      ∃ o, (Offers base p v o ∧ ∃ now, a = .send v now) ∧
        (p.step crate base a).offeredBy v = p.offeredBy v ++ [o] := by
  cases a with
  | track kind codec => exact .inl (onTrack_offeredBy kind codec v)
  | work w a =>
    simp only [step]
    split
    next codec task hw =>
      split
      next ha => exact .inl (offeredBy_advance hw (MediaTask.step_advances task ha) v)
      next => exact .inl rfl
    next => exact .inl rfl
  | interrupt w =>
    simp only [step]
    split
    next codec task hw =>
      split
      · exact .inl (offeredBy_advance hw (MediaTask.cancel_advances task) v)
      · exact .inl rfl
    next => exact .inl rfl
  | send w now =>
    simp only [step]
    split
    next codec task hw =>
      split
      next event hpending =>
        obtain ⟨outcome, hanswers, hoffered⟩ := send_offers crate h hw hpending now
        rw [hoffered]
        by_cases hv : v = w
        · subst hv
          rw [if_pos rfl]
          exact .inr ⟨(event, outcome), ⟨⟨⟨codec, task, hw, hpending⟩, hanswers⟩, now, rfl⟩, rfl⟩
        · exact .inl (if_neg hv)
      next => exact .inl rfl
    next => exact .inl rfl
  | close | join | peerClosed | cancelClose | drop | channel =>
    simp only [step]
    repeat' split
    all_goals exact .inl rfl

theorem init_inv {c : Channel CallbackEvent} (hopen : Channel.open' limit = .ok c)
    (generation : ℕ) : (init c generation : PeerMedia σ).Inv base limit where
  tasks _ _ _ hw := absurd hw (by simp [init])
  owned _ hw := absurd hw (by simp [finished, init])
  handles handles hmedia := by
    obtain rfl := Option.some_inj.mp hmedia
    exact ⟨List.nodup_nil, by simp⟩
  held := .inl ⟨rfl, ⟨[], rfl⟩, rfl⟩
  joining _ hrest := absurd hrest (by simp [init])
  joined hover := absurd hover (by simp [init])
  traffic := Traffic.start_inv hopen
  senders := by
    rw [Channel.open'] at hopen
    split at hopen
    · rw [← Except.ok.inj hopen]
      exact Nat.one_ne_zero
    · exact absurd hopen (by simp)
  sends _ _ _ hw := absurd hw (by simp [init])
  known _ hs := absurd hs (by simp [init])
  accepted := List.Sublist.slnil

theorem run_inv (crate : OpusCrate σ) {c : Channel CallbackEvent}
    (hopen : Channel.open' limit = .ok c) (generation : ℕ) (as : List Action) :
    (Runs.run (step crate base) (init c generation) as).Inv base limit :=
  Runs.run_invariant (I := Inv base limit) (fun _ a h => step_inv h a) as
    (init_inv hopen generation)

/-! ### After the list was taken -/

/-- Without a list no task is started, and the list does not come back. -/
theorem step_taken (h : p.media = none) (a : Action) :
    (p.step crate base a).media = none ∧ (p.step crate base a).tasks.length = p.tasks.length := by
  have hset : ∀ (q : PeerMedia σ) w task, (q.setTask w task).tasks.length = q.tasks.length :=
    fun q w task => by rw [setTask, List.length_modify]
  cases a with
  | track kind codec =>
    simp only [step, onTrack, h, ite_self]
    exact ⟨trivial, trivial⟩
  | work | interrupt =>
    simp only [step]
    repeat' split
    all_goals exact ⟨h, by simp [hset]⟩
  | send w now =>
    simp only [step, send]
    repeat' split
    all_goals exact ⟨h, by simp [hset]⟩
  | close | drop | join | peerClosed | cancelClose | channel =>
    simp only [step, abortMedia]
    repeat' split
    all_goals first | exact ⟨h, rfl⟩ | exact ⟨rfl, rfl⟩

/-- When all tasks are over, nothing of them goes on. -/
theorem step_over (hmedia : p.media = none) (hover : ∀ v, p.finished v = true) (a : Action) :
    (p.step crate base a).tasks = p.tasks ∧ (p.step crate base a).sent = p.sent := by
  have hset : ∀ {w codec task}, p.tasks[w]? = some (codec, task) →
      (p.setTask w task).tasks = p.tasks := by
    intro w codec task hw
    refine List.ext_getElem? fun v => ?_
    rw [getElem?_setTask hw]
    split
    next heq => rw [heq, hw]
    next => rfl
  cases a with
  | track kind codec =>
    simp only [step, onTrack, hmedia, ite_self]
    exact ⟨trivial, trivial⟩
  | work w a =>
    simp only [step]
    split
    next codec task hw =>
      rw [MediaTask.step_finished ((finished_eq hw).symm.trans (hover w))]
      split
      · exact ⟨hset hw, rfl⟩
      · exact ⟨rfl, rfl⟩
    next => exact ⟨rfl, rfl⟩
  | interrupt w =>
    simp only [step]
    split
    next codec task hw =>
      rw [MediaTask.cancel_finished ((finished_eq hw).symm.trans (hover w))]
      split
      · exact ⟨hset hw, rfl⟩
      · exact ⟨rfl, rfl⟩
    next => exact ⟨rfl, rfl⟩
  | send w now =>
    simp only [step]
    split
    next codec task hw =>
      split
      next event hpending =>
        have hrunning := MediaTask.isFinished_of_pending hpending
        exact absurd ((finished_eq hw).symm.trans (hover w) |>.symm.trans hrunning) (by simp)
      next => exact ⟨rfl, rfl⟩
    next => exact ⟨rfl, rfl⟩
  | close | drop | join | peerClosed | cancelClose | channel =>
    simp only [step, abortMedia]
    repeat' split
    all_goals exact ⟨rfl, rfl⟩

/-! ### The end of an aborted task -/

/-- The own steps of a task up to its next await, with these answers of GStreamer and of
the channel, and then the abort. -/
def windDown (w : ℕ) (allocated mapped pushed : Bool) (message : Option BusMessage)
    (connected : Bool) (now : ℕ) : List Action :=
  [.work w (.video .weigh), .work w (.video (.push allocated mapped pushed)),
    .work w (.video (.checkHealth message)), .work w (.video (.poll connected)), .send w now,
    .interrupt w]

theorem work_task (hw : p.tasks[w]? = some (codec, task)) {a : MediaTask.Action}
    (ha : a.own = true) :
    (p.step crate base (.work w a)).tasks[w]? = some (codec, task.step crate a) ∧
      (p.step crate base (.work w a)).aborted = p.aborted := by
  have hstep : p.step crate base (.work w a) = p.setTask w (task.step crate a) := by
    simp only [step, hw, ha, if_true]
  rw [hstep, getElem?_setTask hw, if_pos rfl]
  exact ⟨rfl, rfl⟩

/-- The channel answers if it has to. -/
theorem send_task (h : p.Inv base limit) (hw : p.tasks[w]? = some (codec, task))
    (hrests : task.Rests crate) (now : ℕ) :
    ∃ task', (p.step crate base (.send w now)).tasks[w]? = some (codec, task') ∧
      (p.step crate base (.send w now)).aborted = p.aborted ∧
      (task'.cancel crate).isFinished = true := by
  rcases hpending : task.pending with _ | event
  · have hstep : p.step crate base (.send w now) = p := by simp only [step, hw, hpending]
    rw [hstep]
    exact ⟨task, hw, rfl, hrests.resolve_left fun hne => hne hpending⟩
  · have hstep : p.step crate base (.send w now) = p.send crate base w now task event := by
      simp only [step, hw, hpending]
    have hends : ∀ outcome, ((task.answer crate outcome now).cancel crate).isFinished = true :=
      fun outcome => MediaTask.answer_rests hpending outcome now
    rw [hstep, send]
    obtain ⟨channel, r, hsend, -⟩ := trySend_grows h.traffic h.senders p.generation event
    dsimp only
    rw [hsend]
    have hset : ∀ (q : PeerMedia σ) task', q.tasks = p.tasks →
        (q.setTask w task').tasks[w]? = some (codec, task') := by
      intro q task' hq
      rw [getElem?_setTask (hq ▸ hw), if_pos rfl]
    rcases r with (e | e) | _
    · exact ⟨_, hset _ _ rfl, rfl, hends .full⟩
    · exact ⟨_, hset _ _ rfl, rfl, hends .disconnected⟩
    · exact ⟨_, hset _ _ rfl, rfl, hends .sent⟩

/-- The steps of a task bring it to an await or to an answer. -/
theorem rests_steps (crate : OpusCrate σ) (task : MediaTask σ) (allocated mapped pushed : Bool)
    (message : Option BusMessage) (connected : Bool) :
    ((((task.step crate (.video .weigh)).step crate
      (.video (.push allocated mapped pushed))).step crate
      (.video (.checkHealth message))).step crate (.video (.poll connected))).Rests crate := by
  cases task with
  | video s =>
    refine MediaTask.rests_video (VideoStream.distance_poll ?_ connected)
    refine VideoStream.distance_checkHealth ?_ message
    exact VideoStream.distance_push (VideoStream.distance_weigh s) allocated mapped pushed
  | audio s => exact MediaTask.rests_audio s

/-- Whatever is answered, an aborted task ends. -/
theorem windDown_finished (h : p.Inv base limit) (hw : w ∈ p.aborted)
    (allocated mapped pushed : Bool) (message : Option BusMessage) (connected : Bool) (now : ℕ) :
    (Runs.run (step crate base) p
      (windDown w allocated mapped pushed message connected now)).finished w = true := by
  rcases htask : p.tasks[w]? with _ | ⟨codec, task⟩
  · simp [windDown, Runs.run, step, htask, finished]
  · set p₁ := p.step crate base (.work w (.video .weigh)) with hp₁
    set p₂ := p₁.step crate base (.work w (.video (.push allocated mapped pushed))) with hp₂
    set p₃ := p₂.step crate base (.work w (.video (.checkHealth message))) with hp₃
    set p₄ := p₃.step crate base (.work w (.video (.poll connected))) with hp₄
    have hinv : p₄.Inv base limit := step_inv (step_inv (step_inv (step_inv h _) _) _) _
    obtain ⟨htask₁, haborted₁⟩ : p₁.tasks[w]? = _ ∧ p₁.aborted = _ := work_task htask rfl
    obtain ⟨htask₂, haborted₂⟩ : p₂.tasks[w]? = _ ∧ p₂.aborted = _ := work_task htask₁ rfl
    obtain ⟨htask₃, haborted₃⟩ : p₃.tasks[w]? = _ ∧ p₃.aborted = _ := work_task htask₂ rfl
    obtain ⟨htask₄, haborted₄⟩ : p₄.tasks[w]? = _ ∧ p₄.aborted = _ := work_task htask₃ rfl
    obtain ⟨task', htask', haborted, hfinished⟩ := send_task hinv htask₄
      (rests_steps crate task allocated mapped pushed message connected) now
    have hmem : w ∈ (p₄.step crate base (.send w now)).aborted := by
      rw [haborted, haborted₄, haborted₃, haborted₂, haborted₁]
      exact hw
    have hlast : (p₄.step crate base (.send w now)).step crate base (.interrupt w) =
        (p₄.step crate base (.send w now)).setTask w (task'.cancel crate) := by
      generalize p₄.step crate base (.send w now) = q at htask' hmem
      simp only [step, htask', hmem, if_true]
    show ((p₄.step crate base (.send w now)).step crate base (.interrupt w)).finished w = true
    rw [hlast, finished_setTask htask', if_pos rfl]
    exact hfinished

/-! ### Results -/

/-- **No media task outlives its peer.**  After any run: every task is for a track of a
supported codec, and as long as it is not over it is in the owner's list, or was aborted;
aborted is the same as soon to be over, whatever GStreamer and the channel answer.  Once the
owner has closed or dropped its resources, no track gets a task any more.  While `close`
waits, it waits for all that still run; when it has closed the peer every task is over, and
whatever happens then, none of them does or sends anything. -/
theorem media_tasks_are_owned (crate : OpusCrate σ) (base limit : ℕ)
    (c : Channel CallbackEvent) (hopen : Channel.open' limit = .ok c) (generation : ℕ)
    (as : List Action) :
    let p : PeerMedia σ := Runs.run (step crate base) (init c generation) as
    (∀ (w : ℕ) codec (task : MediaTask σ), p.tasks[w]? = some (codec, task) →
      supportedCodec task.kind codec = true) ∧
    (∀ w, p.finished w = false →
      w ∈ p.aborted ∨ ∃ handles, p.media = some handles ∧ w ∈ handles) ∧
    (∀ w ∈ p.aborted, ∀ allocated mapped pushed message connected now,
      (Runs.run (step crate base) p
        (windDown w allocated mapped pushed message connected now)).finished w = true) ∧
    (p.owner ≠ .held → ∀ bs,
      (Runs.run (step crate base) p bs).tasks.length = p.tasks.length) ∧
    (∀ rest, p.owner = .joining rest → ∀ w, p.finished w = false → w ∈ rest) ∧
    (p.owner = .closingPeer ∨ p.owner = .closed → (∀ w, p.finished w = true) ∧ ∀ bs,
      (Runs.run (step crate base) p bs).tasks = p.tasks ∧
        (Runs.run (step crate base) p bs).sent = p.sent) := by
  intro p
  have h : p.Inv base limit := run_inv crate hopen generation as
  have hmedia : p.owner ≠ .held → p.media = none := by
    intro hother
    rcases h.held with ⟨hheld, -⟩ | ⟨-, hnone⟩
    · exact absurd hheld hother
    · exact hnone
  refine ⟨fun w codec task hw => (h.tasks w codec task hw).2, h.owned,
    fun w hw allocated mapped pushed message connected now =>
      windDown_finished h hw allocated mapped pushed message connected now,
    fun hother bs => ?_, h.joining, fun hover => ⟨h.joined hover, fun bs => ?_⟩⟩
  · have hstays : ∀ q : PeerMedia σ, ∀ a, q.media = none ∧ q.tasks.length = p.tasks.length →
        (q.step crate base a).media = none ∧ (q.step crate base a).tasks.length = p.tasks.length :=
      fun q a hq => ⟨(step_taken hq.1 a).1, (step_taken hq.1 a).2.trans hq.2⟩
    exact (Runs.run_invariant hstays bs ⟨hmedia hother, rfl⟩).2
  · have hnone := hmedia (by rcases hover with hover | hover <;> simp [hover])
    have hall := h.joined hover
    have hstays : ∀ q : PeerMedia σ, ∀ a,
        q.media = none ∧ q.tasks = p.tasks ∧ q.sent = p.sent →
        (q.step crate base a).media = none ∧ (q.step crate base a).tasks = p.tasks ∧
          (q.step crate base a).sent = p.sent := by
      rintro q a ⟨hq, htasks, hsent⟩
      have hfinished : ∀ v, q.finished v = true := fun v => by
        rw [finished, htasks]
        exact hall v
      obtain ⟨htasks', hsent'⟩ : (q.step crate base a).tasks = q.tasks ∧
          (q.step crate base a).sent = q.sent := step_over hq hfinished a
      exact ⟨(step_taken hq a).1, htasks'.trans htasks, hsent'.trans hsent⟩
    exact (Runs.run_invariant hstays bs ⟨hnone, rfl, rfl⟩).2

/-- A decoder that makes one sample of every packet. -/
def oneSample : OpusCrate Unit := { fresh := (), decode := fun _ _ => ((), some [0]) }

def opusTrack : RTCRtpCodecCapability :=
  { mimeType := "audio/opus", clockRate := 48000, channels := 2 }

/-- A peer is closed while its audio task still waits for a packet. -/
theorem media_tasks_are_owned_closed :
    let p := Runs.run (step oneSample 72) (init (Channel.fresh 2) 0)
      [.track .audio opusTrack, .work 0 (.audio (.start true)), .close, .interrupt 0, .join,
        .join, .peerClosed]
    p.tasks.length = 1 ∧ ∀ w, p.finished w = true := by
  intro p
  obtain ⟨-, -, -, -, -, hclosed⟩ := media_tasks_are_owned oneSample 72 2 _ rfl 0
    [.track .audio opusTrack, .work 0 (.audio (.start true)), .close, .interrupt 0, .join, .join,
      .peerClosed]
  exact ⟨rfl, (hclosed (.inr rfl)).1⟩

/-- **Every frame and every packet is accounted for.**  After any run, with whatever else
happens on the callback channel: a video task offered every frame that it took out of its
decoder, but for the one at hand, and an audio task has an outcome for every packet that it
read, but for the one at hand; an event that was offered was offered at one step, with what
the channel answered then; what the channel was full for is what their logs count, or
have yet to say, and nothing of it is left unsaid by a task that is over.  What a task has
sent carries the generation of the peer, in the order of its frames, and all of it was
accepted by the channel. -/
theorem media_accounted (crate : OpusCrate σ) (base limit : ℕ)
    (c : Channel CallbackEvent) (hopen : Channel.open' limit = .ok c) (generation : ℕ)
    (as : List Action) :
    let p : PeerMedia σ := Runs.run (step crate base) (init c generation) as
    (∀ (w : ℕ) codec (s : VideoStream), p.tasks[w]? = some (codec, MediaTask.video s) →
      s.frameCount = s.taken.length ∧
      (s.outcomes.length < 2 ^ 64 → s.frameDrops.counted () 0 + s.frameDrops.waiting () 0 =
        s.outcomes.countP fun o => o.2 = .full) ∧
      ∀ why, s.stage = .ended why → s.frameDrops.waiting () 0 = 0) ∧
    (∀ (w : ℕ) codec (s : AudioStream σ), p.tasks[w]? = some (codec, MediaTask.audio s) →
      s.packets = s.outcomes.map Prod.fst ++
        (AudioStream.inFlight s.stage).toList.map Prod.fst ∧
      (s.outcomes.length < 2 ^ 64 → ∀ log, s.logs.counted log 0 + s.logs.waiting log 0 =
        s.outcomes.countP fun o => o.2.failure = some log) ∧
      ∀ why, s.stage = .ended why → ∀ log, s.logs.waiting log 0 = 0) ∧
    (∀ w before o after, p.offeredBy w = before ++ o :: after → ∃ q now,
      q ++ [.send w now] <+: as ∧
      (Runs.run (step crate base) (init c generation) q).offeredBy w = before ∧
      Offers base (Runs.run (step crate base) (init c generation) q) w o) ∧
    (∀ (w : ℕ) codec (task : MediaTask σ), p.tasks[w]? = some (codec, task) →
      p.sentBy w = task.sent.map (Channel.envelope (eventSize base) p.generation)) ∧
    (p.sent.map Prod.snd).Sublist p.traffic.accepted := by
  intro p
  have h : p.Inv base limit := run_inv crate hopen generation as
  refine ⟨fun w codec s hw => ?_, fun w codec s hw => ?_, fun w before o after hoffered => ?_,
    h.sends, h.accepted⟩
  · obtain ⟨-, hyield⟩ : s.Inv := (h.tasks w codec _ hw).1
    refine ⟨hyield.count, fun hfew => ?_, fun why hwhy => hyield.settled why hwhy () 0⟩
    refine (hyield.balanced.counts hyield.recorded hfew () 0).trans
      (List.countP_congr fun o _ => ?_)
    cases o.2 <;> simp [FrameOutcome.failure]
  · have hinv : s.Inv := (h.tasks w codec _ hw).1
    refine ⟨hinv.handled, fun hfew log => ?_, fun why hwhy log => hinv.settled why hwhy log 0⟩
    exact (hinv.balanced.counts hinv.recorded hfew log 0).trans (List.countP_congr (by simp))
  · obtain ⟨q, a, hq, hbefore, hoffers, now, rfl⟩ := Runs.exists_entry
      (fun p : PeerMedia σ => p.offeredBy w) (I := Inv base limit) (fun _ a hp => step_inv hp a)
      (fun _ a hp => step_offers hp a w) (init_inv hopen generation) rfl hoffered
    exact ⟨q, now, hq, hbefore, hoffers⟩

/-- The samples of a packet come too late for the session of their peer. -/
theorem media_accounted_late :
    let p := Runs.run (step oneSample 72) (init (Channel.fresh 2) 0)
      [.track .audio opusTrack, .work 0 (.audio (.start true)), .work 0 (.audio (.packet [1] 0)),
        .channel (.setGeneration 1), .send 0 5]
    ∀ s, p.tasks[0]? = some (opusTrack, .audio s) →
      s.logs.counted .frameDrops 0 + s.logs.waiting .frameDrops 0 = 1 := by
  intro p s hs
  obtain ⟨-, haudio, -⟩ := media_accounted oneSample 72 2 _ rfl 0
    [.track .audio opusTrack, .work 0 (.audio (.start true)), .work 0 (.audio (.packet [1] 0)),
      .channel (.setGeneration 1), .send 0 5]
  obtain rfl : _ = s := MediaTask.audio.inj (Prod.mk.inj (Option.some_inj.mp hs)).2
  exact ((haudio 0 _ _ rfl).2.1 (by decide) .frameDrops).trans rfl

end PeerMedia

end Unitree
