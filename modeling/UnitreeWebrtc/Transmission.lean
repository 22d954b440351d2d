/-
An audio sender (`audio/transmit/service.rs`).

Four threads share a sender.  The streaming thread of GStreamer copies RTP packets into a
channel of eight, as long as the sender plays.  A task takes them out, waits until each is
due by its timestamp, and writes it to the track.  The bus worker stops everything at the
first error of the pipeline.  The owner plays, pauses and at last shuts the sender down,
which is complete when the bus worker and the task are.  The flags and the channel are all
they have in common, and every load and store of them is a step of its own.

* `SenderThreads.step` — the steps of the four threads;
* `SenderThreads.step_inv`, `SenderThreads.run_inv` — packets, flags and stages agree;
* `SenderThreads.play_held`, `SenderThreads.shutdown_takes` — what the session sees of them;
* `SenderThreads.packets_in_time` — packets are written in order, once, and not too early;
* `SenderThreads.shutdown_is_final` — what a failure and a shutdown leave behind.
-/
import UnitreeWebrtc.Playback
import UnitreeWebrtc.Tally

namespace Unitree

/-- How an RTP packet is parsed, and its timestamp. -/
structure RtpCrate (ρ : Type) where
  unmarshal : List UInt8 → Option ρ
  timestamp : ρ → UInt32

/-- `Duration::from_secs_f64(elapsed_ticks / 48_000.0)`, in nanoseconds. -/
def rtpDelay (elapsedTicks : UInt32) : ℕ :=
  -- a tick is 62500 / 3 ns; the quotient of floats is within 0.01 ns of that, so it is
  -- rounded to the same nanosecond, and no tie is near
  (62500 * elapsedTicks.toNat + 1) / 3

/-- The states of the pipeline that the sender asks for. -/
inductive GstState where
  | null
  | paused
  | playing
deriving DecidableEq

/-- The messages that the bus worker tells apart. -/
inductive AudioBusMessage where
  | error
  | warning (code : ℤ)
  | eos
  | other

/-- What `try_send` says of a packet of the pipeline. -/
inductive SampleFate where
  | queued
  | full
  | closed
deriving DecidableEq

def SampleFate.failure : SampleFate → Option Unit
  | full => some ()
  | queued | closed => none

/-- The two logs of the task. -/
inductive SenderLog where
  | parseErrors
  | sendErrors
deriving DecidableEq

namespace SenderLog

def name : SenderLog → String × String
  | parseErrors => ("audio_rtp_parse_error", "invalid_packet")
  | sendErrors => ("audio_rtp_send_error", "track_write_failed")

/-- The order in which the locals of the task are dropped. -/
def order : List SenderLog := [sendErrors, parseErrors]

theorem mem_order (log : SenderLog) : log ∈ order := by
  cases log <;> decide

end SenderLog

/-- What becomes of a packet that the task has taken. -/
inductive RtpOutcome where
  | invalid
  | written
  | writeFailed
  /-- The task was aborted while the packet was not due, or was being written. -/
  | abandoned
deriving DecidableEq

def RtpOutcome.failure : RtpOutcome → Option SenderLog
  | invalid => some .parseErrors
  | writeFailed => some .sendErrors
  | written | abandoned => none

/-- Where the task is; each of these is an await. -/
inductive RtpStage (ρ : Type) where
  | receiving
  | sleeping (data : List UInt8) (packet : ρ) (target : ℕ)
  | writing (data : List UInt8) (packet : ρ)
  | ended

/-- Where the bus worker is. -/
inductive BusStage where
  | looping
  | popping
  /-- After an error, before each of the four things it does. -/
  | stopPlaying
  | stopRunning
  | abortSender
  | setNull
  | ended
deriving DecidableEq

/-- Where the owner is. -/
inductive SenderStage where
  | idle
  /-- In `play`, before the store, the change of state and the last look. -/
  | playStore
  | playState
  | playCheck
  /-- In `pause`, before the store. -/
  | pauseStore
  /-- In `take_native_shutdown`; `wait` says whether the task is joined too. -/
  | stopPlaying (wait : Bool)
  | stopRunning (wait : Bool)
  | dropSender (wait : Bool)
  | abortTask (wait : Bool)
  | setNull (wait : Bool)
  | joinBus (wait : Bool) (result : Except String Unit)
  | joinTask (result : Except String Unit)
  /-- The sender is consumed. -/
  | done (result : Except String Unit)

/-- An `AudioSender` with its threads. -/
structure SenderThreads (ρ : Type) where
  isPlaying : Bool
  busRunning : Bool
  pipeline : GstState
  packetCount : UInt64
  queue : List (List UInt8)
  /-- The senders of the channel that the owner and the callback have. -/
  ownTx : Bool
  callbackTx : Bool
  /-- The packet that the streaming thread has copied. -/
  holding : Option (List UInt8)
  queueDrops : Tally Unit Unit
  task : RtpStage ρ
  aborted : Bool
  firstTimestamp : Option UInt32
  playbackStart : Option ℕ
  taskLogs : Tally SenderLog Unit
  bus : BusStage
  /-- The bus worker has met an error. -/
  failed : Bool
  warnings : Tally Unit ℤ
  owner : SenderStage
  nativeShutdown : Bool
  /-- The packets of the pipeline with their fates, the accepted ones with their outcomes,
  and those that `write_rtp` was called with, each with the time of the call. -/
  samples : List (List UInt8 × SampleFate)
  accepted : List (List UInt8)
  outcomes : List (List UInt8 × RtpOutcome)
  writes : List (ρ × ℕ)
  /-- The results of `play`. -/
  plays : List (Except String Unit)

namespace SenderThreads

variable {ρ : Type}

inductive Action where
  /-- `new_sample`, and the `try_send` of its packet. -/
  | sample (data : List UInt8)
  | forward (now : ℕ)
  /-- The pipeline is freed, and the callback with it. -/
  | dispose
  | recv (now : ℕ)
  | wake (now : ℕ)
  | writeDone (ok : Bool) (now : ℕ)
  /-- The abort of the task takes effect. -/
  | cancel
  | busCheck
  | busPop (message : Option AudioBusMessage) (now : ℕ)
  | busFail (stateChanged : Bool)
  | play
  | pause (stateChanged : Bool)
  /-- The next step of `play` or `pause`. -/
  | playNext (stateChanged : Bool)
  | stop
  | shutdown
  | shutdownNext (stateChanged : Bool)

/-- The task is over; its receiver is dropped with what is queued. -/
def endTask (s : SenderThreads ρ) : SenderThreads ρ :=
  { s with task := .ended, taskLogs := s.taskLogs.drop SenderLog.order }

/-- The bus worker is over. -/
def endBus (s : SenderThreads ρ) : SenderThreads ρ :=
  { s with bus := .ended, warnings := s.warnings.drop [()] }

/-- The task is done with a packet. -/
def settle (s : SenderThreads ρ) (data : List UInt8) (outcome : RtpOutcome) (now : ℕ) :
    SenderThreads ρ :=
  { s with
    task := .receiving
    outcomes := s.outcomes ++ [(data, outcome)]
    taskLogs :=
      match outcome.failure with
      | none => s.taskLogs
      | some log => s.taskLogs.record log now none }

/-- `rtp_rx.recv()` has a packet; it is parsed at once. -/
def handle (lib : RtpCrate ρ) (s : SenderThreads ρ) (data : List UInt8) (now : ℕ) :
    SenderThreads ρ :=
  match lib.unmarshal data with
  | none => s.settle data .invalid now
  | some packet =>
    match s.firstTimestamp, s.playbackStart with
    | none, none =>
      { s with
        firstTimestamp := some (lib.timestamp packet)
        playbackStart := some now
        task := .writing data packet
        writes := s.writes ++ [(packet, now)] }
    | some baseTimestamp, some baseInstant =>
      let elapsed := lib.timestamp packet - baseTimestamp
      { s with task := .sleeping data packet (baseInstant + rtpDelay elapsed) }
    | _, _ => { s with task := .writing data packet, writes := s.writes ++ [(packet, now)] }

/-- `stop` hands the sender back; `shutdown` consumes it. -/
def finishes (s : SenderThreads ρ) (wait : Bool) (result : Except String Unit) : SenderThreads ρ :=
  { s with owner := if wait then .joinTask result else .idle }

def step (lib : RtpCrate ρ) (s : SenderThreads ρ) : Action → SenderThreads ρ
  | .sample data =>
    if s.callbackTx ∧ s.isPlaying ∧ s.holding = none then { s with holding := some data } else s
  | .forward now =>
    match s.holding with
    | none => s
    | some data =>
      let s := { s with holding := none }
      match s.task with
      | .ended => { s with samples := s.samples ++ [(data, .closed)] }
      | _ =>
        if s.queue.length < 8 then
          { s with
            samples := s.samples ++ [(data, .queued)]
            accepted := s.accepted ++ [data]
            queue := s.queue ++ [data] }
        else
          { s with
            samples := s.samples ++ [(data, .full)]
            queueDrops := s.queueDrops.record () now none }
  | .dispose =>
    if s.holding = none then
      { s with callbackTx := false, queueDrops := s.queueDrops.drop [()] }
    else s
  | .recv now =>
    match s.task, s.queue with
    | .receiving, data :: rest => { s with queue := rest }.handle lib data now
    | .receiving, [] => if s.ownTx ∨ s.callbackTx then s else s.endTask
    | _, _ => s
  | .wake now =>
    match s.task with
    | .sleeping data packet target =>
      if target ≤ now then
        { s with task := .writing data packet, writes := s.writes ++ [(packet, now)] }
      else s
    | _ => s
  | .writeDone ok now =>
    match s.task with
    | .writing data _ =>
      if ok then { s.settle data .written now with packetCount := s.packetCount + 1 }
      else s.settle data .writeFailed now
    | _ => s
  | .cancel =>
    if s.aborted then
      match s.task with
      | .receiving => s.endTask
      | .sleeping data _ _ | .writing data _ =>
        { s with outcomes := s.outcomes ++ [(data, RtpOutcome.abandoned)] }.endTask
      | .ended => s
    else s
  | .busCheck =>
    match s.bus with
    | .looping => if s.busRunning then { s with bus := .popping } else s.endBus
    | _ => s
  | .busPop message now =>
    match s.bus with
    | .popping =>
      match message with
      | some .error => { s with bus := .stopPlaying, failed := true }
      | some (.warning code) =>
        { s with bus := .looping, warnings := s.warnings.record () now (some code) }
      | some .eos => s.endBus
      | some .other | none => { s with bus := .looping }
    | _ => s
  | .busFail stateChanged =>
    match s.bus with
    | .stopPlaying => { s with isPlaying := false, bus := .stopRunning }
    | .stopRunning => { s with busRunning := false, bus := .abortSender }
    | .abortSender => { s with aborted := true, bus := .setNull }
    | .setNull => { s with pipeline := if stateChanged then .null else s.pipeline }.endBus
    | _ => s
  | .play =>
    match s.owner with
    | .idle =>
      if s.busRunning then { s with owner := .playStore }
      else { s with plays := s.plays ++ [.error "Audio sender has stopped"] }
    | _ => s
  | .pause stateChanged =>
    match s.owner with
    | .idle => if stateChanged then { s with pipeline := .paused, owner := .pauseStore } else s
    | _ => s
  | .playNext stateChanged =>
    match s.owner with
    | .playStore => { s with isPlaying := true, owner := .playState }
    | .playState =>
      if stateChanged then { s with pipeline := .playing, owner := .playCheck }
      else
        { s with
          isPlaying := false
          owner := .idle
          plays := s.plays ++ [.error "Failed to set audio pipeline to Playing state"] }
    | .playCheck =>
      { s with
        owner := .idle
        plays := s.plays ++
          [if s.busRunning then .ok () else .error "Audio sender failed during playback startup"] }
    | .pauseStore => { s with isPlaying := false, owner := .idle }
    | _ => s
  | .stop =>
    match s.owner with
    | .idle => { s with owner := .stopPlaying false }
    | _ => s
  | .shutdown =>
    match s.owner with
    | .idle => { s with owner := .stopPlaying true }
    | _ => s
  | .shutdownNext stateChanged =>
    match s.owner with
    | .stopPlaying wait => { s with isPlaying := false, owner := .stopRunning wait }
    | .stopRunning wait => { s with busRunning := false, owner := .dropSender wait }
    | .dropSender wait => { s with ownTx := false, owner := .abortTask wait }
    | .abortTask wait =>
      let s := { s with aborted := true }
      if s.nativeShutdown then s.finishes wait (.ok ())
      else { s with nativeShutdown := true, owner := .setNull wait }
    | .setNull wait =>
      if stateChanged then { s with pipeline := .null, owner := .joinBus wait (.ok ()) }
      else { s with owner := .joinBus wait (.error "Failed to stop audio pipeline") }
    | .joinBus wait result =>
      match s.bus with
      | .ended => s.finishes wait result
      | _ => s
    | .joinTask result =>
      match s.task with
      | .ended => { s with owner := .done result }
      | _ => s
    | _ => s

/-- `AudioSender::new`. -/
def init : SenderThreads ρ :=
  { isPlaying := false, busRunning := true, pipeline := .null, packetCount := 0, queue := []
    ownTx := true, callbackTx := true, holding := none
    queueDrops := .new fun _ => ("audio_rtp_queue_drop", "full")
    task := .receiving, aborted := false, firstTimestamp := none, playbackStart := none
    taskLogs := .new SenderLog.name, bus := .looping, failed := false
    warnings := .new fun _ => ("audio_sender_gst_warning", "pipeline_warning")
    owner := .idle, nativeShutdown := false, samples := [], accepted := [], outcomes := []
    writes := [], plays := [] }

/-! ### The way of a packet -/

/-- The packet that the task has taken. -/
def inHand : RtpStage ρ → List (List UInt8)
  | .sleeping data _ _ | .writing data _ => [data]
  | _ => []

/-- The packets that were parsed and not written. -/
def Late (late : List ρ) : RtpStage ρ → Prop
  | .sleeping _ packet _ => late = [packet]
  | .ended => late.length ≤ 1
  | _ => late = []

/-- What the stage of the task says of its packet. -/
def Due (lib : RtpCrate ρ) (s : SenderThreads ρ) : RtpStage ρ → Prop
  | .sleeping data packet target => lib.unmarshal data = some packet ∧
      ∃ baseTimestamp baseInstant, s.firstTimestamp = some baseTimestamp ∧
        s.playbackStart = some baseInstant ∧
        target = baseInstant + rtpDelay (lib.timestamp packet - baseTimestamp)
  | .writing data packet => lib.unmarshal data = some packet
  | _ => True

/-- Each call after the first one is at or after the time that the timestamps say. -/
def Paced (lib : RtpCrate ρ) : List (ρ × ℕ) → Prop
  | [] => True
  | (first, start) :: rest =>
    ∀ w ∈ rest, start + rtpDelay (lib.timestamp w.1 - lib.timestamp first) ≤ w.2

/-- The clock of the task is the first call, or not set. -/
def Clocked (lib : RtpCrate ρ) (s : SenderThreads ρ) : Prop :=
  match s.writes with
  | [] => s.firstTimestamp = none ∧ s.playbackStart = none
  | (first, start) :: _ =>
    s.firstTimestamp = some (lib.timestamp first) ∧ s.playbackStart = some start

/-- Samples, the channel, the task and its logs agree. -/
structure Flow (lib : RtpCrate ρ) (s : SenderThreads ρ) : Prop where
  fates : s.accepted = (s.samples.filter fun x => x.2 = .queued).map Prod.fst
  order : s.accepted = s.outcomes.map Prod.fst ++ inHand s.task ++ s.queue
  room : s.queue.length ≤ 8
  parsed : ∃ late, (s.outcomes.map Prod.fst ++ inHand s.task).filterMap lib.unmarshal =
    s.writes.map Prod.fst ++ late ∧ Late late s.task
  due : Due lib s s.task
  paced : Paced lib s.writes
  clocked : Clocked lib s
  count : s.packetCount = UInt64.ofNat (s.outcomes.countP fun o => o.2 = .written)
  balanced : s.taskLogs.Balanced
  label : s.taskLogs.label = 0
  recorded : s.taskLogs.recorded =
    s.outcomes.filterMap fun o => o.2.failure.map fun log => (log, 0)
  settled : s.task = .ended → ∀ log, s.taskLogs.waiting log 0 = 0
  dropsBalanced : s.queueDrops.Balanced
  dropsLabel : s.queueDrops.label = 0
  dropsRecorded : s.queueDrops.recorded =
    s.samples.filterMap fun x => x.2.failure.map fun i => (i, 0)
  warned : s.warnings.Balanced
  warnedAll : s.bus = .ended → s.warnings.waiting () 0 = 0

variable {lib : RtpCrate ρ} {s : SenderThreads ρ}

/-- The copy of the streaming thread gets its fate. -/
theorem forward_flow (h : s.Flow lib) (now : ℕ) : (s.step lib (.forward now)).Flow lib := by
  simp only [step]
  split
  · exact h
  next data _ =>
    split
    · exact { h with
        fates := by simpa using h.fates
        dropsRecorded := by simpa [SampleFate.failure] using h.dropsRecorded }
    split
    next hroom =>
      exact { h with
        fates := by simpa using h.fates
        order := by
          rw [h.order]
          simp
        room := by
          rw [List.length_append, List.length_singleton]
          exact hroom
        dropsRecorded := by simpa [SampleFate.failure] using h.dropsRecorded }
    · exact { h with
        fates := by simpa using h.fates
        dropsBalanced := Tally.balanced_record h.dropsBalanced _ _ _
        dropsLabel := h.dropsLabel
        dropsRecorded := by
          simp [Tally.record, RepeatLog.Op.records, SampleFate.failure, h.dropsRecorded,
            h.dropsLabel] }

theorem dispose_flow (h : s.Flow lib) : (s.step lib .dispose).Flow lib := by
  simp only [step]
  split
  · exact { h with
      dropsBalanced := Tally.balanced_drop h.dropsBalanced
      dropsLabel := Tally.drop_label.trans h.dropsLabel
      dropsRecorded := (Tally.drop_recorded h.dropsBalanced).trans h.dropsRecorded }
  · exact h

/-- The task ends; what it has not written is at most one packet. -/
theorem Flow.endTask (h : s.Flow lib) (hhand : inHand s.task = []) : s.endTask.Flow lib := by
  obtain ⟨late, hparsed, hlate⟩ := h.parsed
  have horder := h.order
  rw [hhand] at horder hparsed
  refine { h with
    order := horder
    parsed := ⟨late, hparsed, ?_⟩
    due := trivial
    balanced := Tally.balanced_drop h.balanced
    label := Tally.drop_label.trans h.label
    recorded := (Tally.drop_recorded h.balanced).trans h.recorded
    settled := fun _ log => Tally.drop_waiting h.balanced SenderLog.mem_order log 0 }
  show late.length ≤ 1
  cases htask : s.task with
  | sleeping | writing =>
    rw [htask] at hhand
    exact absurd hhand (by simp [inHand])
  | receiving =>
    rw [htask] at hlate
    rw [show late = [] from hlate]
    exact Nat.zero_le 1
  | ended =>
    rw [htask] at hlate
    exact hlate

/-- The task is done with the packet it has taken. -/
theorem settle_flow (h : s.Flow lib) {data : List UInt8} {queue : List (List UInt8)}
    (horder : s.accepted = s.outcomes.map Prod.fst ++ [data] ++ queue) (hroom : queue.length ≤ 8)
    (hparsed : (s.outcomes.map Prod.fst ++ [data]).filterMap lib.unmarshal =
      s.writes.map Prod.fst)
    (outcome : RtpOutcome) (now : ℕ) {packetCount : UInt64}
    (hcount : packetCount = s.packetCount + UInt64.ofNat (if outcome = .written then 1 else 0)) :
    ({ s with queue, packetCount }.settle data outcome now).Flow lib := by
  refine { h with
    order := by simpa [settle, inHand] using horder
    room := hroom
    parsed := ⟨[], by simpa [settle, inHand] using hparsed, rfl⟩
    due := trivial
    count := ?_
    balanced := ?_
    label := ?_
    recorded := ?_
    settled := fun hended => absurd hended (by simp [settle]) }
  · simp only [settle, List.countP_append, UInt64.ofNat_add, ← h.count, hcount]
    cases outcome <;> rfl
  · rw [settle]
    rcases outcome.failure with _ | log
    · exact h.balanced
    · exact Tally.balanced_record h.balanced log now none
  · rw [settle]
    rcases outcome.failure with _ | log <;> exact h.label
  · rcases hfailure : outcome.failure with _ | log
    · simp [settle, hfailure, h.recorded]
    · simp [settle, hfailure, h.recorded, h.label, Tally.record, RepeatLog.Op.records]

theorem Flow.receiving (h : s.Flow lib) (htask : s.task = .receiving) :
    s.accepted = s.outcomes.map Prod.fst ++ s.queue ∧
      (s.outcomes.map Prod.fst).filterMap lib.unmarshal = s.writes.map Prod.fst := by
  obtain ⟨late, hparsed, hlate⟩ := h.parsed
  have horder := h.order
  rw [htask, show inHand (.receiving : RtpStage ρ) = [] from rfl, List.append_nil] at horder hparsed
  rw [htask] at hlate
  rw [show late = [] from hlate, List.append_nil] at hparsed
  exact ⟨horder, hparsed⟩

/-- A call of `write_rtp` with a packet that is due. -/
theorem Flow.write (h : s.Flow lib) {data : List UInt8} {packet : ρ} {now : ℕ}
    {queue : List (List UInt8)}
    (horder : s.accepted = s.outcomes.map Prod.fst ++ [data] ++ queue) (hroom : queue.length ≤ 8)
    (hparsed : (s.outcomes.map Prod.fst ++ [data]).filterMap lib.unmarshal =
      s.writes.map Prod.fst ++ [packet])
    (hpacket : lib.unmarshal data = some packet)
    (hdue : ∀ first start rest, s.writes = (first, start) :: rest →
      start + rtpDelay (lib.timestamp packet - lib.timestamp first) ≤ now)
    (firstTimestamp : Option UInt32) (playbackStart : Option ℕ)
    (hclock : Clocked lib { s with firstTimestamp, playbackStart,
                                   writes := s.writes ++ [(packet, now)] }) :
    ({ s with
        queue, firstTimestamp, playbackStart, task := .writing data packet
        writes := s.writes ++ [(packet, now)] } : SenderThreads ρ).Flow lib := by
  refine { h with
    order := horder
    room := hroom
    parsed := ⟨[], ?_, rfl⟩
    due := hpacket
    paced := ?_
    clocked := hclock
    settled := fun hended => absurd hended (by simp) }
  · rw [List.append_nil, List.map_append]
    exact hparsed
  have hpaced := h.paced
  dsimp only
  rcases hwrites : s.writes with _ | ⟨⟨first, start⟩, rest⟩
  · simp [Paced]
  · rw [hwrites] at hpaced
    intro w hw
    rcases List.mem_append.mp hw with hw | hw
    · exact hpaced w hw
    · rw [List.mem_singleton.mp hw]
      exact hdue first start rest hwrites

theorem Clocked.cases (h : Clocked lib s) :
    s.writes = [] ∧ s.firstTimestamp = none ∧ s.playbackStart = none ∨
      ∃ first start rest, s.writes = (first, start) :: rest ∧
        s.firstTimestamp = some (lib.timestamp first) ∧ s.playbackStart = some start := by
  rw [Clocked.eq_def] at h
  split at h
  next hwrites => exact .inl ⟨hwrites, h⟩
  next first start rest hwrites => exact .inr ⟨first, start, rest, hwrites, h⟩

theorem handle_flow (h : s.Flow lib) {data : List UInt8} {rest : List (List UInt8)}
    (htask : s.task = .receiving) (hqueue : s.queue = data :: rest) (now : ℕ) :
    ({ s with queue := rest }.handle lib data now).Flow lib := by
  obtain ⟨horder, hparsed⟩ := h.receiving htask
  have hroom := h.room
  rw [hqueue, List.length_cons] at hroom
  have horder' : s.accepted = s.outcomes.map Prod.fst ++ [data] ++ rest := by
    rw [horder, hqueue]
    simp
  rw [handle]
  split
  next hinvalid =>
    refine settle_flow h horder' (by omega) ?_ .invalid now (by simp)
    rw [List.filterMap_append, hparsed]
    simp [hinvalid]
  next packet hpacket =>
    have hparsed' : (s.outcomes.map Prod.fst ++ [data]).filterMap lib.unmarshal =
        s.writes.map Prod.fst ++ [packet] := by
      rw [List.filterMap_append, hparsed]
      simp [hpacket]
    have hroom' : rest.length ≤ 8 := by omega
    obtain ⟨hwrites, hfirst, hstart⟩ | ⟨first, start, later, hwrites, hfirst, hstart⟩ :=
      h.clocked.cases
    · -- the first packet starts the clock
      have hgoes := h.write horder' hroom' hparsed' hpacket
        (fun first start later hmore => absurd (hwrites.symm.trans hmore) (by simp))
        (some (lib.timestamp packet)) (some now) (by rw [Clocked, hwrites]; exact ⟨rfl, rfl⟩)
      simpa only [hfirst, hstart] using hgoes
    · have hwaits : ({ s with
          queue := rest
          task := .sleeping data packet
            (start + rtpDelay (lib.timestamp packet - lib.timestamp first)) } :
          SenderThreads ρ).Flow lib := { h with
        order := horder'
        room := hroom'
        parsed := ⟨[packet], hparsed', rfl⟩
        due := ⟨hpacket, _, _, hfirst, hstart, rfl⟩
        settled := fun hended => absurd hended (by simp) }
      simpa only [hfirst, hstart] using hwaits

theorem wake_flow (h : s.Flow lib) (now : ℕ) : (s.step lib (.wake now)).Flow lib := by
  simp only [step]
  split
  swap
  · exact h
  next data packet target htask =>
    split
    swap
    · exact h
    next htarget =>
      obtain ⟨late, hparsed, hlate⟩ := h.parsed
      have horder := h.order
      have hdue := h.due
      rw [htask] at horder hparsed hlate hdue
      rw [show late = [packet] from hlate] at hparsed
      obtain ⟨hpacket, baseTimestamp, baseInstant, hfirst, hstart, rfl⟩ := hdue
      obtain ⟨-, hnone, -⟩ | ⟨first, start, later, hwrites, hfirst', hstart'⟩ := h.clocked.cases
      · exact absurd (hfirst.symm.trans hnone) (by simp)
      obtain rfl := Option.some_inj.mp (hfirst.symm.trans hfirst')
      obtain rfl := Option.some_inj.mp (hstart.symm.trans hstart')
      refine h.write horder h.room hparsed hpacket (fun first' start' later' hwrites' => ?_) _ _ ?_
      · obtain ⟨hpair, -⟩ := List.cons.inj (hwrites.symm.trans hwrites')
        obtain ⟨rfl, rfl⟩ := Prod.mk.inj hpair
        exact htarget
      · rw [Clocked, hwrites]
        exact ⟨hfirst, hstart⟩

theorem Flow.writing (h : s.Flow lib) {data : List UInt8} {packet : ρ}
    (htask : s.task = .writing data packet) :
    s.accepted = s.outcomes.map Prod.fst ++ [data] ++ s.queue ∧
      (s.outcomes.map Prod.fst ++ [data]).filterMap lib.unmarshal = s.writes.map Prod.fst := by
  obtain ⟨late, hparsed, hlate⟩ := h.parsed
  have horder := h.order
  rw [htask] at horder hparsed hlate
  rw [show late = [] from hlate, List.append_nil] at hparsed
  exact ⟨horder, hparsed⟩

theorem writeDone_flow (h : s.Flow lib) (ok : Bool) (now : ℕ) :
    (s.step lib (.writeDone ok now)).Flow lib := by
  simp only [step]
  split
  next data packet htask =>
    obtain ⟨horder, hparsed⟩ := h.writing htask
    split
    · exact settle_flow h horder h.room hparsed .written now rfl
    · exact settle_flow h horder h.room hparsed .writeFailed now (by simp)
  next => exact h

/-- The task is dropped with a packet. -/
theorem Flow.abandon (h : s.Flow lib) {data : List UInt8} (hhand : inHand s.task = [data])
    (hlate : ∀ late, Late late s.task → late.length ≤ 1) :
    ({ s with outcomes := s.outcomes ++ [(data, RtpOutcome.abandoned)] }.endTask).Flow lib := by
  obtain ⟨late, hparsed, hin⟩ := h.parsed
  have horder := h.order
  rw [hhand] at horder hparsed
  have hrecorded : s.taskLogs.recorded = (s.outcomes ++ [(data, RtpOutcome.abandoned)]).filterMap
      fun o => o.2.failure.map fun log => (log, 0) := by
    simpa [RtpOutcome.failure] using h.recorded
  have hcount : s.packetCount = UInt64.ofNat ((s.outcomes ++ [(data, RtpOutcome.abandoned)]).countP
      fun o => o.2 = .written) := by
    simpa using h.count
  have htaken : (s.outcomes ++ [(data, RtpOutcome.abandoned)]).map Prod.fst ++ [] =
      s.outcomes.map Prod.fst ++ [data] := by simp
  exact { h with
    order := horder.trans (congrArg (· ++ s.queue) htaken.symm)
    parsed := ⟨late, (congrArg (List.filterMap lib.unmarshal) htaken).trans hparsed,
      hlate late hin⟩
    due := trivial
    count := hcount
    balanced := Tally.balanced_drop h.balanced
    label := Tally.drop_label.trans h.label
    recorded := (Tally.drop_recorded h.balanced).trans hrecorded
    settled := fun _ log => Tally.drop_waiting h.balanced SenderLog.mem_order log 0 }

theorem cancel_flow (h : s.Flow lib) : (s.step lib .cancel).Flow lib := by
  simp only [step]
  split
  swap
  · exact h
  split
  next htask => exact h.endTask (by rw [htask]; rfl)
  next data packet target htask =>
    refine h.abandon (by rw [htask]; rfl) fun late hlate => ?_
    rw [htask] at hlate
    rw [show late = [packet] from hlate]
    rfl
  next data packet htask =>
    refine h.abandon (by rw [htask]; rfl) fun late hlate => ?_
    rw [htask] at hlate
    rw [show late = [] from hlate]
    exact Nat.zero_le 1
  next => exact h

theorem recv_flow (h : s.Flow lib) (now : ℕ) : (s.step lib (.recv now)).Flow lib := by
  simp only [step]
  split
  next data rest htask hqueue => exact handle_flow h htask hqueue now
  next htask _ =>
    split
    · exact h
    · exact h.endTask (by rw [htask]; rfl)
  next => exact h

theorem Flow.endBus (h : s.Flow lib) : s.endBus.Flow lib :=
  { h with
    warned := Tally.balanced_drop h.warned
    warnedAll := fun _ => Tally.drop_waiting h.warned (by simp) () 0 }

theorem busCheck_flow (h : s.Flow lib) : (s.step lib .busCheck).Flow lib := by
  simp only [step]
  split
  · split
    · exact { h with warnedAll := fun hended => absurd hended (by simp) }
    · exact h.endBus
  · exact h

theorem busPop_flow (h : s.Flow lib) (message : Option AudioBusMessage) (now : ℕ) :
    (s.step lib (.busPop message now)).Flow lib := by
  simp only [step]
  split
  · split
    · exact { h with warnedAll := fun hended => absurd hended (by simp) }
    · exact { h with
        warned := Tally.balanced_record h.warned _ _ _
        warnedAll := fun hended => absurd hended (by simp) }
    · exact h.endBus
    all_goals exact { h with warnedAll := fun hended => absurd hended (by simp) }
  · exact h

theorem busFail_flow (h : s.Flow lib) (stateChanged : Bool) :
    (s.step lib (.busFail stateChanged)).Flow lib := by
  simp only [step]
  split
  · exact { h with warnedAll := fun hended => absurd hended (by simp) }
  · exact { h with warnedAll := fun hended => absurd hended (by simp) }
  · exact { h with warnedAll := fun hended => absurd hended (by simp) }
  · have hnull : ({ s with
        pipeline := if stateChanged then .null else s.pipeline } : SenderThreads ρ).Flow lib :=
      { h with }
    exact hnull.endBus
  · exact h

theorem step_flow (h : s.Flow lib) (a : Action) : (s.step lib a).Flow lib := by
  cases a with
  | forward now => exact forward_flow h now
  | dispose => exact dispose_flow h
  | recv now => exact recv_flow h now
  | wake now => exact wake_flow h now
  | writeDone ok now => exact writeDone_flow h ok now
  | cancel => exact cancel_flow h
  | busCheck => exact busCheck_flow h
  | busPop message now => exact busPop_flow h message now
  | busFail stateChanged => exact busFail_flow h stateChanged
  | sample | play | playNext | pause | stop | shutdown | shutdownNext =>
    simp only [step, finishes]
    repeat' split
    all_goals exact { h with }

theorem init_flow (lib : RtpCrate ρ) : (init : SenderThreads ρ).Flow lib where
  fates := rfl
  order := rfl
  room := Nat.zero_le _
  parsed := ⟨[], rfl, rfl⟩
  due := trivial
  paced := trivial
  clocked := ⟨rfl, rfl⟩
  count := rfl
  balanced := Tally.balanced_new _
  label := rfl
  recorded := rfl
  settled h := absurd h (by simp [init])
  dropsBalanced := Tally.balanced_new _
  dropsLabel := rfl
  dropsRecorded := rfl
  warned := Tally.balanced_new _
  warnedAll h := absurd h (by simp [init])

/-! ### Flags and stages -/

/-- What the stage of the owner says. -/
def Owned (s : SenderThreads ρ) : SenderStage → Prop
  | .idle | .pauseStore | .stopPlaying _ => True
  | .playStore | .playState | .playCheck => s.nativeShutdown = false
  | .stopRunning _ => s.isPlaying = false
  | .dropSender _ => s.isPlaying = false ∧ s.busRunning = false
  | .abortTask _ => s.isPlaying = false ∧ s.busRunning = false ∧ s.ownTx = false
  | .setNull _ => s.aborted = true ∧ s.isPlaying = false
  | .joinBus _ result =>
    s.aborted = true ∧ s.isPlaying = false ∧ (result = .ok () → s.pipeline = .null)
  | .joinTask _ => s.aborted = true ∧ s.bus = .ended ∧ s.isPlaying = false
  | .done _ => s.bus = .ended ∧ s.task = .ended ∧ s.isPlaying = false

/-- What the stage of the bus worker says. -/
def Watched (s : SenderThreads ρ) : BusStage → Prop
  | .looping | .popping => s.failed = false
  | .stopPlaying | .stopRunning => True
  | .abortSender => s.busRunning = false
  | .setNull => s.busRunning = false ∧ s.aborted = true
  | .ended => s.failed = true → s.busRunning = false ∧ s.aborted = true

structure Control (s : SenderThreads ρ) : Prop where
  owned : Owned s s.owner
  watched : Watched s s.bus
  /-- The pipeline is stopped at most once, and then for good. -/
  stopped : s.nativeShutdown = true → s.isPlaying = false ∧ s.busRunning = false ∧
    s.aborted = true ∧
      (s.bus = .ended ∨ (∃ wait, s.owner = .setNull wait) ∨ ∃ wait r, s.owner = .joinBus wait r)

/-- The flags have gone down, and what was over is over. -/
structure Lowers (s s' : SenderThreads ρ) : Prop where
  isPlaying : s.isPlaying = false → s'.isPlaying = false
  busRunning : s.busRunning = false → s'.busRunning = false
  ownTx : s.ownTx = false → s'.ownTx = false
  aborted : s.aborted = true → s'.aborted = true
  pipeline : s.pipeline = .null → s'.pipeline = .null
  bus : s.bus = .ended → s'.bus = .ended
  task : s.task = .ended → s'.task = .ended
  nativeShutdown : s'.nativeShutdown = s.nativeShutdown

theorem Owned.lowers {s' : SenderThreads ρ} (hlow : Lowers s s') {stage : SenderStage}
    (h : Owned s stage) : Owned s' stage := by
  cases stage with
  | idle | pauseStore | stopPlaying => trivial
  | playStore | playState | playCheck => exact hlow.nativeShutdown.trans h
  | stopRunning => exact hlow.isPlaying h
  | dropSender => exact ⟨hlow.isPlaying h.1, hlow.busRunning h.2⟩
  | abortTask => exact ⟨hlow.isPlaying h.1, hlow.busRunning h.2.1, hlow.ownTx h.2.2⟩
  | setNull => exact ⟨hlow.aborted h.1, hlow.isPlaying h.2⟩
  | joinBus =>
    exact ⟨hlow.aborted h.1, hlow.isPlaying h.2.1, fun hok => hlow.pipeline (h.2.2 hok)⟩
  | joinTask => exact ⟨hlow.aborted h.1, hlow.bus h.2.1, hlow.isPlaying h.2.2⟩
  | done => exact ⟨hlow.bus h.1, hlow.task h.2.1, hlow.isPlaying h.2.2⟩

/-- A step of another thread than the owner. -/
theorem Control.lowers (h : s.Control) {s' : SenderThreads ρ} (hlow : Lowers s s')
    (howner : s'.owner = s.owner) (hwatched : Watched s' s'.bus) : s'.Control := by
  refine ⟨?_, hwatched, fun hnative => ?_⟩
  · rw [howner]
    exact h.owned.lowers hlow
  · obtain ⟨hplaying, hrunning, haborted, hstage⟩ :=
      h.stopped (hlow.nativeShutdown.symm.trans hnative)
    rw [howner]
    exact ⟨hlow.isPlaying hplaying, hlow.busRunning hrunning, hlow.aborted haborted,
      hstage.imp hlow.bus id⟩

/-- The steps of the streaming thread and of the task leave the flags alone. -/
theorem Control.elsewhere (h : s.Control) {s' : SenderThreads ρ}
    (hplaying : s'.isPlaying = s.isPlaying) (hrunning : s'.busRunning = s.busRunning)
    (htx : s'.ownTx = s.ownTx) (haborted : s'.aborted = s.aborted)
    (hpipeline : s'.pipeline = s.pipeline) (hbus : s'.bus = s.bus)
    (hfailed : s'.failed = s.failed) (howner : s'.owner = s.owner)
    (hnative : s'.nativeShutdown = s.nativeShutdown) (htask : s.task = .ended → s'.task = .ended) :
    s'.Control := by
  refine h.lowers ⟨hplaying.trans, hrunning.trans, htx.trans, haborted.trans, hpipeline.trans,
    hbus.trans, htask, hnative⟩ howner ?_
  have hwatched := h.watched
  rw [hbus]
  cases hstage : s.bus <;> rw [hstage] at hwatched <;> simp_all [Watched]

theorem task_control (h : s.Control) (a : Action)
    (ha : (∃ data, a = .sample data) ∨ (∃ now, a = .forward now) ∨ a = .dispose ∨
      (∃ now, a = .recv now) ∨ (∃ now, a = .wake now) ∨ (∃ ok now, a = .writeDone ok now) ∨
      a = .cancel) : (s.step lib a).Control := by
  rcases ha with ⟨_, rfl⟩ | ⟨_, rfl⟩ | rfl | ⟨_, rfl⟩ | ⟨_, rfl⟩ | ⟨_, _, rfl⟩ | rfl
  all_goals
    simp only [step, handle, settle, endTask]
    repeat' split
    all_goals
      first
      | exact h
      | exact h.elsewhere rfl rfl rfl rfl rfl rfl rfl rfl rfl (by simp_all)

theorem busCheck_control (h : s.Control) : (s.step lib .busCheck).Control := by
  have hwatched := h.watched
  simp only [step]
  split
  next hbus =>
    rw [hbus] at hwatched
    split
    · refine h.lowers ⟨id, id, id, id, id, fun hend => ?_, id, rfl⟩ rfl hwatched
      exact absurd (hbus.symm.trans hend) (by simp)
    · exact h.lowers ⟨id, id, id, id, id, fun _ => rfl, id, rfl⟩ rfl
        fun hfailed => absurd (hwatched.symm.trans hfailed) (by simp)
  next => exact h

theorem busPop_control (h : s.Control) (message : Option AudioBusMessage) (now : ℕ) :
    (s.step lib (.busPop message now)).Control := by
  have hwatched := h.watched
  simp only [step]
  split
  next hbus =>
    rw [hbus] at hwatched
    have hnot : s.bus = .ended → False := fun hend => absurd (hbus.symm.trans hend) (by simp)
    split
    · exact h.lowers ⟨id, id, id, id, id, fun hend => (hnot hend).elim, id, rfl⟩ rfl trivial
    · exact h.lowers ⟨id, id, id, id, id, fun hend => (hnot hend).elim, id, rfl⟩ rfl hwatched
    · exact h.lowers ⟨id, id, id, id, id, fun hend => (hnot hend).elim, id, rfl⟩ rfl
        fun hfailed => absurd (hwatched.symm.trans hfailed) (by simp)
    · exact h.lowers ⟨id, id, id, id, id, fun hend => (hnot hend).elim, id, rfl⟩ rfl hwatched
    · exact h.lowers ⟨id, id, id, id, id, fun hend => (hnot hend).elim, id, rfl⟩ rfl hwatched
  next => exact h

/-- What the bus worker does after an error. -/
theorem busFail_control (h : s.Control) (stateChanged : Bool) :
    (s.step lib (.busFail stateChanged)).Control := by
  have hwatched := h.watched
  simp only [step]
  split
  next hbus =>
    refine h.lowers ⟨fun _ => rfl, id, id, id, id, fun hend => ?_, id, rfl⟩ rfl trivial
    exact absurd (hbus.symm.trans hend) (by simp)
  next hbus =>
    refine h.lowers ⟨id, fun _ => rfl, id, id, id, fun hend => ?_, id, rfl⟩ rfl rfl
    exact absurd (hbus.symm.trans hend) (by simp)
  next hbus =>
    rw [hbus] at hwatched
    refine h.lowers ⟨id, id, id, fun _ => rfl, id, fun hend => ?_, id, rfl⟩ rfl ⟨hwatched, rfl⟩
    exact absurd (hbus.symm.trans hend) (by simp)
  next hbus =>
    rw [hbus] at hwatched
    refine h.lowers ⟨id, id, id, id, fun hnull => ?_, fun _ => rfl, id, rfl⟩ rfl fun _ => hwatched
    cases stateChanged with
    | true => rfl
    | false => exact hnull
  next => exact h

/-- The owner alone moves, and lowers flags at most. -/
theorem Control.moves (h : s.Control) {s' : SenderThreads ρ} (hlow : Lowers s s')
    (hbus : s'.bus = s.bus) (hfailed : s'.failed = s.failed) (howned : Owned s' s'.owner)
    (hfrom : (∀ wait, s.owner ≠ .setNull wait) ∧ (∀ wait r, s.owner ≠ .joinBus wait r) ∨
      s.bus = .ended ∨ (∃ wait, s'.owner = .setNull wait) ∨
        ∃ wait r, s'.owner = .joinBus wait r) : s'.Control := by
  refine ⟨howned, ?_, fun hnative => ?_⟩
  · have hwatched := h.watched
    rw [hbus]
    cases hstage : s.bus with
    | looping | popping =>
      rw [hstage] at hwatched
      exact hfailed.trans hwatched
    | stopPlaying | stopRunning => trivial
    | abortSender =>
      rw [hstage] at hwatched
      exact hlow.busRunning hwatched
    | setNull =>
      rw [hstage] at hwatched
      exact ⟨hlow.busRunning hwatched.1, hlow.aborted hwatched.2⟩
    | ended =>
      rw [hstage] at hwatched
      intro hf
      obtain ⟨hrunning, haborted⟩ := hwatched (hfailed.symm.trans hf)
      exact ⟨hlow.busRunning hrunning, hlow.aborted haborted⟩
  · obtain ⟨hplaying, hrunning, haborted, hstage⟩ :=
      h.stopped (hlow.nativeShutdown.symm.trans hnative)
    refine ⟨hlow.isPlaying hplaying, hlow.busRunning hrunning, hlow.aborted haborted, ?_⟩
    rcases hfrom with ⟨hsetNull, hjoinBus⟩ | hended | hto
    · rcases hstage with hended | ⟨wait, hw⟩ | ⟨wait, r, hw⟩
      · exact .inl (hbus.trans hended)
      · exact absurd hw (hsetNull wait)
      · exact absurd hw (hjoinBus wait r)
    · exact .inl (hbus.trans hended)
    · exact .inr hto

theorem shutdownNext_control (h : s.Control) (stateChanged : Bool) :
    (s.step lib (.shutdownNext stateChanged)).Control := by
  have howned := h.owned
  simp only [step]
  split
  next wait howner =>
    exact h.moves ⟨fun _ => rfl, id, id, id, id, id, id, rfl⟩ rfl rfl rfl
      (.inl ⟨by simp [howner], by simp [howner]⟩)
  next wait howner =>
    rw [howner] at howned
    exact h.moves ⟨id, fun _ => rfl, id, id, id, id, id, rfl⟩ rfl rfl ⟨howned, rfl⟩
      (.inl ⟨by simp [howner], by simp [howner]⟩)
  next wait howner =>
    rw [howner] at howned
    exact h.moves ⟨id, id, fun _ => rfl, id, id, id, id, rfl⟩ rfl rfl ⟨howned.1, howned.2, rfl⟩
      (.inl ⟨by simp [howner], by simp [howner]⟩)
  next wait howner =>
    rw [howner] at howned
    obtain ⟨hplaying, hrunning, -⟩ := howned
    split
    next hnative =>
      obtain ⟨-, -, -, hstage⟩ := h.stopped hnative
      have hended : s.bus = .ended := by
        rcases hstage with hended | ⟨_, hw⟩ | ⟨_, _, hw⟩
        · exact hended
        · exact absurd (howner.symm.trans hw) (by simp)
        · exact absurd (howner.symm.trans hw) (by simp)
      refine h.moves ⟨id, id, id, fun _ => rfl, id, id, id, rfl⟩ rfl rfl ?_ (.inr (.inl hended))
      rw [finishes]
      dsimp only
      split
      · exact ⟨rfl, hended, hplaying⟩
      · trivial
    next hnative =>
      refine ⟨⟨rfl, hplaying⟩, ?_, fun _ => ⟨hplaying, hrunning, rfl, .inr (.inl ⟨wait, rfl⟩)⟩⟩
      have hwatched := h.watched
      cases hstage : s.bus <;> rw [hstage] at hwatched <;> simp_all [Watched]
  next wait howner =>
    rw [howner] at howned
    split
    · exact h.moves ⟨id, id, id, id, fun _ => rfl, id, id, rfl⟩ rfl rfl
        ⟨howned.1, howned.2, fun _ => rfl⟩ (.inr (.inr (.inr ⟨_, _, rfl⟩)))
    · exact h.moves ⟨id, id, id, id, id, id, id, rfl⟩ rfl rfl
        ⟨howned.1, howned.2, fun hok => absurd hok (by simp)⟩ (.inr (.inr (.inr ⟨_, _, rfl⟩)))
  next wait result howner =>
    rw [howner] at howned
    split
    next hbus =>
      refine h.moves ⟨id, id, id, id, id, id, id, rfl⟩ rfl rfl ?_ (.inr (.inl hbus))
      rw [finishes]
      dsimp only
      split
      · exact ⟨howned.1, hbus, howned.2.1⟩
      · trivial
    next => exact h
  next result howner =>
    rw [howner] at howned
    split
    next htask =>
      exact h.moves ⟨id, id, id, id, id, id, id, rfl⟩ rfl rfl ⟨howned.2.1, htask, howned.2.2⟩
        (.inl ⟨by simp [howner], by simp [howner]⟩)
    next => exact h
  next => exact h

theorem play_control (h : s.Control) (a : Action)
    (ha : a = .play ∨ (∃ b, a = .playNext b) ∨ (∃ b, a = .pause b) ∨ a = .stop ∨ a = .shutdown) :
    (s.step lib a).Control := by
  have howned := h.owned
  have hwatched := h.watched
  have hstopped := h.stopped
  rcases ha with rfl | ⟨b, rfl⟩ | ⟨b, rfl⟩ | rfl | rfl
  · simp only [step]
    split
    next howner =>
      split
      next hrunning =>
        have hnot : s.nativeShutdown = false := by
          by_contra hne
          exact absurd ((hstopped (by simpa using hne)).2.1.symm.trans hrunning) (by simp)
        exact h.moves ⟨id, id, id, id, id, id, id, rfl⟩ rfl rfl hnot
          (.inl ⟨by simp [howner], by simp [howner]⟩)
      next => exact h.elsewhere rfl rfl rfl rfl rfl rfl rfl rfl rfl id
    next => exact h
  · simp only [step]
    split
    next howner =>
      rw [howner] at howned
      refine ⟨howned, ?_, fun hnative => absurd (howned.symm.trans hnative) (by simp)⟩
      cases hstage : s.bus <;> rw [hstage] at hwatched <;> exact hwatched
    next howner =>
      rw [howner] at howned
      split
      · refine ⟨howned, ?_, fun hnative => absurd (howned.symm.trans hnative) (by simp)⟩
        cases hstage : s.bus <;> rw [hstage] at hwatched <;> exact hwatched
      · exact h.moves ⟨fun _ => rfl, id, id, id, id, id, id, rfl⟩ rfl rfl trivial
          (.inl ⟨by simp [howner], by simp [howner]⟩)
    next howner =>
      exact h.moves ⟨id, id, id, id, id, id, id, rfl⟩ rfl rfl trivial
        (.inl ⟨by simp [howner], by simp [howner]⟩)
    next howner =>
      exact h.moves ⟨fun _ => rfl, id, id, id, id, id, id, rfl⟩ rfl rfl trivial
        (.inl ⟨by simp [howner], by simp [howner]⟩)
    next => exact h
  · simp only [step]
    split
    next howner =>
      split
      · refine ⟨trivial, ?_, fun hnative => ?_⟩
        · cases hstage : s.bus <;> rw [hstage] at hwatched <;> exact hwatched
        · obtain ⟨hplaying, hrunning, haborted, hstage⟩ := hstopped hnative
          rw [howner] at hstage
          exact ⟨hplaying, hrunning, haborted, .inl (by simpa using hstage)⟩
      · exact h
    next => exact h
  · simp only [step]
    split
    next howner =>
      exact h.moves ⟨id, id, id, id, id, id, id, rfl⟩ rfl rfl trivial
        (.inl ⟨by simp [howner], by simp [howner]⟩)
    next => exact h
  · simp only [step]
    split
    next howner =>
      exact h.moves ⟨id, id, id, id, id, id, id, rfl⟩ rfl rfl trivial
        (.inl ⟨by simp [howner], by simp [howner]⟩)
    next => exact h

theorem step_control (h : s.Control) (a : Action) : (s.step lib a).Control := by
  cases a with
  | sample | forward | dispose | recv | wake | writeDone | cancel =>
    exact task_control h _ (by simp)
  | busCheck => exact busCheck_control h
  | busPop message now => exact busPop_control h message now
  | busFail stateChanged => exact busFail_control h stateChanged
  | play | playNext | pause | stop | shutdown => exact play_control h _ (by simp)
  | shutdownNext stateChanged => exact shutdownNext_control h stateChanged

structure Inv (lib : RtpCrate ρ) (s : SenderThreads ρ) : Prop where
  flow : s.Flow lib
  control : s.Control

theorem step_inv (h : s.Inv lib) (a : Action) : (s.step lib a).Inv lib :=
  ⟨step_flow h.flow a, step_control h.control a⟩

theorem run_inv (lib : RtpCrate ρ) (as : List Action) :
    (Runs.run (step lib) (init : SenderThreads ρ) as).Inv lib :=
  Runs.run_invariant (I := Inv lib) (fun _ a h => step_inv h a) as
    ⟨init_flow lib, trivial, rfl, fun hnative => absurd hnative (by simp [init])⟩

/-! ### The sender as the session holds it -/

/-- What the session knows of the sender, until it awaits the task. -/
def held (s : SenderThreads ρ) : AudioSender where
  isPlaying := s.isPlaying
  busRunning := s.busRunning
  rtpTx := s.ownTx
  taskHandle := true
  taskAborted := s.aborted
  busHandle := !s.nativeShutdown
  nativeShutdown := s.nativeShutdown

theorem held_init : (init : SenderThreads ρ).held = .new true := rfl

/-- `play` with no other thread in between. -/
theorem play_held (lib : RtpCrate ρ) (howner : s.owner = .idle) (hrunning : s.busRunning = true)
    (started : Bool) :
    (Runs.run (step lib) s
      [.play, .playNext started, .playNext started, .playNext started]).held =
      s.held.play started := by
  cases started <;> simp [step, howner, hrunning, held, AudioSender.play]

/-- `take_native_shutdown` with no other thread in between; it hands out the pipeline and
the bus worker once. -/
theorem shutdown_takes (lib : RtpCrate ρ) (howner : s.owner = .idle) (b : Bool) :
    let s' := Runs.run (step lib) s
      [.shutdown, .shutdownNext b, .shutdownNext b, .shutdownNext b, .shutdownNext b]
    s'.held = s.held.takeNativeShutdown.1 ∧
      s'.owner = if s.held.takeNativeShutdown.2.isSome then .setNull true
        else .joinTask (.ok ()) := by
  cases hnative : s.nativeShutdown <;>
    simp [step, howner, hnative, held, AudioSender.takeNativeShutdown, finishes]

/-! ### Results -/

theorem Late.length {late : List ρ} {stage : RtpStage ρ} (h : Late late stage) :
    late.length ≤ 1 := by
  cases stage with
  | sleeping => rw [show late = _ from h]; rfl
  | ended => exact h
  | receiving | writing => rw [show late = [] from h]; exact Nat.zero_le 1

/-- A sender that was stopped does not play. -/
theorem step_plays (lib : RtpCrate ρ) (hrunning : s.busRunning = false) (a : Action) :
    (s.step lib a).busRunning = false ∧ ∃ new, (s.step lib a).plays = s.plays ++ new ∧
      ∀ r ∈ new, r ≠ .ok () := by
  cases a with
  | play =>
    simp only [step]
    split
    · rw [if_neg (by simp [hrunning])]
      exact ⟨hrunning, _, rfl, by simp⟩
    · exact ⟨hrunning, [], by simp, by simp⟩
  | playNext b =>
    simp only [step]
    split
    · exact ⟨hrunning, [], by simp, by simp⟩
    · split
      · exact ⟨hrunning, [], by simp, by simp⟩
      · exact ⟨hrunning, _, rfl, by simp⟩
    · exact ⟨hrunning, _, rfl, by simp [hrunning]⟩
    · exact ⟨hrunning, [], by simp, by simp⟩
    · exact ⟨hrunning, [], by simp, by simp⟩
  | sample | forward | dispose | recv | wake | writeDone | cancel | busCheck | busPop | busFail
  | pause | stop | shutdown | shutdownNext =>
    simp only [step, handle, settle, endTask, endBus, finishes]
    repeat' split
    all_goals exact ⟨by first | exact hrunning | rfl, [], by simp, by simp⟩

theorem run_plays (lib : RtpCrate ρ) (hrunning : s.busRunning = false) (as : List Action) :
    ∃ new, (Runs.run (step lib) s as).plays = s.plays ++ new ∧ ∀ r ∈ new, r ≠ .ok () := by
  have hinv : (Runs.run (step lib) s as).busRunning = false ∧
      ∃ new, (Runs.run (step lib) s as).plays = s.plays ++ new ∧ ∀ r ∈ new, r ≠ .ok () := by
    refine Runs.run_invariant
      (I := fun s' : SenderThreads ρ => s'.busRunning = false ∧
        ∃ new, s'.plays = s.plays ++ new ∧ ∀ r ∈ new, r ≠ .ok ())
      ?_ as ⟨hrunning, [], by simp, by simp⟩
    rintro s' a ⟨hrunning', new, hnew, hfails⟩
    obtain ⟨hstill, more, hmore, hfails'⟩ := step_plays lib hrunning' a
    refine ⟨hstill, new ++ more, ?_, fun r hr => ?_⟩
    · rw [hmore, hnew, List.append_assoc]
    · exact (List.mem_append.mp hr).elim (hfails r) (hfails' r)
  exact hinv.2

/-- A task that is over takes and writes nothing. -/
theorem step_silent (lib : RtpCrate ρ) (h : s.task = .ended) (a : Action) :
    (s.step lib a).task = .ended ∧ (s.step lib a).writes = s.writes ∧
      (s.step lib a).outcomes = s.outcomes ∧ (s.step lib a).accepted = s.accepted := by
  cases a with
  | recv | wake | writeDone | cancel => simp [step, h]
  | forward now =>
    simp only [step, h]
    split
    · exact ⟨h, rfl, rfl, rfl⟩
    · exact ⟨rfl, rfl, rfl, rfl⟩
  | sample | dispose | busCheck | busPop | busFail | play | pause | playNext | stop | shutdown
  | shutdownNext =>
    simp only [step, finishes]
    repeat' split
    all_goals exact ⟨h, rfl, rfl, rfl⟩

theorem run_silent (lib : RtpCrate ρ) (h : s.task = .ended) (as : List Action) :
    (Runs.run (step lib) s as).writes = s.writes ∧
      (Runs.run (step lib) s as).outcomes = s.outcomes ∧
      (Runs.run (step lib) s as).accepted = s.accepted := by
  have hinv := Runs.run_invariant
    (I := fun s' : SenderThreads ρ => s'.task = .ended ∧ s'.writes = s.writes ∧
      s'.outcomes = s.outcomes ∧ s'.accepted = s.accepted)
    (fun s' a ⟨htask, hwrites, houtcomes, haccepted⟩ => by
      obtain ⟨htask', hwrites', houtcomes', haccepted'⟩ := step_silent lib htask a
      exact ⟨htask', hwrites'.trans hwrites, houtcomes'.trans houtcomes,
        haccepted'.trans haccepted⟩)
    as ⟨h, rfl, rfl, rfl⟩
  exact hinv.2

/-- Nothing moves a sender that was shut down. -/
theorem step_done (lib : RtpCrate ρ) {r : Except String Unit} (howner : s.owner = .done r)
    (hbus : s.bus = .ended) (htask : s.task = .ended) (hplaying : s.isPlaying = false)
    (a : Action) :
    (s.step lib a).owner = .done r ∧ (s.step lib a).bus = .ended ∧
      (s.step lib a).task = .ended ∧ (s.step lib a).isPlaying = false ∧
      (s.step lib a).pipeline = s.pipeline := by
  cases a with
  | recv | wake | writeDone | cancel => simp [step, howner, hbus, htask, hplaying]
  | busCheck | busPop | busFail => simp [step, howner, hbus, htask, hplaying]
  | play | pause | playNext | stop | shutdown | shutdownNext =>
    simp [step, howner, hbus, htask, hplaying]
  | sample | forward | dispose =>
    simp only [step]
    repeat' split
    all_goals exact ⟨howner, hbus, htask, hplaying, rfl⟩

theorem run_done (lib : RtpCrate ρ) (h : s.Control) {r : Except String Unit}
    (howner : s.owner = .done r) (as : List Action) :
    (Runs.run (step lib) s as).isPlaying = false ∧
      (Runs.run (step lib) s as).pipeline = s.pipeline := by
  obtain ⟨hbus, htask, hplaying⟩ : s.bus = .ended ∧ s.task = .ended ∧ s.isPlaying = false := by
    have howned := h.owned
    rw [howner] at howned
    exact howned
  have hinv := Runs.run_invariant
    (I := fun s' : SenderThreads ρ => s'.owner = .done r ∧ s'.bus = .ended ∧ s'.task = .ended ∧
      s'.isPlaying = false ∧ s'.pipeline = s.pipeline)
    (fun s' a ⟨howner', hbus', htask', hplaying', hpipeline⟩ => by
      obtain ⟨howner'', hbus'', htask'', hplaying'', hsame⟩ :=
        step_done lib howner' hbus' htask' hplaying' a
      exact ⟨howner'', hbus'', htask'', hplaying'', hsame.trans hpipeline⟩)
    as ⟨howner, hbus, htask, hplaying, rfl⟩
  exact ⟨hinv.2.2.2.1, hinv.2.2.2.2⟩

/-- An iteration of the bus worker, whatever the pipeline has to say. -/
def busRound (message : Option AudioBusMessage) (stateChanged : Bool) (now : ℕ) : List Action :=
  [.busPop message now, .busFail stateChanged, .busFail stateChanged, .busFail stateChanged,
    .busFail stateChanged, .busCheck]

/-- The bus worker that is told to stop does so within an iteration. -/
theorem busRound_ends (lib : RtpCrate ρ) (hrunning : s.busRunning = false)
    (message : Option AudioBusMessage) (stateChanged : Bool) (now : ℕ) :
    (Runs.run (step lib) s (busRound message stateChanged now)).bus = .ended := by
  simp only [busRound, Runs.run_cons, Runs.run_nil]
  cases hbus : s.bus with
  | popping => rcases message with _ | message | _ <;> simp [step, endBus, hbus, hrunning]
  | looping | stopPlaying | stopRunning | abortSender | setNull | ended =>
    simp [step, endBus, hbus, hrunning]

/-- The bus worker leaves the owner where it is, and an abort stays. -/
theorem busRound_owner (lib : RtpCrate ρ) (message : Option AudioBusMessage) (stateChanged : Bool)
    (now : ℕ) {as : List Action} (has : as ⊆ busRound message stateChanged now) :
    (Runs.run (step lib) s as).owner = s.owner ∧
      (s.aborted = true → (Runs.run (step lib) s as).aborted = true) := by
  induction as generalizing s with
  | nil => exact ⟨rfl, id⟩
  | cons a rest ih =>
    obtain ⟨ha, hrest⟩ := List.cons_subset.mp has
    have hstep : (s.step lib a).owner = s.owner ∧
        (s.aborted = true → (s.step lib a).aborted = true) := by
      simp only [busRound, List.mem_cons, List.not_mem_nil, or_false] at ha
      rcases ha with rfl | rfl | rfl | rfl | rfl | rfl
      all_goals
        simp only [step, endBus]
        repeat' split
        all_goals exact ⟨rfl, by first | exact id | exact fun _ => rfl⟩
    obtain ⟨howner, haborted⟩ := ih hrest
    exact ⟨howner.trans hstep.1, haborted ∘ hstep.2⟩

/-- A shutdown, in which the bus worker and the task go on as they can. -/
def shutdownRound (message : Option AudioBusMessage) (stateChanged : Bool) (now : ℕ) :
    List Action :=
  .shutdown :: List.replicate 5 (.shutdownNext stateChanged) ++
    (busRound message stateChanged now ++ [.cancel]) ++
      List.replicate 2 (.shutdownNext stateChanged)

/-- A shutdown comes to its end. -/
theorem shutdownRound_done (lib : RtpCrate ρ) (howner : s.owner = .idle)
    (message : Option AudioBusMessage) (stateChanged : Bool) (now : ℕ) :
    ∃ r, (Runs.run (step lib) s (shutdownRound message stateChanged now)).owner = .done r := by
  obtain ⟨s₁, hs₁⟩ : ∃ s₁, s₁ = Runs.run (step lib) s
      (.shutdown :: List.replicate 5 (.shutdownNext stateChanged)) := ⟨_, rfl⟩
  have hjoins : (∃ r, s₁.owner = .joinTask r ∨ s₁.owner = .done r ∨ s₁.owner = .joinBus true r) ∧
      s₁.busRunning = false ∧ s₁.aborted = true := by
    subst hs₁
    cases hnative : s.nativeShutdown with
    | true =>
      cases htask : s.task <;>
        simp [step, howner, hnative, htask, finishes, List.replicate]
    | false =>
      cases stateChanged <;> simp [step, howner, hnative, List.replicate]
  obtain ⟨⟨r, howner₁⟩, hrunning, haborted⟩ := hjoins
  obtain ⟨s₂, hs₂⟩ : ∃ s₂, s₂ = Runs.run (step lib) s₁ (busRound message stateChanged now) :=
    ⟨_, rfl⟩
  obtain ⟨howner₂, haborted₂⟩ := busRound_owner (s := s₁) lib message stateChanged now
    (List.Subset.refl _)
  have hbus₂ : s₂.bus = .ended := hs₂ ▸ busRound_ends lib hrunning message stateChanged now
  rw [← hs₂] at howner₂ haborted₂
  -- the task ends where it stands
  obtain ⟨howner₃, htask₃, hbus₃⟩ : (s₂.step lib .cancel).owner = s₂.owner ∧
      (s₂.step lib .cancel).task = .ended ∧ (s₂.step lib .cancel).bus = .ended := by
    cases htask : s₂.task <;> simp [step, endTask, haborted₂ haborted, htask, hbus₂]
  have hall : Runs.run (step lib) s (shutdownRound message stateChanged now) =
      Runs.run (step lib) (s₂.step lib .cancel)
        (List.replicate 2 (.shutdownNext stateChanged)) := by
    rw [shutdownRound, Runs.run_append, Runs.run_append, ← hs₁, Runs.run_append, ← hs₂]
    rfl
  rw [hall]
  have howner₄ := howner₃.trans howner₂
  generalize s₂.step lib .cancel = s₃ at *
  rcases howner₁ with howner₁ | howner₁ | howner₁ <;> rw [howner₁] at howner₄ <;>
    exact ⟨r, by simp [List.replicate, step, howner₄, htask₃, hbus₃, finishes]⟩

/-- A `play` was let in, and has yet to store or to ask. -/
def Starting (s : SenderThreads ρ) : Prop := s.owner = .playStore ∨ s.owner = .playState

/-- A sender that was stopped and does not play will not, unless a `play` was let in before. -/
theorem step_halted (lib : RtpCrate ρ) (hrunning : s.busRunning = false)
    (hplaying : s.isPlaying = false) (hstarting : ¬ s.Starting) (a : Action) :
    (s.step lib a).busRunning = false ∧ (s.step lib a).isPlaying = false ∧
      ¬ (s.step lib a).Starting ∧ (s.pipeline ≠ .playing → (s.step lib a).pipeline ≠ .playing) := by
  cases a with
  | playNext b =>
    simp only [step]
    split
    next howner => exact absurd (.inl howner) hstarting
    next howner => exact absurd (.inr howner) hstarting
    · exact ⟨hrunning, hplaying, by simp [Starting], id⟩
    · exact ⟨hrunning, rfl, by simp [Starting], id⟩
    · exact ⟨hrunning, hplaying, hstarting, id⟩
  | play =>
    simp only [step]
    split
    · rw [if_neg (by simp [hrunning])]
      exact ⟨hrunning, hplaying, hstarting, id⟩
    · exact ⟨hrunning, hplaying, hstarting, id⟩
  | sample | forward | dispose | recv | wake | writeDone | cancel | busCheck | busPop =>
    simp only [step, handle, settle, endTask, endBus]
    repeat' split
    all_goals exact ⟨hrunning, hplaying, hstarting, id⟩
  | busFail b =>
    simp only [step, endBus]
    split
    · exact ⟨hrunning, rfl, hstarting, id⟩
    · exact ⟨rfl, hplaying, hstarting, id⟩
    · exact ⟨hrunning, hplaying, hstarting, id⟩
    · exact ⟨hrunning, hplaying, hstarting, by cases b <;> simp⟩
    · exact ⟨hrunning, hplaying, hstarting, id⟩
  | pause | stop | shutdown | shutdownNext =>
    simp only [step, finishes]
    repeat' split
    all_goals
      refine ⟨by first | exact hrunning | rfl, by first | exact hplaying | rfl, ?_, by simp⟩
      first | exact hstarting | simp [Starting]

theorem run_halted (lib : RtpCrate ρ) (hrunning : s.busRunning = false)
    (hplaying : s.isPlaying = false) (hstarting : ¬ s.Starting) (as : List Action) :
    (Runs.run (step lib) s as).isPlaying = false ∧
      (s.pipeline ≠ .playing → (Runs.run (step lib) s as).pipeline ≠ .playing) := by
  have hinv := Runs.run_invariant
    (I := fun s' : SenderThreads ρ => s'.busRunning = false ∧ s'.isPlaying = false ∧
      ¬ s'.Starting ∧ (s.pipeline ≠ .playing → s'.pipeline ≠ .playing))
    (fun s' a ⟨hrunning', hplaying', hstarting', hpipeline⟩ => by
      obtain ⟨hrunning'', hplaying'', hstarting'', hkept⟩ :=
        step_halted lib hrunning' hplaying' hstarting' a
      exact ⟨hrunning'', hplaying'', hstarting'', fun h => hkept (hpipeline h)⟩)
    as ⟨hrunning, hplaying, hstarting, id⟩
  exact ⟨hinv.2.1, hinv.2.2.2⟩

/-- How far the bus worker has come with an error, where `ok` says in which states the
pipeline may be left. -/
def Failing (ok : GstState → Prop) (s : SenderThreads ρ) : BusStage → Prop
  | .looping | .popping => False
  | .stopPlaying => True
  | .stopRunning => s.isPlaying = false
  | .abortSender | .setNull => s.isPlaying = false ∧ s.busRunning = false
  | .ended => s.isPlaying = false ∧ s.busRunning = false ∧ ok s.pipeline

/-- No `play` is let in, and the pipeline does as it is told. -/
def Undisturbed (ok : GstState → Prop) (s : SenderThreads ρ) (a : Action) : Prop :=
  (a = .play → s.owner = .idle → s.busRunning = false) ∧
    (a = .busFail false → ∀ state, ok state) ∧ ∀ b, a = .pause b → ok .paused

theorem Failing.lowers {ok : GstState → Prop} {s' : SenderThreads ρ} {stage : BusStage}
    (h : Failing ok s stage) (hplaying : s.isPlaying = false → s'.isPlaying = false)
    (hrunning : s.busRunning = false → s'.busRunning = false)
    (hpipeline : ok s.pipeline → ok s'.pipeline) : Failing ok s' stage := by
  cases stage with
  | looping | popping => exact h
  | stopPlaying => trivial
  | stopRunning => exact hplaying h
  | abortSender | setNull => exact ⟨hplaying h.1, hrunning h.2⟩
  | ended => exact ⟨hplaying h.1, hrunning h.2.1, hpipeline h.2.2⟩

theorem step_failing (lib : RtpCrate ρ) {ok : GstState → Prop} (hnull : ok .null)
    (h : Failing ok s s.bus) (hstarting : ¬ s.Starting) {a : Action} (ha : Undisturbed ok s a) :
    Failing ok (s.step lib a) (s.step lib a).bus ∧ ¬ (s.step lib a).Starting := by
  obtain ⟨hplay, hrefused, hpause⟩ := ha
  cases a with
  | playNext b =>
    simp only [step]
    split
    next howner => exact absurd (.inl howner) hstarting
    next howner => exact absurd (.inr howner) hstarting
    · exact ⟨h.lowers id id id, by simp [Starting]⟩
    · exact ⟨h.lowers (fun _ => rfl) id id, by simp [Starting]⟩
    · exact ⟨h, hstarting⟩
  | play =>
    simp only [step]
    split
    next howner =>
      rw [if_neg (by simp [hplay rfl howner])]
      exact ⟨h.lowers id id id, hstarting⟩
    · exact ⟨h, hstarting⟩
  | sample | forward | dispose | recv | wake | writeDone | cancel =>
    simp only [step, handle, settle, endTask]
    repeat' split
    all_goals exact ⟨h.lowers id id id, hstarting⟩
  | busCheck | busPop =>
    simp only [step]
    split
    next hbus =>
      rw [hbus] at h
      exact absurd h id
    · exact ⟨h, hstarting⟩
  | busFail b =>
    simp only [step]
    split
    · exact ⟨rfl, hstarting⟩
    next hbus =>
      rw [hbus] at h
      exact ⟨⟨h, rfl⟩, hstarting⟩
    next hbus =>
      rw [hbus] at h
      exact ⟨h, hstarting⟩
    next hbus =>
      rw [hbus] at h
      refine ⟨⟨h.1, h.2, ?_⟩, hstarting⟩
      cases b with
      | true => exact hnull
      | false => exact hrefused rfl _
    · exact ⟨h, hstarting⟩
  | pause b =>
    simp only [step]
    split
    · split
      · exact ⟨h.lowers id id fun _ => hpause b rfl, by simp [Starting]⟩
      · exact ⟨h, hstarting⟩
    · exact ⟨h, hstarting⟩
  | stop | shutdown =>
    simp only [step]
    split
    · exact ⟨h.lowers id id id, by simp [Starting]⟩
    · exact ⟨h, hstarting⟩
  | shutdownNext b =>
    simp only [step, finishes]
    repeat' split
    all_goals
      refine ⟨h.lowers (by first | exact id | exact fun _ => rfl)
        (by first | exact id | exact fun _ => rfl) (by first | exact id | exact fun _ => hnull), ?_⟩
      first | exact hstarting | simp [Starting]

/-- The bus worker has met an error, and no `play` gets in before it is done. -/
theorem run_failing (lib : RtpCrate ρ) (ok : GstState → Prop) (hnull : ok .null)
    (hbus : s.bus = .stopPlaying) (hstarting : ¬ s.Starting) {as : List Action}
    (has : ∀ q a, q ++ [a] <+: as → Undisturbed ok (Runs.run (step lib) s q) a)
    (hended : (Runs.run (step lib) s as).bus = .ended) :
    (Runs.run (step lib) s as).isPlaying = false ∧ ok (Runs.run (step lib) s as).pipeline := by
  have hinv := Runs.run_invariant_of
    (I := fun s' : SenderThreads ρ => Failing ok s' s'.bus ∧ ¬ s'.Starting)
    (fun s' a ⟨h, hstarting'⟩ ha => step_failing lib hnull h hstarting' ha) as
    ⟨by rw [hbus]; trivial, hstarting⟩ has
  have hfailing := hinv.1
  rw [hended] at hfailing
  exact ⟨hfailing.1, hfailing.2.2⟩

/-- Nothing plays when it is done, and the pipeline was stopped if it could be. -/
theorem run_failing_stops (lib : RtpCrate ρ) (hbus : s.bus = .stopPlaying)
    (hstarting : ¬ s.Starting) {as : List Action}
    (hplay : ∀ q, q ++ [.play] <+: as → (Runs.run (step lib) s q).owner = .idle →
      (Runs.run (step lib) s q).busRunning = false)
    (hended : (Runs.run (step lib) s as).bus = .ended) :
    (Runs.run (step lib) s as).isPlaying = false ∧
      (Action.busFail false ∉ as → (Runs.run (step lib) s as).pipeline ≠ .playing ∧
        ((∀ b, Action.pause b ∉ as) → (Runs.run (step lib) s as).pipeline = .null)) := by
  have hlets : ∀ q a, q ++ [a] <+: as → a = .play →
      (Runs.run (step lib) s q).owner = .idle →
        (Runs.run (step lib) s q).busRunning = false := by
    rintro q a hq rfl
    exact hplay q hq
  have hmem : ∀ {q : List Action} {a}, q ++ [a] <+: as → a ∈ as :=
    fun hq => hq.subset (List.mem_append_right _ (List.mem_singleton.mpr rfl))
  refine ⟨(run_failing lib (fun _ => True) trivial hbus hstarting
    (fun q a hq => ⟨hlets q a hq, fun _ _ => trivial, fun _ _ => trivial⟩) hended).1,
    fun htold => ⟨(run_failing lib (· ≠ .playing) (by simp) hbus hstarting
      (fun q a hq => ⟨hlets q a hq, fun ha => ?_, by simp⟩) hended).2, fun hpause =>
    (run_failing lib (· = .null) rfl hbus hstarting
      (fun q a hq => ⟨hlets q a hq, fun ha => ?_, fun b hb => ?_⟩) hended).2⟩⟩
  · exact absurd (ha ▸ hmem hq) htold
  · exact absurd (ha ▸ hmem hq) htold
  · exact absurd (hb ▸ hmem hq) (hpause b)

theorem step_failed (lib : RtpCrate ρ) (hfailed : s.failed = true) (a : Action) :
    (s.step lib a).failed = true := by
  cases a
  all_goals
    simp only [step, handle, settle, endTask, endBus, finishes]
    repeat' split
    all_goals first | exact hfailed | rfl

/-- **What a failure and a shutdown leave behind is final.**  After any run of the four
threads, and after any run that goes on from there: once the sender was told to stop, be it
by the owner or by an error of the pipeline, `play` answers with an error for ever, and what
does not play then will not, unless a `play` had been let in; a task that is over has
accepted, taken and written its last packet; and from a shutdown that has returned, nothing
plays and the pipeline keeps its state.  The bus worker that takes an error from the pipeline
is four steps from its end, and has then told the sender to stop and aborted the task; and
unless a `play` had been let in, or is before the worker lowers the flag that keeps them out,
nothing plays then, and the pipeline was stopped, if it could be, and may be paused since.
A shutdown that has returned has seen the end of both, and `stop` has stopped the pipeline
unless it says it could not.  None waits in vain: an abort ends the task where it stands, the
bus worker that is told to stop ends within an iteration, whatever the pipeline has to say,
and a shutdown returns when they do. -/
theorem shutdown_is_final (lib : RtpCrate ρ) (as : List Action) :
    let s : SenderThreads ρ := Runs.run (step lib) init as
    (∀ later, let s' := Runs.run (step lib) s later
      (s.busRunning = false →
        ∃ new, s'.plays = s.plays ++ new ∧ ∀ r ∈ new, r ≠ .ok ()) ∧
      (s.busRunning = false → s.isPlaying = false → ¬ s.Starting →
        s'.isPlaying = false ∧ (s.pipeline ≠ .playing → s'.pipeline ≠ .playing)) ∧
      (s.task = .ended →
        s'.writes = s.writes ∧ s'.outcomes = s.outcomes ∧ s'.accepted = s.accepted) ∧
      (∀ r, s.owner = .done r → s'.isPlaying = false ∧ s'.pipeline = s.pipeline)) ∧
    (s.bus = .popping → ∀ now, let met := s.step lib (.busPop (some .error) now)
      (∀ b, (Runs.run (step lib) met (List.replicate 4 (.busFail b))).bus = .ended) ∧
      ∀ later, let s' := Runs.run (step lib) met later
        s'.bus = .ended → s'.busRunning = false ∧ s'.aborted = true ∧
          (¬ s.Starting → (∀ q, q ++ [.play] <+: later →
              (Runs.run (step lib) met q).owner = .idle →
                (Runs.run (step lib) met q).busRunning = false) →
            s'.isPlaying = false ∧
              (Action.busFail false ∉ later → s'.pipeline ≠ .playing ∧
                ((∀ b, Action.pause b ∉ later) → s'.pipeline = .null)))) ∧
    (∀ r, s.owner = .done r → s.bus = .ended ∧ s.task = .ended) ∧
    (∀ wait, s.owner = .joinBus wait (.ok ()) → s.pipeline = .null) ∧
    (s.aborted = true → (s.step lib .cancel).task = .ended) ∧
    (s.busRunning = false → ∀ message stateChanged now,
      (Runs.run (step lib) s (busRound message stateChanged now)).bus = .ended) ∧
    (s.owner = .idle → ∀ message stateChanged now, ∃ r,
      (Runs.run (step lib) s (shutdownRound message stateChanged now)).owner = .done r) := by
  intro s
  have h : s.Control := (run_inv lib as).control
  refine ⟨fun later => ⟨fun hrunning => run_plays lib hrunning later,
      fun hrunning hplaying hstarting => run_halted lib hrunning hplaying hstarting later,
      fun htask => run_silent lib htask later, fun r howner => run_done lib h howner later⟩,
    fun hpopping now => ⟨fun b => ?_, fun later hended => ?_⟩,
    fun r howner => ?_, fun wait howner => ?_, fun haborted => ?_,
    fun hrunning => busRound_ends lib hrunning, fun howner => shutdownRound_done lib howner⟩
  · simp [step, endBus, hpopping, List.replicate]
  · obtain ⟨met, hmet⟩ : ∃ met, met = s.step lib (.busPop (some .error) now) := ⟨_, rfl⟩
    rw [← hmet] at hended ⊢
    have hstep : met = { s with bus := .stopPlaying, failed := true } := by
      simp [hmet, step, hpopping]
    have hcontrol : (Runs.run (step lib) met later).Control := by
      have hrun : Runs.run (step lib) init (as ++ .busPop (some .error) now :: later) =
          Runs.run (step lib) met later := by
        rw [Runs.run_append, Runs.run_cons, hmet]
      exact hrun ▸ (run_inv lib (as ++ .busPop (some .error) now :: later)).control
    have hfailed : (Runs.run (step lib) met later).failed = true :=
      Runs.run_invariant (I := fun s : SenderThreads ρ => s.failed = true)
        (fun _ a hfailed => step_failed lib hfailed a) later (by rw [hstep])
    have hwatched := hcontrol.watched
    rw [hended] at hwatched
    obtain ⟨hrunning, haborted⟩ := hwatched hfailed
    have hbus : met.bus = .stopPlaying := by rw [hstep]
    exact ⟨hrunning, haborted, fun hstarting hplay =>
      run_failing_stops lib hbus (by rw [hstep]; exact hstarting) hplay hended⟩
  · have howned := h.owned
    rw [howner] at howned
    exact ⟨howned.1, howned.2.1⟩
  · have howned := h.owned
    rw [howner] at howned
    exact howned.2.2 rfl
  · cases htask : s.task <;> simp [step, endTask, haborted, htask]

/-- A `play` that was let in goes on after the error, and the pipeline plays. -/
example (lib : RtpCrate ρ) :
    let s : SenderThreads ρ := Runs.run (step lib) init
      [.play, .busCheck, .busPop (some .error) 0, .busFail true, .busFail true, .busFail true,
        .busFail true, .playNext true, .playNext true, .playNext true]
    s.bus = .ended ∧ s.isPlaying = true ∧ s.pipeline = .playing := ⟨rfl, rfl, rfl⟩

end SenderThreads

end Unitree
