/-
A video stream, from its packets to its frames (`video/service.rs`, `video/codec.rs`).

A task reads packets, lets the reassembler make units of them, pushes the units into the
decoder's queue and takes at most one frame per unit out of the channel that GStreamer's
own threads fill.  Those threads go on between any two steps of the task: they take buffers
out of the queue, and put frames into the channel or, when it is full, let them fall.  An
encoded unit cannot fall without harm to the ones after it, so the stream ends instead.

* `VideoStream.step` — the steps of the task and of the threads of its pipeline;
* `VideoStream.decode_uninterrupted` — without interruption they are `decode`;
* `VideoStream.step_inv`, `VideoStream.run_inv` — queue, channel and histories agree;
* `VideoStream.decoder_is_fed` — what the decoder gets and what it gives.
-/
import UnitreeWebrtc.Media
import UnitreeWebrtc.Runs
import UnitreeWebrtc.Tally

namespace Unitree

/-- Why a media task is over. -/
inductive StreamEnd where
  | decoderInit
  | decodeFailed (error : H264DecodeError)
  | callbackClosed
  | readError
  | panicked
  /-- Aborted at one of its awaits. -/
  | cancelled
deriving DecidableEq

/-- What `try_send` says of a frame. -/
inductive FrameOutcome where
  | sent
  | full
  | disconnected
deriving DecidableEq

/-- Whether the log of the task counts it. -/
def FrameOutcome.failure : FrameOutcome → Option Unit
  | full => some ()
  | sent | disconnected => none

/-- Where a video task is. -/
inductive VideoStage where
  /-- Before its first poll. -/
  | spawned
  /-- It waits for a packet, or for the next look at the bus. -/
  | reading
  /-- The number of queued buffers was in bounds. -/
  | weighing (nal : List UInt8) (encodedBytes : ℕ)
  /-- So were their bytes. -/
  | admitted (nal : List UInt8)
  /-- The buffer is in the queue; the bus comes next. -/
  | pushed
  | polling
  | sending (frame : DecodedFrame)
  | ended (why : StreamEnd)

structure VideoStream where
  stage : VideoStage
  reassembler : H264RtpReassembler
  decoder : H264Decoder
  /-- The channel of four between GStreamer and the task. -/
  frames : List DecodedFrame
  frameCount : ℕ
  frameDrops : Tally Unit Unit
  /-- What was read, and the units that the reassembler made of it. -/
  packets : List RtpPacket
  units : List (List UInt8)
  /-- What left the queue on the way to the parser. -/
  released : List (List UInt8)
  /-- The frames of `new_sample`. -/
  samples : List DecodedFrame
  outcomes : List (DecodedFrame × FrameOutcome)

/-- A buffer of the queue: the Annex B start code, then the unit. -/
def annexB (nal : List UInt8) : List UInt8 := [0, 0, 0, 1] ++ nal

namespace VideoStream

inductive Action where
  /-- The first poll, with the answer of `H264Decoder::new`. -/
  | start (initialized : Bool)
  /-- A tick of the health poll, with what is on the bus. -/
  | tick (message : Option BusMessage)
  /-- `read` returns a packet; the message is for the first look at the bus. -/
  | packet (q : RtpPacket) (message : Option BusMessage)
  | readError
  | weigh
  | push (allocated mapped pushed : Bool)
  | checkHealth (message : Option BusMessage)
  /-- `try_recv`; the channel is closed once GStreamer has dropped its sender. -/
  | poll (connected : Bool)
  | answer (outcome : FrameOutcome) (now : ℕ)
  | cancel
  /-- The source pad of `appsrc` lets a buffer through. -/
  | release
  /-- `new_sample`. -/
  | sample (buffer : BufferRef) (info : VideoInfo)

/-- The task is over, and its locals are dropped. -/
def stop (s : VideoStream) (why : StreamEnd) : VideoStream :=
  { s with stage := .ended why, frameDrops := s.frameDrops.drop [()] }

/-- An error of `decode` is kept in the decoder, and the task breaks. -/
def fail (s : VideoStream) (e : H264DecodeError) : VideoStream :=
  { s with decoder := { s.decoder with terminalError := some e } }.stop (.decodeFailed e)

/-- `decode_inner` up to the look at the number of buffers. -/
def receiveUnit (s : VideoStream) (nal : List UInt8) (message : Option BusMessage) : VideoStream :=
  match s.decoder.checkHealth message with
  | (d, .error e) => { s with decoder := d }.fail e
  | (d, .ok ()) =>
    if nal = [] then { s with decoder := d, stage := .reading }
    else
      match (checkedAdd nal.length 4).filter (· ≤ maxEncodedBytes) with
      | none => { s with decoder := d }.fail .encodedQueueOverflow
      | some encodedBytes =>
        if d.queuedBuffers ≥ maxEncodedBuffers then
          { s with decoder := d }.fail .encodedQueueOverflow
        else { s with decoder := d, stage := .weighing nal encodedBytes }

def push (s : VideoStream) (nal : List UInt8) (allocated mapped pushed : Bool) : VideoStream :=
  if ¬ allocated then s.fail .bufferAllocationFailed
  else if ¬ mapped then s.fail .bufferMappingFailed
  else
    let d := { s.decoder with queuedBuffers := s.decoder.queuedBuffers + 1 }
    if ¬ pushed then { s with decoder := d }.fail .pushFailed
    else { s with decoder := { d with appsrc := d.appsrc ++ [annexB nal] }, stage := .pushed }

/-- The packet goes through the reassembler. -/
def receivePacket (s : VideoStream) (q : RtpPacket) (message : Option BusMessage) : VideoStream :=
  let s := { s with packets := s.packets ++ [q] }
  match s.reassembler.processRtpPacket q with
  | none => s.stop .panicked
  | some (none, r) => { s with reassembler := r }
  | some (some nal, r) =>
    { s with reassembler := r, units := s.units ++ [nal] }.receiveUnit nal message

/-- The pipeline lives as long as the decoder of the task. -/
def Running : VideoStage → Bool
  | .spawned | .ended _ => false
  | _ => true

def step (s : VideoStream) : Action → VideoStream
  | .start initialized =>
    match s.stage with
    | .spawned => if initialized then { s with stage := .reading } else s.stop .decoderInit
    | _ => s
  | .tick message =>
    match s.stage with
    | .reading =>
      match s.decoder.checkHealth message with
      | (d, .error e) => { s with decoder := d }.stop (.decodeFailed e)
      | (d, .ok ()) => { s with decoder := d }
    | _ => s
  | .packet q message =>
    match s.stage with
    | .reading => s.receivePacket q message
    | _ => s
  | .readError =>
    match s.stage with
    | .reading => s.stop .readError
    | _ => s
  | .weigh =>
    match s.stage with
    | .weighing nal encodedBytes =>
      if s.decoder.currentLevelBytes > maxEncodedBytes - encodedBytes then
        s.fail .encodedQueueOverflow
      else { s with stage := .admitted nal }
    | _ => s
  | .push allocated mapped pushed =>
    match s.stage with
    | .admitted nal => s.push nal allocated mapped pushed
    | _ => s
  | .checkHealth message =>
    match s.stage with
    | .pushed =>
      match s.decoder.checkHealth message with
      | (d, .error e) => { s with decoder := d }.fail e
      | (d, .ok ()) => { s with decoder := d, stage := .polling }
    | _ => s
  | .poll connected =>
    match s.stage with
    | .polling =>
      match s.frames with
      | [] => if connected then { s with stage := .reading } else s.fail .frameChannelClosed
      | frame :: rest =>
        { s with frames := rest, frameCount := s.frameCount + 1, stage := .sending frame }
    | _ => s
  | .answer outcome now =>
    match s.stage with
    | .sending frame =>
      let s := { s with stage := .reading, outcomes := s.outcomes ++ [(frame, outcome)] }
      match outcome with
      | .sent => s
      | .full => { s with frameDrops := s.frameDrops.record () now none }
      | .disconnected => s.stop .callbackClosed
    | _ => s
  | .cancel =>
    match s.stage with
    | .spawned | .reading => s.stop .cancelled
    | _ => s
  | .release =>
    if Running s.stage then
      match s.decoder.appsrc with
      | [] => s
      | buffer :: rest =>
        { s with
          decoder :=
            { s.decoder with appsrc := rest, queuedBuffers := s.decoder.queuedBuffers - 1 }
          released := s.released ++ [buffer] }
    else s
  | .sample buffer info =>
    if Running s.stage then
      match packedBgrFrame buffer info with
      | none => s
      | some frame =>
        { s with
          samples := s.samples ++ [frame]
          -- a full channel lets the frame fall
          frames := if s.frames.length < 4 then s.frames ++ [frame] else s.frames }
    else s

def init : VideoStream :=
  { stage := .spawned, reassembler := .new
    decoder := { appsrc := [], queuedBuffers := 0, terminalError := none }
    frames := [], frameCount := 0
    frameDrops := .new fun _ => ("video_frame_drop", "callback_queue_full")
    packets := [], units := [], released := [], samples := [], outcomes := [] }

/-! ### `decode`, step by step -/

/-- The answer of `try_recv`. -/
def received (s : VideoStream) (connected : Bool) : Option (Option DecodedFrame) :=
  match s.frames with
  | [] => if connected then some none else none
  | frame :: _ => some (some frame)

/-- Where a result of `decode` leaves the task. -/
def resumes : Except H264DecodeError (Option DecodedFrame) → VideoStage
  | .error e => .ended (.decodeFailed e)
  | .ok none => .reading
  | .ok (some frame) => .sending frame

/-- The rest of `decode` after the first look at the decoder. -/
def rest (g : Pipeline) (connected : Bool) : List Action :=
  [.weigh, .push g.allocated g.mapped g.pushed, .checkHealth g.messageAfter, .poll connected]

theorem step_ended {s : VideoStream} {why : StreamEnd} (h : s.stage = .ended why) (a : Action) :
    s.step a = s := by
  cases a <;> simp [step, h, Running]

end VideoStream

/-- A look at the bus finds an error that is kept, or nothing. -/
theorem H264Decoder.checkHealth_eq {d d' : H264Decoder} {message : Option BusMessage}
    {r : Except H264DecodeError Unit} (h : d.checkHealth message = (d', r)) :
    r = .ok () ∧ d' = d ∧ d.terminalError = none ∨
      ∃ e, r = .error e ∧ d' = { d with terminalError := some e } := by
  rw [checkHealth.eq_def] at h
  split at h
  next e he =>
    obtain ⟨rfl, rfl⟩ := Prod.mk.inj h
    refine .inr ⟨e, rfl, ?_⟩
    rw [← he]
  next hnone =>
    split at h
    · obtain ⟨rfl, rfl⟩ := Prod.mk.inj h
      exact .inl ⟨rfl, rfl, hnone⟩
    · obtain ⟨rfl, rfl⟩ := Prod.mk.inj h
      exact .inr ⟨_, rfl, rfl⟩
    · obtain ⟨rfl, rfl⟩ := Prod.mk.inj h
      exact .inr ⟨_, rfl, rfl⟩

/-- One more packet. -/
theorem H264RtpReassembler.feed_concat {q : RtpPacket} {nal : Option (List UInt8)}
    {r₂ : H264RtpReassembler} (qs : List RtpPacket) :
    ∀ {r r₁ : H264RtpReassembler} {nals : List (Option (List UInt8))},
      r.feed qs = some (nals, r₁) → r₁.processRtpPacket q = some (nal, r₂) →
      r.feed (qs ++ [q]) = some (nals ++ [nal], r₂) := by
  induction qs with
  | nil =>
    intro r r₁ nals hfeed hq
    obtain ⟨rfl, rfl⟩ := Prod.mk.inj (Option.some_inj.mp hfeed)
    exact feed_cons hq rfl
  | cons p qs ih =>
    intro r r₁ nals hfeed hq
    rw [feed] at hfeed
    obtain ⟨⟨out, r'⟩, hp, hfeed⟩ := Option.bind_eq_some_iff.mp hfeed
    obtain ⟨⟨nals', r''⟩, hrest, heq⟩ := Option.map_eq_some_iff.mp hfeed
    obtain ⟨rfl, rfl⟩ := Prod.mk.inj heq
    exact feed_cons hp (ih hrest hq)

/-- A unit has at least its header. -/
theorem H264RtpReassembler.Sent.ne_nil {history : List RtpPacket} {nal : List UInt8}
    (h : Sent history nal) : nal ≠ [] := by
  rcases h with ⟨before, q, -, rfl, first, rest, hpayload, -⟩ |
    ⟨before, qs, nri, unitType, n, t, -, -, -, -, rfl⟩
  · rw [hpayload]
    exact List.cons_ne_nil _ _
  · exact List.cons_ne_nil _ _

namespace VideoStream

/-- What `decode` leaves in the decoder after this result of `decode_inner`. -/
def kept (r : H264Decoder × Except H264DecodeError (Option DecodedFrame)) : H264Decoder :=
  match r with
  | (d, .error e) => { d with terminalError := some e }
  | (d, .ok _) => d

theorem decode_eq (d : H264Decoder) (g : Pipeline) (nal : List UInt8) :
    d.decode g nal = (kept (d.decodeInner g nal), (d.decodeInner g nal).2) := by
  rw [H264Decoder.decode]
  rcases d.decodeInner g nal with ⟨d', e | frame⟩ <;> rfl

variable {s : VideoStream} {nal : List UInt8}

theorem run_admitted (h : s.stage = .admitted nal) (g : Pipeline) (connected : Bool)
    (hframe : g.frame = s.received connected) :
    let t := Runs.run step s
      [.push g.allocated g.mapped g.pushed, .checkHealth g.messageAfter, .poll connected]
    t.decoder = kept (s.decoder.push g nal) ∧ t.stage = resumes (s.decoder.push g nal).2 := by
  have hpush : s.step (.push g.allocated g.mapped g.pushed) =
      s.push nal g.allocated g.mapped g.pushed := by simp only [step, h]
  rw [Runs.run_cons, hpush, push, H264Decoder.push]
  by_cases hallocated : ¬ g.allocated = true
  · rw [if_pos hallocated, if_pos hallocated]
    exact ⟨rfl, rfl⟩
  rw [if_neg hallocated, if_neg hallocated]
  by_cases hmapped : ¬ g.mapped = true
  · rw [if_pos hmapped, if_pos hmapped]
    exact ⟨rfl, rfl⟩
  rw [if_neg hmapped, if_neg hmapped]
  dsimp only
  by_cases hpushed : ¬ g.pushed = true
  · rw [if_pos hpushed, if_pos hpushed]
    exact ⟨rfl, rfl⟩
  rw [if_neg hpushed, if_neg hpushed, Runs.run_cons, step, annexB]
  dsimp only
  rcases H264Decoder.checkHealth _ g.messageAfter with ⟨d, e | u⟩
  · exact ⟨rfl, rfl⟩
  · simp only [Runs.run_cons, Runs.run_nil, step, hframe, received]
    rcases s.frames with _ | ⟨frame, rest⟩
    · cases connected <;> exact ⟨rfl, rfl⟩
    · exact ⟨rfl, rfl⟩

/-- Without interruption the steps of the task are a call of `decode`. -/
theorem decode_uninterrupted (g : Pipeline) (connected : Bool)
    (hframe : g.frame = s.received connected) :
    let t := Runs.run step (s.receiveUnit nal g.message) (rest g connected)
    t.decoder = (s.decoder.decode g nal).1 ∧ t.stage = resumes (s.decoder.decode g nal).2 := by
  rw [decode_eq, H264Decoder.decodeInner, receiveUnit, rest]
  rcases s.decoder.checkHealth g.message with ⟨d, e | u⟩
  · exact ⟨rfl, rfl⟩
  simp only [H264Decoder.admission]
  by_cases hnil : nal = []
  · rw [if_pos hnil, if_pos hnil]
    exact ⟨rfl, rfl⟩
  rw [if_neg hnil, if_neg hnil]
  rcases (checkedAdd nal.length 4).filter (· ≤ maxEncodedBytes) with _ | encodedBytes
  · exact ⟨rfl, rfl⟩
  dsimp only
  by_cases hcount : d.queuedBuffers ≥ maxEncodedBuffers
  · rw [if_pos hcount, if_pos (.inl hcount)]
    exact ⟨rfl, rfl⟩
  rw [if_neg hcount, Runs.run_cons, step]
  by_cases hlevel : d.currentLevelBytes > maxEncodedBytes - encodedBytes
  · rw [if_pos (.inr hlevel)]
    dsimp only
    rw [if_pos hlevel]
    exact ⟨rfl, rfl⟩
  · rw [if_neg (not_or.mpr ⟨hcount, hlevel⟩)]
    dsimp only
    rw [if_neg hlevel]
    exact run_admitted rfl g connected hframe

/-! ### Into the decoder -/

/-- The units that the task has and the queue has not. -/
def InHand (units : List (List UInt8)) : VideoStage → Prop
  | .weighing nal _ | .admitted nal => units = [nal]
  | .ended (.decodeFailed _) => units.length ≤ 1
  | _ => units = []

/-- What the task has looked at on its way to the queue. -/
def Room (d : H264Decoder) : VideoStage → Prop
  | .weighing nal encodedBytes =>
    d.queuedBuffers < maxEncodedBuffers ∧ encodedBytes = nal.length + 4 ∧
      encodedBytes ≤ maxEncodedBytes
  | .admitted nal =>
    d.queuedBuffers < maxEncodedBuffers ∧ d.currentLevelBytes + (nal.length + 4) ≤ maxEncodedBytes
  | _ => True

/-- Packets, units and the queue of the decoder agree, with these units still on the way. -/
structure Fed (s : VideoStream) (units : List (List UInt8)) : Prop where
  reads : ∃ outs, H264RtpReassembler.new.feed s.packets = some (outs, s.reassembler) ∧
    outs.reduceOption = s.units
  reassembles : H264RtpReassembler.Reassembles s.packets s.reassembler
  fed : s.units.map annexB = s.released ++ s.decoder.appsrc ++ units.map annexB
  counted : s.decoder.appsrc.length ≤ s.decoder.queuedBuffers
  buffers : s.decoder.queuedBuffers ≤ maxEncodedBuffers
  bytes : s.decoder.currentLevelBytes ≤ maxEncodedBytes

structure Feed (s : VideoStream) : Prop where
  fed : ∃ units, s.Fed units ∧ InHand units s.stage
  room : Room s.decoder s.stage
  /-- The stream does not go on after an error. -/
  healthy : ∀ e, s.decoder.terminalError = some e → s.stage = .ended (.decodeFailed e)
  panics : s.stage ≠ .ended .panicked

variable {units : List (List UInt8)}

/-- While a task goes on, no error is kept. -/
theorem Feed.error_none (h : s.Feed) (hstage : ∀ e, s.stage ≠ .ended (.decodeFailed e)) :
    s.decoder.terminalError = none :=
  Option.eq_none_iff_forall_ne_some.mpr fun e he => hstage e (h.healthy e he)

/-- The task goes on, or ends without an error of the decoder. -/
theorem Fed.proceed (h : s.Fed units) (hnone : s.decoder.terminalError = none)
    (hin : InHand units s.stage) (hroom : Room s.decoder s.stage)
    (hpanics : s.stage ≠ .ended .panicked) : s.Feed :=
  ⟨⟨units, h, hin⟩, hroom, fun e he => absurd (hnone.symm.trans he) (by simp), hpanics⟩

/-- An error ends the stream with at most one unit on the way. -/
theorem Fed.fail (h : s.Fed units) (hunits : units.length ≤ 1) (e : H264DecodeError) :
    (s.fail e).Feed := by
  refine ⟨⟨units, ⟨h.reads, h.reassembles, h.fed, h.counted, h.buffers, h.bytes⟩, hunits⟩,
    trivial, fun e' he => ?_, fun hstage => ?_⟩
  · rw [← Option.some_inj.mp he]
    rfl
  · exact absurd (VideoStage.ended.inj hstage) (by simp)

theorem receiveUnit_feed (h : s.Fed [nal]) (hnal : nal ≠ []) (message : Option BusMessage) :
    (s.receiveUnit nal message).Feed := by
  have hfail : ∀ e, (s.fail e).Feed := h.fail le_rfl
  rw [receiveUnit]
  split
  next d e hhealth =>
    obtain ⟨hr, -⟩ | ⟨e', -, rfl⟩ := H264Decoder.checkHealth_eq hhealth
    · exact absurd hr (by simp)
    · exact hfail e
  next d hhealth =>
    obtain ⟨-, rfl, hnone⟩ | ⟨e', hr, -⟩ := H264Decoder.checkHealth_eq hhealth
    swap
    · exact absurd hr (by simp)
    rw [if_neg hnal]
    split
    · exact hfail _
    next encodedBytes hsize =>
      split
      · exact hfail _
      next hcount =>
        obtain ⟨hadd, hmax⟩ := Option.filter_eq_some_iff.mp hsize
        have hbytes : encodedBytes = nal.length + 4 := by
          rw [checkedAdd] at hadd
          split at hadd
          · exact (Option.some_inj.mp hadd).symm
          · exact absurd hadd (by simp)
        exact Fed.proceed ⟨h.reads, h.reassembles, h.fed, h.counted, h.buffers, h.bytes⟩ hnone rfl
          ⟨not_le.mp hcount, hbytes, of_decide_eq_true hmax⟩ (by simp)

theorem receivePacket_feed (h : s.Feed) (hstage : s.stage = .reading) (q : RtpPacket)
    (message : Option BusMessage) : (s.receivePacket q message).Feed := by
  obtain ⟨units, hfed, hin⟩ := h.fed
  rw [hstage] at hin
  obtain rfl : units = [] := hin
  have hnone := h.error_none (by simp [hstage])
  obtain ⟨outs, hfeed, hunits⟩ := hfed.reads
  obtain ⟨out, r, hq, hr, hsent⟩ := H264RtpReassembler.processRtpPacket_step hfed.reassembles q
  have hfeed' := H264RtpReassembler.feed_concat s.packets hfeed hq
  have hreads : (outs ++ [out]).reduceOption = s.units ++ out.toList := by
    rw [List.reduceOption_append, hunits]
    cases out <;> rfl
  rw [receivePacket]
  dsimp only
  rw [hq]
  cases out with
  | none =>
    have hfed' : Fed { s with packets := s.packets ++ [q], reassembler := r } [] :=
      ⟨⟨_, hfeed', hreads.trans (List.append_nil _)⟩, hr, hfed.fed, hfed.counted, hfed.buffers,
        hfed.bytes⟩
    refine hfed'.proceed hnone ?_ ?_ ?_ <;> dsimp only <;> rw [hstage]
    · rfl
    · trivial
    · simp
  | some nal =>
    have hfed' : Fed { s with packets := s.packets ++ [q], reassembler := r,
                              units := s.units ++ [nal] } [nal] := by
      refine ⟨⟨_, hfeed', hreads⟩, hr, ?_, hfed.counted, hfed.buffers, hfed.bytes⟩
      rw [List.map_append, hfed.fed]
      simp
    exact receiveUnit_feed hfed' (hsent nal rfl).1.ne_nil message

/-- No unit is in hand, and the decoder has not failed. -/
def Clear : VideoStage → Bool
  | .weighing _ _ | .admitted _ | .ended (.decodeFailed _) | .ended .panicked => false
  | _ => true

theorem Clear.inHand {stage : VideoStage} (h : Clear stage = true) :
    InHand units stage ↔ units = [] := by
  cases stage with
  | weighing | admitted => exact absurd h (by simp [Clear])
  | ended why =>
    cases why with
    | decodeFailed => exact absurd h (by simp [Clear])
    | _ => exact Iff.rfl
  | _ => exact Iff.rfl

theorem Clear.room {stage : VideoStage} (h : Clear stage = true) (d : H264Decoder) :
    Room d stage := by
  cases stage with
  | weighing | admitted => exact absurd h (by simp [Clear])
  | _ => trivial

/-- The steps that have nothing to do with the decoder. -/
theorem Feed.elsewhere (h : s.Feed) {s' : VideoStream} (hpackets : s'.packets = s.packets)
    (hreassembler : s'.reassembler = s.reassembler) (hunits : s'.units = s.units)
    (hreleased : s'.released = s.released) (hdecoder : s'.decoder = s.decoder)
    (hstage : s'.stage = s.stage ∨ Clear s.stage = true ∧ Clear s'.stage = true) : s'.Feed := by
  obtain ⟨units, hfed, hin⟩ := h.fed
  have hfed' : s'.Fed units := by
    refine ⟨?_, ?_, ?_, ?_, ?_, ?_⟩
    · rw [hpackets, hreassembler, hunits]
      exact hfed.reads
    · rw [hpackets, hreassembler]
      exact hfed.reassembles
    · rw [hunits, hreleased, hdecoder]
      exact hfed.fed
    · rw [hdecoder]
      exact hfed.counted
    · rw [hdecoder]
      exact hfed.buffers
    · rw [hdecoder]
      exact hfed.bytes
  rcases hstage with hsame | ⟨hfrom, hto⟩
  · refine ⟨⟨units, hfed', hsame ▸ hin⟩, ?_, fun e he => ?_, hsame ▸ h.panics⟩
    · rw [hdecoder, hsame]
      exact h.room
    · rw [hdecoder] at he
      exact hsame ▸ h.healthy e he
  · have hnone : s.decoder.terminalError = none := by
      refine h.error_none fun e he => ?_
      rw [he] at hfrom
      exact absurd hfrom (by simp [Clear])
    refine hfed'.proceed (by rw [hdecoder, hnone]) ?_ (Clear.room hto _) fun hp => ?_
    · exact (Clear.inHand hto).mpr ((Clear.inHand hfrom).mp hin)
    · rw [hp] at hto
      exact absurd hto (by simp [Clear])

/-- Buffers leave the queue in order, and make room. -/
theorem release_feed (h : s.Feed) : (s.step .release).Feed := by
  rw [step]
  split
  swap
  · exact h
  next hrunning =>
    rcases hqueue : s.decoder.appsrc with _ | ⟨buffer, rest⟩
    · exact h
    obtain ⟨units, hfed, hin⟩ := h.fed
    have hlevel : s.decoder.currentLevelBytes =
        buffer.length + { s.decoder with appsrc := rest }.currentLevelBytes := by
      simp [H264Decoder.currentLevelBytes, hqueue]
    have hfedBuffers := hfed.fed
    have hcounted := hfed.counted
    have hbuffers := hfed.buffers
    have hbytes := hfed.bytes
    rw [hqueue] at hfedBuffers hcounted
    rw [List.length_cons] at hcounted
    refine ⟨⟨units, ⟨hfed.reads, hfed.reassembles, ?_, ?_, ?_, ?_⟩, hin⟩, ?_, h.healthy, h.panics⟩
    · rw [hfedBuffers]
      simp
    · show rest.length ≤ s.decoder.queuedBuffers - 1
      omega
    · show s.decoder.queuedBuffers - 1 ≤ _
      omega
    · show { s.decoder with appsrc := rest }.currentLevelBytes ≤ _
      omega
    · have hroom := h.room
      dsimp only
      cases hstage : s.stage with
      | weighing nal encodedBytes =>
        rw [hstage] at hroom
        obtain ⟨hcount, hsize⟩ := hroom
        exact ⟨(Nat.sub_le _ 1).trans_lt hcount, hsize⟩
      | admitted nal =>
        rw [hstage] at hroom
        obtain ⟨hcount, hroom⟩ := hroom
        refine ⟨(Nat.sub_le _ 1).trans_lt hcount, le_trans ?_ hroom⟩
        rw [hlevel, Nat.add_assoc]
        exact Nat.le_add_left _ _
      | _ => trivial

theorem push_feed (h : s.Feed) (hstage : s.stage = .admitted nal) (allocated mapped pushed : Bool) :
    (s.push nal allocated mapped pushed).Feed := by
  obtain ⟨units, hfed, hin⟩ := h.fed
  have hroom := h.room
  rw [hstage] at hin hroom
  obtain rfl : units = [nal] := hin
  obtain ⟨hcount, hroom⟩ := hroom
  have hnone := h.error_none (by simp [hstage])
  rw [push]
  split
  · exact hfed.fail le_rfl _
  split
  · exact hfed.fail le_rfl _
  dsimp only
  split
  · have hfed' : Fed { s with decoder :=
          { s.decoder with queuedBuffers := s.decoder.queuedBuffers + 1 } } [nal] :=
      ⟨hfed.reads, hfed.reassembles, hfed.fed, Nat.le_succ_of_le hfed.counted, hcount, hfed.bytes⟩
    exact hfed'.fail le_rfl _
  · refine ⟨⟨[], ⟨hfed.reads, hfed.reassembles, ?_, ?_, hcount, ?_⟩, rfl⟩, trivial, ?_, by simp⟩
    · rw [hfed.fed]
      simp
    · rw [List.length_append]
      exact Nat.succ_le_succ hfed.counted
    · refine le_trans (le_of_eq ?_) hroom
      simp [H264Decoder.currentLevelBytes, annexB]
    · exact fun e he => absurd (hnone.symm.trans he) (by simp)

/-- At most one unit is in hand. -/
theorem InHand.length {stage : VideoStage} (h : InHand units stage) : units.length ≤ 1 := by
  cases stage with
  | weighing | admitted => rw [show units = _ from h]; rfl
  | ended why =>
    cases why with
    | decodeFailed => exact h
    | _ => rw [show units = [] from h]; exact Nat.zero_le 1
  | _ => rw [show units = [] from h]; exact Nat.zero_le 1

theorem InHand.stages {stage : VideoStage} (h : InHand units stage) (hne : units ≠ []) :
    (∃ nal n, units = [nal] ∧ (stage = .weighing nal n ∨ stage = .admitted nal)) ∨
      ∃ e, stage = .ended (.decodeFailed e) := by
  cases stage with
  | weighing nal n => exact .inl ⟨nal, n, h, .inl rfl⟩
  | admitted nal => exact .inl ⟨nal, 0, h, .inr rfl⟩
  | ended why =>
    cases why with
    | decodeFailed e => exact .inr ⟨e, rfl⟩
    | _ => exact absurd h hne
  | _ => exact absurd h hne

/-- An error at any stage ends the stream. -/
theorem Feed.failed (h : s.Feed) (e : H264DecodeError) : (s.fail e).Feed := by
  obtain ⟨units, hfed, hin⟩ := h.fed
  exact hfed.fail hin.length e

/-! ### Out of the decoder -/

/-- The frame on its way to the callback channel. -/
def inFlight : VideoStage → Option DecodedFrame
  | .sending frame => some frame
  | _ => none

/-- The frames that the task took out of the channel. -/
def taken (s : VideoStream) : List DecodedFrame :=
  s.outcomes.map Prod.fst ++ (inFlight s.stage).toList

/-- Samples, frames and the log agree. -/
structure Yield (s : VideoStream) : Prop where
  ordered : (s.taken ++ s.frames).Sublist s.samples
  whole : ∀ frame ∈ s.samples, frame.data.length = 3 * frame.width.toNat * frame.height.toNat ∧
    frame.data.length ≤ maxVideoBufferBytes
  bounded : s.frames.length ≤ 4
  count : s.frameCount = s.taken.length
  balanced : s.frameDrops.Balanced
  label : s.frameDrops.label = 0
  recorded : s.frameDrops.recorded =
    s.outcomes.filterMap fun o => o.2.failure.map fun i => (i, 0)
  closed : ∀ o ∈ s.outcomes, o.2 = .disconnected → s.stage = .ended .callbackClosed
  settled : ∀ why, s.stage = .ended why → ∀ i g, s.frameDrops.waiting i g = 0

/-- The task goes on without a frame. -/
theorem Yield.elsewhere (h : s.Yield) {s' : VideoStream} (hframes : s'.frames = s.frames)
    (hcount : s'.frameCount = s.frameCount) (hdrops : s'.frameDrops = s.frameDrops)
    (hsamples : s'.samples = s.samples) (houtcomes : s'.outcomes = s.outcomes)
    (hstage : s'.stage = s.stage ∨ inFlight s.stage = none ∧ inFlight s'.stage = none ∧
      (∀ why, s.stage ≠ .ended why) ∧ ∀ why, s'.stage ≠ .ended why) : s'.Yield := by
  have hflight : inFlight s'.stage = inFlight s.stage := by
    rcases hstage with hsame | ⟨hfrom, hto, -⟩
    · rw [hsame]
    · rw [hfrom, hto]
  have htaken : s'.taken = s.taken := by rw [taken, taken, houtcomes, hflight]
  refine ⟨?_, ?_, ?_, ?_, ?_, ?_, ?_, fun o ho hclosed => ?_, fun why hwhy => ?_⟩
  · rw [htaken, hframes, hsamples]
    exact h.ordered
  · rw [hsamples]
    exact h.whole
  · rw [hframes]
    exact h.bounded
  · rw [hcount, htaken]
    exact h.count
  · rw [hdrops]
    exact h.balanced
  · rw [hdrops]
    exact h.label
  · rw [hdrops, houtcomes]
    exact h.recorded
  · rw [houtcomes] at ho
    rcases hstage with hsame | ⟨-, -, hfrom, -⟩
    · exact hsame.trans (h.closed o ho hclosed)
    · exact absurd (h.closed o ho hclosed) (hfrom _)
  · rw [hdrops]
    rcases hstage with hsame | ⟨-, -, -, hto⟩
    · exact h.settled why (hsame.symm.trans hwhy)
    · exact absurd hwhy (hto why)

/-- The log is dropped with the task, and says what it has still to say. -/
theorem Yield.stop (h : s.Yield) {why : StreamEnd} (hflight : inFlight s.stage = none)
    (hclosed : why = .callbackClosed ∨ ∀ o ∈ s.outcomes, o.2 ≠ .disconnected) :
    (s.stop why).Yield := by
  have htaken : (s.stop why).taken = s.taken := by
    rw [taken, taken, hflight]
    rfl
  refine ⟨?_, h.whole, h.bounded, ?_, Tally.balanced_drop h.balanced, ?_, ?_, fun o ho hgone => ?_,
    fun _ _ i g => Tally.drop_waiting h.balanced (by simp) i g⟩
  · rw [htaken]
    exact h.ordered
  · rw [htaken]
    exact h.count
  · exact Tally.drop_label.trans h.label
  · exact (Tally.drop_recorded h.balanced).trans h.recorded
  · rcases hclosed with rfl | hnone
    · rfl
    · exact absurd hgone (hnone o ho)

theorem Yield.connected (h : s.Yield) (hstage : s.stage ≠ .ended .callbackClosed) :
    ∀ o ∈ s.outcomes, o.2 ≠ .disconnected :=
  fun o ho hclosed => hstage (h.closed o ho hclosed)

/-- An error of the decoder ends the stream between two frames. -/
theorem Yield.failed (h : s.Yield) (hflight : inFlight s.stage = none)
    (hstage : s.stage ≠ .ended .callbackClosed) (e : H264DecodeError) : (s.fail e).Yield := by
  let d := { s.decoder with terminalError := some e }
  have h' : ({ s with decoder := d } : VideoStream).Yield :=
    h.elsewhere rfl rfl rfl rfl rfl (.inl rfl)
  exact h'.stop hflight (.inr (h.connected hstage))

theorem receiveUnit_yield (h : s.Yield) (hstage : s.stage = .reading) (nal : List UInt8)
    (message : Option BusMessage) : (s.receiveUnit nal message).Yield := by
  have hmoves : ∀ (d : H264Decoder) (stage : VideoStage), inFlight stage = none →
      (∀ why, stage ≠ .ended why) → ({ s with decoder := d, stage } : VideoStream).Yield :=
    fun d stage hto hgoes => h.elsewhere rfl rfl rfl rfl rfl
      (.inr ⟨by rw [hstage]; rfl, hto, by simp [hstage], hgoes⟩)
  have hfail : ∀ (d : H264Decoder) e, ({ s with decoder := d }.fail e).Yield := by
    intro d e
    have h' : ({ s with decoder := d } : VideoStream).Yield :=
      h.elsewhere rfl rfl rfl rfl rfl (.inl rfl)
    exact h'.failed (by rw [hstage]; rfl) (by simp [hstage]) e
  rw [receiveUnit]
  split
  · exact hfail _ _
  split
  · exact hmoves _ _ rfl (by simp)
  split
  · exact hfail _ _
  split
  · exact hfail _ _
  · exact hmoves _ _ rfl (by simp)

theorem push_yield (h : s.Yield) (hstage : s.stage = .admitted nal)
    (allocated mapped pushed : Bool) : (s.push nal allocated mapped pushed).Yield := by
  have hflight : inFlight s.stage = none := by rw [hstage]; rfl
  have hopen : s.stage ≠ .ended .callbackClosed := by simp [hstage]
  rw [push]
  split
  · exact h.failed hflight hopen _
  split
  · exact h.failed hflight hopen _
  dsimp only
  split
  · have h' : ({ s with decoder :=
        { s.decoder with queuedBuffers := s.decoder.queuedBuffers + 1 } } : VideoStream).Yield :=
      h.elsewhere rfl rfl rfl rfl rfl (.inl rfl)
    exact h'.failed hflight hopen _
  · exact h.elsewhere rfl rfl rfl rfl rfl (.inr ⟨hflight, rfl, by simp [hstage], by simp⟩)

/-- A frame is taken out of the channel. -/
theorem poll_yield (h : s.Yield) (hstage : s.stage = .polling) {frame : DecodedFrame}
    {rest : List DecodedFrame} (hframes : s.frames = frame :: rest) :
    ({ s with frames := rest, frameCount := s.frameCount + 1, stage := .sending frame } :
      VideoStream).Yield := by
  have htaken : s.taken = s.outcomes.map Prod.fst := by
    rw [taken, hstage]
    exact List.append_nil _
  have hcount := h.count
  have hbounded := h.bounded
  have hordered := h.ordered
  rw [hframes, List.length_cons] at hbounded
  rw [htaken] at hcount hordered
  refine ⟨?_, h.whole, Nat.le_of_succ_le hbounded, ?_, h.balanced, h.label, h.recorded,
    fun o ho hclosed => ?_, fun why hwhy => absurd hwhy (by simp)⟩
  · rw [hframes] at hordered
    simpa [taken, inFlight] using hordered
  · simp [taken, inFlight, hcount]
  · exact absurd (h.closed o ho hclosed) (by simp [hstage])

/-- The channel has answered. -/
theorem answer_yield (h : s.Yield) {frame : DecodedFrame} (hstage : s.stage = .sending frame)
    (outcome : FrameOutcome) (now : ℕ) : (s.step (.answer outcome now)).Yield := by
  have htaken : s.taken = s.outcomes.map Prod.fst ++ [frame] := by
    rw [taken, hstage]
    rfl
  have hopen := h.connected (by simp [hstage])
  have hrecorded := h.recorded
  have hcount := h.count
  have hordered := h.ordered
  rw [htaken] at hcount hordered
  simp only [step, hstage]
  cases outcome with
  | sent =>
    refine ⟨by simpa [taken, inFlight] using hordered, h.whole, h.bounded,
      by simpa [taken, inFlight] using hcount, h.balanced, h.label,
      by simpa [FrameOutcome.failure] using hrecorded,
      fun o ho hclosed => ?_, fun why hwhy => absurd hwhy (by simp)⟩
    rcases List.mem_append.mp ho with ho | ho
    · exact absurd hclosed (hopen o ho)
    · rw [List.mem_singleton.mp ho] at hclosed
      exact absurd hclosed (by simp)
  | full =>
    refine ⟨by simpa [taken, inFlight] using hordered, h.whole, h.bounded,
      by simpa [taken, inFlight] using hcount, Tally.balanced_record h.balanced _ _ _, h.label, ?_,
      fun o ho hclosed => ?_, fun why hwhy => absurd hwhy (by simp)⟩
    · rw [Tally.record, Tally.apply_recorded, hrecorded, h.label]
      simp [RepeatLog.Op.records, FrameOutcome.failure]
    · rcases List.mem_append.mp ho with ho | ho
      · exact absurd hclosed (hopen o ho)
      · rw [List.mem_singleton.mp ho] at hclosed
        exact absurd hclosed (by simp)
  | disconnected =>
    refine ⟨by simpa [taken, inFlight, stop] using hordered, h.whole, h.bounded,
      by simpa [taken, inFlight, stop] using hcount, Tally.balanced_drop h.balanced,
      Tally.drop_label.trans h.label, (Tally.drop_recorded h.balanced).trans ?_,
      fun o ho hclosed => rfl, fun _ _ i g => Tally.drop_waiting h.balanced (by simp) i g⟩
    simpa [stop, FrameOutcome.failure] using hrecorded

/-- A new sample goes behind the others, or falls. -/
theorem sample_yield (h : s.Yield) (buffer : BufferRef) (info : VideoInfo) :
    (s.step (.sample buffer info)).Yield := by
  simp only [step]
  split
  swap
  · exact h
  split
  · exact h
  next frame hframe =>
    refine ⟨?_, fun f hf => ?_, ?_, h.count, h.balanced, h.label, h.recorded, h.closed, h.settled⟩
    · split
      · have hordered := h.ordered.append (List.Sublist.refl [frame])
        rwa [List.append_assoc] at hordered
      · exact h.ordered.trans (List.sublist_append_left _ _)
    · rcases List.mem_append.mp hf with hf | hf
      · exact h.whole f hf
      · rw [List.mem_singleton.mp hf]
        exact packedBgrFrame_length hframe
    · have hbounded := h.bounded
      dsimp only
      split
      · rw [List.length_append, List.length_singleton]
        omega
      · exact hbounded

/-! ### Every step -/

structure Inv (s : VideoStream) : Prop where
  feed : s.Feed
  yield : s.Yield

/-- Neither a unit nor a frame is in hand, and the task goes on. -/
def Idle : VideoStage → Bool
  | .spawned | .reading | .pushed | .polling => true
  | _ => false

theorem Idle.flags {stage : VideoStage} (h : Idle stage = true) :
    Clear stage = true ∧ inFlight stage = none ∧ ∀ why, stage ≠ .ended why := by
  cases stage <;> simp_all [Idle, Clear, inFlight]

theorem Inv.moves (h : s.Inv) (hfrom : Idle s.stage = true) {stage : VideoStage}
    (hto : Idle stage = true) : ({ s with stage } : VideoStream).Inv := by
  obtain ⟨hclear, hflight, hgoes⟩ := Idle.flags hfrom
  obtain ⟨hclear', hflight', hgoes'⟩ := Idle.flags hto
  exact ⟨h.feed.elsewhere rfl rfl rfl rfl rfl (.inr ⟨hclear, hclear'⟩),
    h.yield.elsewhere rfl rfl rfl rfl rfl (.inr ⟨hflight, hflight', hgoes, hgoes'⟩)⟩

theorem Inv.stops (h : s.Inv) (hfrom : Idle s.stage = true) {why : StreamEnd}
    (hwhy : Clear (.ended why) = true) : (s.stop why).Inv := by
  obtain ⟨hclear, hflight, hgoes⟩ := Idle.flags hfrom
  exact ⟨h.feed.elsewhere rfl rfl rfl rfl rfl (.inr ⟨hclear, hwhy⟩),
    h.yield.stop hflight (.inr (h.yield.connected (hgoes _)))⟩

theorem Inv.fails (h : s.Inv) (hflight : inFlight s.stage = none)
    (hgoes : ∀ why, s.stage ≠ .ended why) (e : H264DecodeError) : (s.fail e).Inv :=
  ⟨h.feed.failed e, h.yield.failed hflight (hgoes _) e⟩

/-- A look at the bus ends the stream, or changes nothing. -/
theorem Inv.checkHealth (h : s.Inv) (hfrom : Idle s.stage = true) {message : Option BusMessage}
    {d : H264Decoder} {r : Except H264DecodeError Unit}
    (hhealth : s.decoder.checkHealth message = (d, r)) :
    r = .ok () ∧ d = s.decoder ∨
      ∃ e, r = .error e ∧ d = { s.decoder with terminalError := some e } ∧ (s.fail e).Inv := by
  obtain ⟨-, hflight, hgoes⟩ := Idle.flags hfrom
  obtain ⟨hr, hd, -⟩ | ⟨e, hr, hd⟩ := H264Decoder.checkHealth_eq hhealth
  · exact .inl ⟨hr, hd⟩
  · exact .inr ⟨e, hr, hd, h.fails hflight hgoes e⟩

theorem receivePacket_inv (h : s.Inv) (hstage : s.stage = .reading) (q : RtpPacket)
    (message : Option BusMessage) : (s.receivePacket q message).Inv := by
  refine ⟨receivePacket_feed h.feed hstage q message, ?_⟩
  rw [receivePacket]
  dsimp only
  split
  · have h' : ({ s with packets := s.packets ++ [q] } : VideoStream).Yield :=
      h.yield.elsewhere rfl rfl rfl rfl rfl (.inl rfl)
    exact h'.stop (by rw [hstage]; rfl) (.inr (h.yield.connected (by simp [hstage])))
  · exact h.yield.elsewhere rfl rfl rfl rfl rfl (.inl rfl)
  next nal r _ =>
    have h' : ({ s with packets := s.packets ++ [q], reassembler := r,
                        units := s.units ++ [nal] } : VideoStream).Yield :=
      h.yield.elsewhere rfl rfl rfl rfl rfl (.inl rfl)
    exact receiveUnit_yield h' hstage nal message

theorem weigh_inv (h : s.Inv) {encodedBytes : ℕ} (hstage : s.stage = .weighing nal encodedBytes) :
    (s.step .weigh).Inv := by
  simp only [step, hstage]
  split
  · exact h.fails (by rw [hstage]; rfl) (by simp [hstage]) _
  next hlevel =>
    obtain ⟨units, hfed, hin⟩ := h.feed.fed
    have hroom := h.feed.room
    rw [hstage] at hin hroom
    obtain ⟨hcount, rfl, hmax⟩ := hroom
    refine ⟨⟨⟨units, ⟨hfed.reads, hfed.reassembles, hfed.fed, hfed.counted, hfed.buffers,
      hfed.bytes⟩, hin⟩, ⟨hcount, ?_⟩, fun e he => ?_, by simp⟩, ?_⟩
    · dsimp only
      omega
    · exact absurd (h.feed.healthy e he) (by simp [hstage])
    · exact h.yield.elsewhere rfl rfl rfl rfl rfl
        (.inr ⟨by rw [hstage]; rfl, rfl, by simp [hstage], by simp⟩)

theorem step_inv (h : s.Inv) (a : Action) : (s.step a).Inv := by
  cases a with
  | start initialized =>
    simp only [step]
    split
    next hstage =>
      have hidle : Idle s.stage = true := by rw [hstage]; rfl
      split
      · exact h.moves hidle rfl
      · exact h.stops hidle rfl
    next => exact h
  | tick message =>
    simp only [step]
    split
    next hstage =>
      have hidle : Idle s.stage = true := by rw [hstage]; rfl
      split
      next d e hhealth =>
        obtain ⟨hr, -⟩ | ⟨e', hr, rfl, hfails⟩ := h.checkHealth hidle hhealth
        · exact absurd hr (by simp)
        · rw [Except.error.inj hr]
          exact hfails
      next d hhealth =>
        obtain ⟨-, rfl⟩ | ⟨e', hr, -⟩ := h.checkHealth hidle hhealth
        · exact h
        · exact absurd hr (by simp)
    next => exact h
  | packet q message =>
    simp only [step]
    split
    next hstage => exact receivePacket_inv h hstage q message
    next => exact h
  | readError =>
    simp only [step]
    split
    next hstage => exact h.stops (by rw [hstage]; rfl) rfl
    next => exact h
  | weigh =>
    rcases hstage : s.stage
    case weighing => exact weigh_inv h hstage
    all_goals
      simp only [step, hstage]
      exact h
  | push allocated mapped pushed =>
    simp only [step]
    split
    next nal hstage =>
      exact ⟨push_feed h.feed hstage allocated mapped pushed,
        push_yield h.yield hstage allocated mapped pushed⟩
    next => exact h
  | checkHealth message =>
    simp only [step]
    split
    next hstage =>
      have hidle : Idle s.stage = true := by rw [hstage]; rfl
      split
      next d e hhealth =>
        obtain ⟨hr, -⟩ | ⟨e', hr, rfl, hfails⟩ := h.checkHealth hidle hhealth
        · exact absurd hr (by simp)
        · rw [Except.error.inj hr]
          exact hfails
      next d hhealth =>
        obtain ⟨-, rfl⟩ | ⟨e', hr, -⟩ := h.checkHealth hidle hhealth
        · exact h.moves hidle rfl
        · exact absurd hr (by simp)
    next => exact h
  | poll connected =>
    simp only [step]
    split
    next hstage =>
      have hidle : Idle s.stage = true := by rw [hstage]; rfl
      split
      · split
        · exact h.moves hidle rfl
        · exact h.fails (Idle.flags hidle).2.1 (Idle.flags hidle).2.2 _
      next frame rest hframes =>
        exact ⟨h.feed.elsewhere rfl rfl rfl rfl rfl (.inr ⟨(Idle.flags hidle).1, rfl⟩),
          poll_yield h.yield hstage hframes⟩
    next => exact h
  | answer outcome now =>
    rcases hstage : s.stage
    case sending frame =>
      refine ⟨?_, answer_yield h.yield hstage outcome now⟩
      simp only [step, hstage]
      cases outcome <;>
        exact h.feed.elsewhere rfl rfl rfl rfl rfl (.inr ⟨by rw [hstage]; rfl, rfl⟩)
    all_goals
      simp only [step, hstage]
      exact h
  | cancel =>
    simp only [step]
    split
    next hstage => exact h.stops (by rw [hstage]; rfl) rfl
    next hstage => exact h.stops (by rw [hstage]; rfl) rfl
    next => exact h
  | release =>
    refine ⟨release_feed h.feed, ?_⟩
    simp only [step]
    split
    · split
      · exact h.yield
      · exact h.yield.elsewhere rfl rfl rfl rfl rfl (.inl rfl)
    · exact h.yield
  | sample buffer info =>
    refine ⟨?_, sample_yield h.yield buffer info⟩
    simp only [step]
    split
    · split
      · exact h.feed
      · exact h.feed.elsewhere rfl rfl rfl rfl rfl (.inl rfl)
    · exact h.feed

theorem receiveUnit_outcomes (s : VideoStream) (nal : List UInt8) (message : Option BusMessage) :
    (s.receiveUnit nal message).outcomes = s.outcomes := by
  rw [receiveUnit]
  split
  · rfl
  split
  · rfl
  split
  · rfl
  split <;> rfl

theorem push_outcomes (s : VideoStream) (nal : List UInt8) (allocated mapped pushed : Bool) :
    (s.push nal allocated mapped pushed).outcomes = s.outcomes := by
  rw [push]
  split
  · rfl
  split
  · rfl
  dsimp only
  split <;> rfl

/-- Only an answer of the channel is the outcome of a frame. -/
theorem step_outcomes {a : Action} (ha : ∀ outcome now, a ≠ .answer outcome now) :
    (s.step a).outcomes = s.outcomes := by
  cases a with
  | packet q message =>
    simp only [step]
    split
    · rw [receivePacket]
      dsimp only
      split
      · rfl
      · rfl
      · exact receiveUnit_outcomes _ _ _
    · rfl
  | push allocated mapped pushed =>
    simp only [step]
    split
    · exact push_outcomes _ _ _ _ _
    · rfl
  | answer outcome now => exact absurd rfl (ha outcome now)
  | start | tick | readError | weigh | checkHealth | poll | cancel | release | sample =>
    simp only [step]
    repeat' split
    all_goals rfl

/-! ### The next await -/

/-- How many own steps it is at most to an await or to an answer of the channel. -/
def distance : VideoStage → ℕ
  | .weighing _ _ => 4
  | .admitted _ => 3
  | .pushed => 2
  | .polling => 1
  | _ => 0

theorem distance_weigh (s : VideoStream) : distance (s.step .weigh).stage ≤ 3 := by
  simp only [step]
  split
  · split
    · exact Nat.zero_le _
    · exact le_rfl
  next hother =>
    cases hstage : s.stage with
    | weighing nal encodedBytes => exact absurd hstage (hother nal encodedBytes)
    | _ => simp [distance]

theorem distance_push (h : distance s.stage ≤ 3) (allocated mapped pushed : Bool) :
    distance (s.step (.push allocated mapped pushed)).stage ≤ 2 := by
  simp only [step]
  split
  · rw [push]
    split
    · exact Nat.zero_le _
    split
    · exact Nat.zero_le _
    dsimp only
    split
    · exact Nat.zero_le _
    · exact le_rfl
  next hother =>
    cases hstage : s.stage with
    | admitted nal => exact absurd hstage (hother nal)
    | weighing => exact absurd h (by simp [hstage, distance])
    | _ => simp [distance]

theorem distance_checkHealth (h : distance s.stage ≤ 2) (message : Option BusMessage) :
    distance (s.step (.checkHealth message)).stage ≤ 1 := by
  simp only [step]
  split
  · split
    · exact Nat.zero_le _
    · exact le_rfl
  next hother =>
    cases hstage : s.stage with
    | pushed => exact absurd hstage hother
    | weighing | admitted => exact absurd h (by simp [hstage, distance])
    | _ => simp [distance]

theorem distance_poll (h : distance s.stage ≤ 1) (connected : Bool) :
    distance (s.step (.poll connected)).stage = 0 := by
  simp only [step]
  split
  · split
    · split <;> rfl
    · rfl
  next hother =>
    cases hstage : s.stage with
    | polling => exact absurd hstage hother
    | weighing | admitted | pushed => exact absurd h (by simp [hstage, distance])
    | _ => rfl

theorem init_inv : init.Inv :=
  ⟨⟨⟨[], ⟨⟨[], rfl, rfl⟩, .inl rfl, rfl, le_rfl, Nat.zero_le _, Nat.zero_le _⟩, rfl⟩, trivial,
      fun _ he => absurd he (by simp [init]), by simp [init]⟩,
    ⟨List.Sublist.refl [], fun _ hf => absurd hf (by simp [init]), Nat.zero_le _, rfl,
      Tally.balanced_new _, rfl, rfl, fun _ ho => absurd ho (by simp [init]),
      fun _ hwhy => absurd hwhy (by simp [init])⟩⟩

theorem run_inv (as : List Action) : (Runs.run step init as).Inv :=
  Runs.run_invariant (I := Inv) (fun _ a h => step_inv h a) as init_inv

/-- **The decoder is fed without gaps, and within bounds.**  Whatever packets come, and
whatever GStreamer does in between: the task never panics; what has left the queue is a
prefix of the units that the reassembler makes of the packets, with their start codes, and
while the stream goes on the rest is queued, but for one unit that the task has in hand;
with the first unit that cannot be queued the stream ends, and the decoder's error is the
one it ends with.  The queue has at most 64 buffers and 8 MiB, the channel at most four
frames; the frames that come out of it are a subsequence of the samples, each as long as its
width and height say. -/
theorem decoder_is_fed (as : List Action) :
    let s := Runs.run step init as
    s.stage ≠ .ended .panicked ∧
    (∃ outs, H264RtpReassembler.new.feed s.packets = some (outs, s.reassembler) ∧
      outs.reduceOption = s.units) ∧
    (∃ units, s.units.map annexB = s.released ++ s.decoder.appsrc ++ units.map annexB ∧
      units.length ≤ 1 ∧
      (units ≠ [] →
        (∃ nal n, units = [nal] ∧ (s.stage = .weighing nal n ∨ s.stage = .admitted nal)) ∨
          ∃ e, s.stage = .ended (.decodeFailed e))) ∧
    (∀ e, s.decoder.terminalError = some e → s.stage = .ended (.decodeFailed e)) ∧
    (s.decoder.appsrc.length ≤ maxEncodedBuffers ∧ s.decoder.currentLevelBytes ≤ maxEncodedBytes ∧
      s.frames.length ≤ 4) ∧
    (s.taken ++ s.frames).Sublist s.samples ∧
    ∀ frame ∈ s.samples, frame.data.length = 3 * frame.width.toNat * frame.height.toNat ∧
      frame.data.length ≤ maxVideoBufferBytes := by
  intro s
  obtain ⟨hfeed, hyield⟩ : s.Inv := run_inv as
  obtain ⟨units, hfed, hin⟩ := hfeed.fed
  refine ⟨hfeed.panics, hfed.reads, ⟨units, hfed.fed, hin.length, hin.stages⟩,
    hfeed.healthy, ⟨hfed.counted.trans hfed.buffers, hfed.bytes, hyield.bounded⟩,
    hyield.ordered, hyield.whole⟩

end VideoStream

end Unitree
