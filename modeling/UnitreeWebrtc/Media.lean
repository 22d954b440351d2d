/-
The video path after reassembly (`video/codec.rs`): the encoded queue of the
decoder, and the frames that come back from it.

Every stage has a ceiling of its own.  A unit is at most 8 MiB, and so is the
encoded queue, but a queued unit has four more bytes in front.  A frame is at most
64 MiB, and the media budget of the callback channel is 32 MiB.

* `decodeInner_overflow` — a unit is too much for an idle decoder exactly when it
  leaves no room for the start code;
* `packedBgrFrame_length` — a frame is its rows, three bytes a pixel, whatever the
  stride of the plane was;
* `trySend_idle` — what a channel without outstanding events admits.
-/
import UnitreeWebrtc.Events
import UnitreeWebrtc.Reassembler

namespace Unitree

def checkedAdd (a b : ℕ) : Option ℕ := if a + b ≤ usizeMax then some (a + b) else none

def checkedMul (a b : ℕ) : Option ℕ := if a * b ≤ usizeMax then some (a * b) else none

theorem checkedMul_eq_some {a b c : ℕ} : checkedMul a b = some c ↔ a * b = c ∧ c ≤ usizeMax := by
  rw [checkedMul]
  split <;> constructor <;> intro h
  · rw [Option.some_inj] at h
    exact ⟨h, by omega⟩
  · rw [h.1]
  · exact absurd h (by simp)
  · omega

/-! ### The decoder -/

def maxEncodedBuffers : ℕ := 64

def maxEncodedBytes : ℕ := 8 * 1024 * 1024

inductive H264DecodeError where
  | encodedQueueOverflow
  | pipelineFailed
  | endOfStream
  | bufferAllocationFailed
  | bufferMappingFailed
  | pushFailed
  | frameChannelClosed
deriving DecidableEq

structure DecodedFrame where
  data : List UInt8
  width : UInt32
  height : UInt32

/-- The two kinds of terminal messages on the bus. -/
inductive BusMessage where
  | eos
  | error

/-- What GStreamer does during a call of `decode`: the messages on the bus at the
two looks at it, whether the buffer can be had, written and pushed, and the frame
that is ready (`none` where the channel is closed). -/
structure Pipeline where
  message : Option BusMessage
  allocated : Bool
  mapped : Bool
  pushed : Bool
  messageAfter : Option BusMessage
  frame : Option (Option DecodedFrame)

/-- The decoder with what `appsrc` still has.  `queued_buffers` is a count of its
own: it also counts a buffer whose push failed. -/
structure H264Decoder where
  appsrc : List (List UInt8)
  queuedBuffers : ℕ
  terminalError : Option H264DecodeError

namespace H264Decoder

def currentLevelBytes (d : H264Decoder) : ℕ := (d.appsrc.map List.length).sum

def checkHealth (d : H264Decoder) (message : Option BusMessage) :
    H264Decoder × Except H264DecodeError Unit :=
  match d.terminalError with
  | some e => (d, .error e)
  | none =>
    match message with
    | none => (d, .ok ())
    | some .eos => ({ d with terminalError := some .endOfStream }, .error .endOfStream)
    | some .error => ({ d with terminalError := some .pipelineFailed }, .error .pipelineFailed)

/-- The admission of `decode_inner`: the bytes that the unit takes in the queue. -/
def admission (d : H264Decoder) (nal : List UInt8) : Except H264DecodeError ℕ :=
  match (checkedAdd nal.length 4).filter (· ≤ maxEncodedBytes) with
  | none => .error .encodedQueueOverflow
  | some encodedBytes =>
    if d.queuedBuffers ≥ maxEncodedBuffers ∨
        d.currentLevelBytes > maxEncodedBytes - encodedBytes then
      .error .encodedQueueOverflow
    else .ok encodedBytes

/-- `decode_inner` after the admission. -/
def push (d : H264Decoder) (g : Pipeline) (nal : List UInt8) :
    H264Decoder × Except H264DecodeError (Option DecodedFrame) :=
  if ¬ g.allocated then (d, .error .bufferAllocationFailed)
  else if ¬ g.mapped then (d, .error .bufferMappingFailed)
  else
    let d := { d with queuedBuffers := d.queuedBuffers + 1 }
    if ¬ g.pushed then (d, .error .pushFailed)
    else
      -- the Annex B start code, then the unit
      let d := { d with appsrc := d.appsrc ++ [[0, 0, 0, 1] ++ nal] }
      match d.checkHealth g.messageAfter with
      | (d, .error e) => (d, .error e)
      | (d, .ok ()) =>
        match g.frame with
        | some frame => (d, .ok frame)
        | none => (d, .error .frameChannelClosed)

def decodeInner (d : H264Decoder) (g : Pipeline) (nal : List UInt8) :
    H264Decoder × Except H264DecodeError (Option DecodedFrame) :=
  match d.checkHealth g.message with
  | (d, .error e) => (d, .error e)
  | (d, .ok ()) =>
    if nal = [] then (d, .ok none)
    else
      match d.admission nal with
      | .error e => (d, .error e)
      | .ok _ => d.push g nal

/-- An error ends the stream. -/
def decode (d : H264Decoder) (g : Pipeline) (nal : List UInt8) :
    H264Decoder × Except H264DecodeError (Option DecodedFrame) :=
  match d.decodeInner g nal with
  | (d, .error e) => ({ d with terminalError := some e }, .error e)
  | (d, .ok frame) => (d, .ok frame)

/-- Healthy, and nothing is queued. -/
structure Idle (d : H264Decoder) (g : Pipeline) : Prop where
  error : d.terminalError = none
  message : g.message = none
  buffers : d.queuedBuffers = 0
  bytes : d.currentLevelBytes = 0

theorem checkHealth_overflow {d d' : H264Decoder} {message : Option BusMessage}
    (hd : d.terminalError = none) :
    d.checkHealth message ≠ (d', .error .encodedQueueOverflow) := by
  rw [checkHealth.eq_def, hd]
  rcases message with - | - | - <;> simp

/-- After the admission no error is an overflow. -/
theorem push_overflow {d : H264Decoder} (hd : d.terminalError = none) (g : Pipeline)
    (nal : List UInt8) : (d.push g nal).2 ≠ .error .encodedQueueOverflow := by
  rw [push]
  split
  · simp
  split
  · simp
  dsimp only
  split
  · simp
  split
  next d' e hhealth =>
    intro heq
    rw [Except.error.inj heq] at hhealth
    exact checkHealth_overflow (by exact hd) hhealth
  next =>
    split <;> simp

theorem admission_idle {d : H264Decoder} {g : Pipeline} (h : d.Idle g) (nal : List UInt8) :
    d.admission nal = if nal.length + 4 ≤ maxEncodedBytes then .ok (nal.length + 4)
      else .error .encodedQueueOverflow := by
  have hmax : maxEncodedBytes ≤ usizeMax := by decide
  rw [admission, checkedAdd]
  by_cases hfits : nal.length + 4 ≤ maxEncodedBytes
  · rw [if_pos (hfits.trans hmax), if_pos hfits, Option.filter_some, if_pos (by simpa using hfits)]
    dsimp only
    rw [if_neg]
    rw [h.buffers, h.bytes]
    simp [maxEncodedBuffers]
  · rw [if_neg hfits]
    split
    · rfl
    next encodedBytes hsome =>
      obtain ⟨hsum, hle⟩ := Option.filter_eq_some_iff.mp hsome
      split at hsum
      · rw [Option.some_inj] at hsum
        rw [decide_eq_true_eq] at hle
        omega
      · exact absurd hsum (by simp)

/-- A unit alone is an overflow exactly when the start code does not fit. -/
theorem decodeInner_overflow {d : H264Decoder} {g : Pipeline} (h : d.Idle g) (nal : List UInt8) :
    (d.decodeInner g nal).2 = .error .encodedQueueOverflow ↔ maxEncodedBytes < nal.length + 4 := by
  rw [decodeInner, checkHealth.eq_def, h.error, h.message]
  dsimp only
  split
  next hnil =>
    rw [hnil]
    simp [maxEncodedBytes]
  next =>
    rw [admission_idle h]
    split
    next e he =>
      split at he
      · exact absurd he (by simp)
      next hfits =>
        rw [← Except.error.inj he]
        exact iff_of_true rfl (by omega)
    next bytes hok =>
      split at hok
      next hfits => exact iff_of_false (push_overflow h.error g nal) (by omega)
      next => exact absurd hok (by simp)

end H264Decoder

/-! ### Frames -/

def maxVideoBufferBytes : ℕ := 64 * 1024 * 1024

/-- The negotiated caps of a sample. -/
structure VideoInfo where
  isBgr : Bool
  width : UInt32
  height : UInt32

/-- A buffer as GStreamer maps it; the metadata can differ from the caps. -/
structure VideoFrameRef where
  width : UInt32
  height : UInt32
  planeStride : Int32
  planeOffset : ℕ
  planeData : Option (List UInt8)

structure BufferRef where
  size : ℕ
  mapped : Option VideoFrameRef

/-- The bytes of a row and of the frame. -/
def bgrOutputSize (width height : UInt32) : Option (ℕ × ℕ) :=
  (checkedMul width.toNat 3).bind fun rowBytes =>
    (checkedMul rowBytes height.toNat).bind fun outputBytes =>
      if rowBytes = 0 ∨ height = 0 ∨ outputBytes > maxVideoBufferBytes then none
      else some (rowBytes, outputBytes)

/-- `usize::try_from` of a signed stride. -/
def usizeOf (stride : Int32) : Option ℕ :=
  if 0 ≤ stride.toInt then some stride.toInt.toNat else none

/-- `chunks_exact`: a rest that is too short is left out. -/
def chunksExact (stride : ℕ) (plane : List UInt8) : List (List UInt8) :=
  (List.range (plane.length / stride)).map fun i => (plane.drop (i * stride)).take stride

/-- The rows of a plane without their padding. -/
def packRows (plane : List UInt8) (stride rowBytes height : ℕ) : List UInt8 :=
  ((chunksExact stride plane).take height).flatMap (List.take rowBytes)

/-- `none` is `FlowError::Error`. -/
def packedBgrFrame (buffer : BufferRef) (info : VideoInfo) : Option DecodedFrame :=
  if ¬ info.isBgr then none
  else
    (bgrOutputSize info.width info.height).bind fun _ =>
      buffer.mapped.bind fun frame =>
        (bgrOutputSize frame.width frame.height).bind fun (rowBytes, _) =>
          (usizeOf frame.planeStride).bind fun stride =>
            (checkedMul stride frame.height.toNat).bind fun planeBytes =>
              if stride < rowBytes ∨ planeBytes > maxVideoBufferBytes ∨
                  (checkedAdd frame.planeOffset planeBytes).all (· > buffer.size) then none
              else
                frame.planeData.bind fun plane =>
                  if plane.length < planeBytes then none
                  else some {
                    data := packRows plane stride rowBytes frame.height.toNat
                    width := frame.width
                    height := frame.height }

theorem bgrOutputSize_eq {width height : UInt32} {rowBytes outputBytes : ℕ}
    (h : bgrOutputSize width height = some (rowBytes, outputBytes)) :
    rowBytes = 3 * width.toNat ∧ outputBytes = rowBytes * height.toNat ∧ 0 < rowBytes ∧
      outputBytes ≤ maxVideoBufferBytes := by
  obtain ⟨row, hrow, h⟩ := Option.bind_eq_some_iff.mp h
  obtain ⟨out, hout, h⟩ := Option.bind_eq_some_iff.mp h
  split at h
  · exact absurd h (by simp)
  next hbounds =>
    rw [Option.some_inj, Prod.mk.injEq] at h
    obtain ⟨rfl, rfl⟩ := h
    rw [not_or, not_or, not_lt] at hbounds
    have := (checkedMul_eq_some.mp hrow).1
    exact ⟨by omega, (checkedMul_eq_some.mp hout).1.symm, by omega, hbounds.2.2⟩

theorem length_of_mem_chunksExact {stride : ℕ} {plane row : List UInt8}
    (h : row ∈ chunksExact stride plane) : row.length = stride := by
  obtain ⟨i, hi, rfl⟩ := List.mem_map.mp h
  rw [List.mem_range] at hi
  have hrow : (i + 1) * stride ≤ plane.length :=
    (Nat.mul_le_mul_right stride hi).trans (Nat.div_mul_le_self _ _)
  rw [Nat.add_mul, Nat.one_mul] at hrow
  rw [List.length_take, List.length_drop]
  omega

/-- Rows of one length, packed. -/
theorem length_packRows {plane : List UInt8} {stride rowBytes height : ℕ}
    (hstride : rowBytes ≤ stride) (hrow : 0 < rowBytes) (hplane : stride * height ≤ plane.length) :
    (packRows plane stride rowBytes height).length = rowBytes * height := by
  have hcount : height ≤ plane.length / stride :=
    (Nat.le_div_iff_mul_le (by omega)).mpr (by rw [Nat.mul_comm]; exact hplane)
  have hrows : ((chunksExact stride plane).take height).map (List.length ∘ List.take rowBytes) =
      List.replicate height rowBytes := by
    refine List.eq_replicate_iff.mpr ⟨?_, fun n hn => ?_⟩
    · rw [List.length_map, List.length_take, chunksExact, List.length_map, List.length_range]
      omega
    · obtain ⟨row, hmem, rfl⟩ := List.mem_map.mp hn
      rw [Function.comp_apply, List.length_take,
        length_of_mem_chunksExact (List.mem_of_mem_take hmem)]
      omega
  rw [packRows, List.length_flatMap]
  show (List.map (List.length ∘ List.take rowBytes) _).sum = _
  rw [hrows, List.sum_replicate, smul_eq_mul, Nat.mul_comm]

/-- A frame is as long as its width and height say, within the limit for a buffer. -/
theorem packedBgrFrame_length {buffer : BufferRef} {info : VideoInfo} {frame : DecodedFrame}
    (h : packedBgrFrame buffer info = some frame) :
    frame.data.length = 3 * frame.width.toNat * frame.height.toNat ∧
      frame.data.length ≤ maxVideoBufferBytes := by
  rw [packedBgrFrame] at h
  split at h
  · exact absurd h (by simp)
  obtain ⟨-, -, h⟩ := Option.bind_eq_some_iff.mp h
  obtain ⟨mapped, -, h⟩ := Option.bind_eq_some_iff.mp h
  obtain ⟨⟨rowBytes, outputBytes⟩, hsize, h⟩ := Option.bind_eq_some_iff.mp h
  obtain ⟨stride, -, h⟩ := Option.bind_eq_some_iff.mp h
  obtain ⟨planeBytes, hbytes, h⟩ := Option.bind_eq_some_iff.mp h
  obtain ⟨hrow, hout, hpos, hmax⟩ := bgrOutputSize_eq hsize
  split at h
  · exact absurd h (by simp)
  next hbounds =>
    obtain ⟨plane, -, h⟩ := Option.bind_eq_some_iff.mp h
    split at h
    · exact absurd h (by simp)
    next hplane =>
      rw [Option.some_inj] at h
      subst h
      rw [not_or, not_lt] at hbounds
      have hlength := length_packRows hbounds.1 hpos
        (show stride * mapped.height.toNat ≤ plane.length by
          rw [(checkedMul_eq_some.mp hbytes).1]
          omega)
      rw [hlength, ← hrow, ← hout]
      exact ⟨rfl, hmax⟩

/-! ### The callback budget -/

/-- The event of a frame; the buffer was allocated at the frame's size. -/
def DecodedFrame.event (frame : DecodedFrame) : CallbackEvent :=
  .videoFrame { data := frame.data, capacity := frame.data.length } frame.width frame.height

namespace Channel

/-- A channel for `generation` that can be sent to and has nothing outstanding. -/
structure Idle {ε : Type} (c : Channel ε) (generation : ℕ) : Prop where
  capacity : 1 ≤ c.capacity
  current : c.current = generation
  closed : c.usage.closed = false
  receiver : c.receiverAlive = true
  bytes : ∀ cls, c.usage.bytes cls = 0
  count : ∀ cls, c.usage.count cls = 0
  queue : ∀ cls, c.queue cls = []

/-- With nothing outstanding an event is admitted if its size is within the budget
of its class. -/
theorem trySend_idle {ε : Type} {c : Channel ε} {generation : ℕ} (h : c.Idle generation)
    (size : ε → EventClass × ℕ) (event : ε) :
    (∃ c', c.trySend size generation event = some (c', .ok ())) ↔
      (size event).2 ≤ byteLimit (size event).1 := by
  have hcount : ¬ countLimit c.capacity (size event).1 ≤ 0 := by
    have := h.capacity
    cases (size event).1 <;> simp [countLimit] <;> omega
  rw [trySend, if_neg (not_not.mpr h.current)]
  dsimp only
  rw [if_neg (by simp [h.closed]), if_neg (not_not.mpr h.current), h.bytes, h.count, h.queue,
    h.receiver, Nat.sub_zero]
  by_cases hfits : (size event).2 ≤ byteLimit (size event).1
  · rw [if_neg (by rw [not_or]; exact ⟨by omega, hcount⟩), if_neg (by simp),
      if_neg (by simpa using hcount)]
    exact iff_of_true ⟨_, rfl⟩ hfits
  · rw [if_pos (Or.inl (by omega))]
    exact iff_of_false (by simp) hfits

end Channel

/-- A frame fits the media budget together with the event around it. -/
theorem eventSize_frame (base : ℕ) (frame : DecodedFrame) :
    (eventSize base frame.event).2 ≤ byteLimit (eventSize base frame.event).1 ↔
      frame.data.length + base ≤ mediaBytes := by
  show saturatingAdd frame.data.length base ≤ mediaBytes ↔ _
  simp only [saturatingAdd, mediaBytes, usizeMax]
  omega

/-! ### The limits against each other -/

/-- A unit from the reassembler is within 8 MiB, and an idle decoder refuses it as
an overflow only if the start code does not fit; a frame is within 64 MiB, and an
idle channel admits it exactly if the media budget has room for it. -/
theorem media_limits (base : ℕ) :
    (∀ qs nals r, H264RtpReassembler.new.feed qs = some (nals, r) →
      ∀ nal, some nal ∈ nals → nal.length ≤ maxNalBytes ∧
        ∀ (d : H264Decoder) (g : Pipeline), d.Idle g →
          ((d.decodeInner g nal).2 = .error .encodedQueueOverflow ↔
            maxEncodedBytes < nal.length + 4)) ∧
    ∀ buffer info frame, packedBgrFrame buffer info = some frame →
      frame.data.length = 3 * frame.width.toNat * frame.height.toNat ∧
      frame.data.length ≤ maxVideoBufferBytes ∧
      ∀ (c : Channel CallbackEvent) (generation : ℕ), c.Idle generation →
        ((∃ c', c.trySend (eventSize base) generation frame.event = some (c', .ok ())) ↔
          3 * frame.width.toNat * frame.height.toNat + base ≤ mediaBytes) := by
  constructor
  · intro qs nals r hfeed nal hnal
    obtain ⟨nals', r', hfeed', -, -, hsent⟩ := H264RtpReassembler.feed_spec qs
      (show H264RtpReassembler.Reassembles [] H264RtpReassembler.new from Or.inl rfl)
    rw [hfeed, Option.some_inj, Prod.mk.injEq] at hfeed'
    obtain ⟨rfl, rfl⟩ := hfeed'
    obtain ⟨i, hi⟩ := List.getElem?_of_mem hnal
    exact ⟨(hsent i nal hi).2, fun d g hidle => H264Decoder.decodeInner_overflow hidle nal⟩
  · intro buffer info frame hframe
    obtain ⟨hlength, hmax⟩ := packedBgrFrame_length hframe
    refine ⟨hlength, hmax, fun c generation hidle => ?_⟩
    rw [Channel.trySend_idle hidle, eventSize_frame, hlength]

/-- A decoder that has just been started, with a pipeline that works. -/
theorem H264Decoder.idle_new : Idle { appsrc := [], queuedBuffers := 0, terminalError := none }
    { message := none, allocated := true, mapped := true, pushed := true, messageAfter := none
      frame := some none } :=
  ⟨rfl, rfl, rfl, rfl⟩

theorem Channel.idle_fresh {ε : Type} {capacity : ℕ} (h : 1 ≤ capacity) :
    (Channel.fresh capacity : Channel ε).Idle 0 :=
  ⟨h, rfl, rfl, rfl, fun _ => rfl, fun _ => rfl, fun _ => rfl⟩

/-- A unit of two bytes and a frame of four pixels pass. -/
theorem media_limits_small :
    (H264Decoder.decodeInner { appsrc := [], queuedBuffers := 0, terminalError := none }
      { message := none, allocated := true, mapped := true, pushed := true, messageAfter := none
        frame := some none } [0x65, 1]).2 ≠ .error .encodedQueueOverflow ∧
    ∃ frame c', packedBgrFrame
        { size := 20, mapped := some {
            width := 2, height := 2, planeStride := 8, planeOffset := 4
            planeData := some [1, 2, 3, 4, 5, 6, 88, 88, 7, 8, 9, 10, 11, 12, 88, 88] } }
        { isBgr := true, width := 2, height := 2 } = some frame ∧
      frame.data = [1, 2, 3, 4, 5, 6, 7, 8, 9, 10, 11, 12] ∧
      (Channel.fresh 1).trySend (eventSize 200) 0 frame.event = some (c', .ok ()) := by
  have hunit :=
    ((media_limits 200).1 [{ payload := [0x65, 1], sequenceNumber := 0, timestamp := 0 }]
    [some [0x65, 1]] H264RtpReassembler.new (by decide) [0x65, 1] (by simp)).2 _ _
    H264Decoder.idle_new
  constructor
  · rw [Ne, hunit]
    decide
  · refine ⟨⟨[1, 2, 3, 4, 5, 6, 7, 8, 9, 10, 11, 12], 2, 2⟩, ?_⟩
    obtain ⟨-, -, hsend⟩ := (media_limits 200).2 _ _ ⟨[1, 2, 3, 4, 5, 6, 7, 8, 9, 10, 11, 12], 2, 2⟩
      (show packedBgrFrame
        { size := 20, mapped := some {
            width := 2, height := 2, planeStride := 8, planeOffset := 4
            planeData := some [1, 2, 3, 4, 5, 6, 88, 88, 7, 8, 9, 10, 11, 12, 88, 88] } }
        { isBgr := true, width := 2, height := 2 } = _ from rfl)
    obtain ⟨c', hc'⟩ := (hsend _ 0 (Channel.idle_fresh (le_refl 1))).mpr (by decide)
    exact ⟨c', rfl, rfl, hc'⟩

/-- A unit of 8 MiB in fragments is returned, and refused by an idle decoder. -/
theorem longest_refused {d : H264Decoder} {g : Pipeline} (hidle : d.Idle g)
    {pieces : List (List UInt8)} (hlength : pieces.flatten.length + 1 = maxNalBytes)
    (htwo : 2 ≤ pieces.length) (hpieces : ∀ piece ∈ pieces, piece.length + 2 ≤ maxNalBytes) :
    ∃ nals nal, H264RtpReassembler.new.feed (RtpPacket.fragments 0x65 0 0 pieces) =
        some (nals ++ [some nal], H264RtpReassembler.new) ∧
      (d.decodeInner g nal).2 = .error .encodedQueueOverflow := by
  refine ⟨_, _, H264RtpReassembler.feed_of_not_stale (by decide) (by decide) hlength.le htwo
    hpieces rfl, ?_⟩
  rw [H264Decoder.decodeInner_overflow hidle, List.length_cons, hlength]
  decide

/-- A frame whose plane has no padding is returned; over 32 MiB no channel has
room for it. -/
theorem large_frame_refused {plane : List UInt8} (hplane : plane.length = 50331648) :
    ∃ frame, packedBgrFrame
        { size := 50331648, mapped := some {
            width := 4096, height := 4096, planeStride := 12288, planeOffset := 0
            planeData := some plane } }
        { isBgr := true, width := 4096, height := 4096 } = some frame ∧
      ∀ base c', (Channel.fresh 256).trySend (eventSize base) 0 frame.event ≠
        some (c', .ok ()) := by
  have hsize : bgrOutputSize 4096 4096 = some (12288, 50331648) := by decide
  have hstride : usizeOf 12288 = some 12288 := by decide
  have hbytes : checkedMul 12288 (4096 : UInt32).toNat = some 50331648 := by decide
  have hframe : packedBgrFrame
      { size := 50331648, mapped := some {
          width := 4096, height := 4096, planeStride := 12288, planeOffset := 0
          planeData := some plane } }
      { isBgr := true, width := 4096, height := 4096 } = some {
        data := packRows plane 12288 12288 (4096 : UInt32).toNat
        width := 4096, height := 4096 } := by
    have hoffset : (checkedAdd 0 50331648).all (· > 50331648) = false := by decide
    simp only [packedBgrFrame, hsize, hstride, hbytes, hoffset, Option.bind_some, hplane]
    simp [maxVideoBufferBytes]
  refine ⟨_, hframe, fun base c' hsend => ?_⟩
  have hadmitted := (Channel.trySend_idle (Channel.idle_fresh (by decide)) (eventSize base)
    _).mp ⟨c', hsend⟩
  rw [eventSize_frame, (packedBgrFrame_length hframe).1] at hadmitted
  have hbudget : mediaBytes < 3 * (4096 : UInt32).toNat * (4096 : UInt32).toNat := by decide
  exact absurd ((Nat.le_add_right _ _).trans hadmitted) (not_le.mpr hbudget)

/-- Both at once: 178481 fragments of 47 bytes, and a frame of 4096 by 4096. -/
theorem media_limits_disagree :
    (∃ nals nal, H264RtpReassembler.new.feed
        (RtpPacket.fragments 0x65 0 0 (List.replicate 178481 (List.replicate 47 0))) =
          some (nals ++ [some nal], H264RtpReassembler.new) ∧
      (H264Decoder.decodeInner { appsrc := [], queuedBuffers := 0, terminalError := none }
        { message := none, allocated := true, mapped := true, pushed := true, messageAfter := none
          frame := some none } nal).2 = .error .encodedQueueOverflow) ∧
    ∃ frame, packedBgrFrame
        { size := 50331648, mapped := some {
            width := 4096, height := 4096, planeStride := 12288, planeOffset := 0
            planeData := some (List.replicate 50331648 0) } }
        { isBgr := true, width := 4096, height := 4096 } = some frame ∧
      ∀ base c', (Channel.fresh 256).trySend (eventSize base) 0 frame.event ≠
        some (c', .ok ()) := by
  refine ⟨longest_refused H264Decoder.idle_new ?_ ?_ fun piece hpiece => ?_,
    large_frame_refused List.length_replicate⟩
  · rw [List.length_flatten, List.map_replicate, List.length_replicate, List.sum_replicate_nat]
    decide
  · rw [List.length_replicate]
    decide
  · rw [List.eq_of_mem_replicate hpiece, List.length_replicate]
    decide

end Unitree
