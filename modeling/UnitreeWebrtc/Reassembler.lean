/-
H.264 units from RTP packets (`video/h264_rtp.rs`).

A unit that fits a packet is the packet.  A longer one comes as FU-A fragments:
two header bytes each, with the unit's header split over them, and a piece of the
rest.  The reassembler has one buffer and no memory of packets, so everything it
knows about the history has to be in its state: the buffer is what the last
packets carried, and `next_rtp` is what has to come next.

* `Reassembles` — what the state knows about the packets so far;
* `processRtpPacket_step` — a packet keeps it, and a unit is returned only
  for a whole run of fragments;
* `feed_emits_sent` — hence every unit returned was sent;
* `feed_fragments` — and every unit sent in fragments is returned.
-/
import Mathlib

namespace Unitree

/-! ### The reassembler -/

def fuAType : UInt8 := 28

def maxNalBytes : ℕ := 8 * 1024 * 1024

structure H264RtpReassembler where
  buffer : List UInt8
  inProgress : Bool
  /-- The sequence number and timestamp that the next fragment must have. -/
  nextRtp : Option (UInt16 × UInt32)
deriving DecidableEq

/-- A call of `process_rtp_packet`. -/
structure RtpPacket where
  payload : List UInt8
  sequenceNumber : UInt16
  timestamp : UInt32

/-- `(1..=23).contains`: the types of single units. -/
def isUnitType (t : UInt8) : Bool := 1 ≤ t ∧ t ≤ 23

namespace H264RtpReassembler

def new : H264RtpReassembler := { buffer := [], inProgress := false, nextRtp := none }

def reset (r : H264RtpReassembler) : H264RtpReassembler :=
  { r with buffer := [], inProgress := false, nextRtp := none }

/-- A start fragment from before what the reassembler waits for, by half-range
order. -/
def isStale : Option (UInt16 × UInt32) → Option (UInt16 × UInt32) → Bool
  | some (sequence, _), some (nextSequence, _) => sequence - nextSequence ≥ 0x8000
  | _, _ => false

/-- The end of `process_payload`: the body goes into the buffer, and the last one
takes the unit out.  `none` where `MAX_NAL_BYTES - buffer.len()` underflows. -/
def extend (r : H264RtpReassembler) (body : List UInt8) (ends : Bool)
    (rtp : Option (UInt16 × UInt32)) : Option (Option (List UInt8) × H264RtpReassembler) :=
  if r.buffer.length > maxNalBytes then none
  else if body.length > maxNalBytes - r.buffer.length then some (none, r.reset)
  else
    let r := { r with
      buffer := r.buffer ++ body
      nextRtp := rtp.map fun (sequence, timestamp) => (sequence + 1, timestamp) }
    if ends then some (some r.buffer, { r with buffer := [], inProgress := false, nextRtp := none })
    else some (none, r)

/-- `process_payload` from the FU header on. -/
def processFuA (r : H264RtpReassembler) (indicator fuHeader : UInt8) (body : List UInt8)
    (rtp : Option (UInt16 × UInt32)) : Option (Option (List UInt8) × H264RtpReassembler) :=
  let start : Bool := fuHeader &&& 0x80 ≠ 0
  let ends : Bool := fuHeader &&& 0x40 ≠ 0
  let unitType := fuHeader &&& 0x1f
  if start && ends || fuHeader &&& 0x20 ≠ 0 || !isUnitType unitType then some (none, r.reset)
  else
    let header := indicator &&& 0x60 ||| unitType
    if !start && r.nextRtp ≠ rtp then some (none, r.reset)
    else if start && isStale rtp r.nextRtp then some (none, r.reset)
    else if start then extend { r.reset with buffer := [header], inProgress := true } body ends rtp
    else if !r.inProgress || r.buffer.head? ≠ some header then some (none, r.reset)
    else r.extend body ends rtp

/-- The unit this payload completes, if any, and the state after it; `none` where
a subtraction underflows. -/
def processPayload (r : H264RtpReassembler) (payload : List UInt8)
    (rtp : Option (UInt16 × UInt32)) : Option (Option (List UInt8) × H264RtpReassembler) :=
  match payload with
  | [] => some (none, r.reset)
  | first :: rest =>
    if payload.length > maxNalBytes ∨ first &&& 0x80 ≠ 0 then some (none, r.reset)
    else if first &&& 0x1f ≠ fuAType then
      -- aggregation packets are not single units
      some (if isUnitType (first &&& 0x1f) then some payload else none, r.reset)
    else
      match rest with
      | [] => some (none, r.reset)
      | fuHeader :: body => r.processFuA first fuHeader body rtp

def processRtpPacket (r : H264RtpReassembler) (q : RtpPacket) :
    Option (Option (List UInt8) × H264RtpReassembler) :=
  r.processPayload q.payload (some (q.sequenceNumber, q.timestamp))

/-- Packet after packet, with what each one returned. -/
def feed (r : H264RtpReassembler) :
    List RtpPacket → Option (List (Option (List UInt8)) × H264RtpReassembler)
  | [] => some ([], r)
  | q :: rest =>
    (r.processRtpPacket q).bind fun (nal, r) =>
      (r.feed rest).map fun (nals, r) => (nal :: nals, r)

theorem reset_eq (r : H264RtpReassembler) : r.reset = new := rfl

theorem feed_cons {r r₁ r₂ : H264RtpReassembler} {q : RtpPacket} {rest : List RtpPacket}
    {nal : Option (List UInt8)} {nals : List (Option (List UInt8))}
    (h : r.processRtpPacket q = some (nal, r₁)) (hrest : r₁.feed rest = some (nals, r₂)) :
    r.feed (q :: rest) = some (nal :: nals, r₂) := by
  rw [feed, h, Option.bind_some]
  show (r₁.feed rest).map _ = _
  rw [hrest]
  rfl

end H264RtpReassembler

/-! ### Fragments -/

namespace RtpPacket

/-- The piece of the unit that a fragment has. -/
def body (q : RtpPacket) : List UInt8 := q.payload.drop 2

/-- A FU-A fragment: forbidden and reserved bit are clear. -/
structure IsFuA (q : RtpPacket) (nri unitType : UInt8) (start ends : Bool) : Prop where
  split : ∃ indicator fuHeader, q.payload = indicator :: fuHeader :: q.body ∧
    indicator &&& 0x80 = 0 ∧ indicator &&& 0x1f = fuAType ∧ indicator &&& 0x60 = nri ∧
    fuHeader &&& 0x20 = 0 ∧ fuHeader &&& 0x1f = unitType ∧
    start = decide (fuHeader &&& 0x80 ≠ 0) ∧ ends = decide (fuHeader &&& 0x40 ≠ 0)

/-- Fragments of one unit, from its first one on: consecutive sequence numbers
from `n` and one timestamp `t`.  Only the first has the start bit, and only the
last can have the end bit. -/
def AreFragments (qs : List RtpPacket) (nri unitType : UInt8) (n : UInt16) (t : UInt32)
    (whole : Bool) : Prop :=
  ∀ i q, qs[i]? = some q →
    q.IsFuA nri unitType (i = 0) (whole && i + 1 = qs.length) ∧
    q.sequenceNumber = n + UInt16.ofNat i ∧ q.timestamp = t

/-- The unit that fragments carry. -/
def assemble (qs : List RtpPacket) (nri unitType : UInt8) : List UInt8 :=
  (nri ||| unitType) :: (qs.map body).flatten

/-- One more fragment. -/
theorem AreFragments.concat {qs : List RtpPacket} {nri unitType : UInt8} {n : UInt16} {t : UInt32}
    {whole : Bool} (h : AreFragments qs nri unitType n t false) (hne : qs ≠ []) {q : RtpPacket}
    (hq : q.IsFuA nri unitType false whole) (hn : q.sequenceNumber = n + UInt16.ofNat qs.length)
    (ht : q.timestamp = t) : AreFragments (qs ++ [q]) nri unitType n t whole := by
  intro i q' hq'
  have hpos : 0 < qs.length := List.length_pos_iff.mpr hne
  rw [List.length_append, List.length_singleton]
  by_cases hi : i < qs.length
  · rw [List.getElem?_append_left hi] at hq'
    obtain ⟨hfu, hseq, htime⟩ := h i q' hq'
    have hlast : (whole && decide (i + 1 = qs.length + 1)) =
        (false && decide (i + 1 = qs.length)) := by
      rw [Bool.false_and, decide_eq_false (by omega), Bool.and_false]
    rw [hlast]
    exact ⟨hfu, hseq, htime⟩
  · have hle : i < (qs ++ [q]).length := (List.getElem?_eq_some_iff.mp hq').choose
    rw [List.length_append, List.length_singleton] at hle
    have hlast : i = qs.length := by omega
    subst hlast
    rw [List.getElem?_concat_length, Option.some_inj] at hq'
    subst hq'
    rw [decide_eq_false (by omega), decide_eq_true rfl, Bool.and_true]
    exact ⟨hq, hn, ht⟩

theorem areFragments_singleton {q : RtpPacket} {nri unitType : UInt8}
    (hq : q.IsFuA nri unitType true false) :
    AreFragments [q] nri unitType q.sequenceNumber q.timestamp false := by
  intro i q' hq'
  obtain ⟨hi, -⟩ := List.getElem?_eq_some_iff.mp hq'
  have hzero : i = 0 := by simpa using hi
  subst hzero
  rw [List.getElem?_cons_zero, Option.some_inj] at hq'
  subst hq'
  exact ⟨by simpa using hq, by simp, rfl⟩

theorem assemble_concat (qs : List RtpPacket) (q : RtpPacket) (nri unitType : UInt8) :
    assemble (qs ++ [q]) nri unitType = assemble qs nri unitType ++ q.body := by
  simp [assemble]

end RtpPacket

/-! ### The header byte -/

/-- The two halves of a unit's header can be read back. -/
theorem header_nri (a b : UInt8) : (a &&& 0x60 ||| b &&& 0x1f) &&& 0x60 = a &&& 0x60 := by
  apply UInt8.toBitVec_inj.mp
  ext i hi
  interval_cases i <;> simp

theorem header_unitType (a b : UInt8) : (a &&& 0x60 ||| b &&& 0x1f) &&& 0x1f = b &&& 0x1f := by
  apply UInt8.toBitVec_inj.mp
  ext i hi
  interval_cases i <;> simp

namespace H264RtpReassembler

open RtpPacket

/-! ### What the state knows -/

/-- The state after these packets: nothing is pending, or the last packets are
the fragments in the buffer and the next one is known. -/
def Reassembles (history : List RtpPacket) (r : H264RtpReassembler) : Prop :=
  r = new ∨ ∃ before qs nri unitType n t, history = before ++ qs ∧ qs ≠ [] ∧
    AreFragments qs nri unitType n t false ∧ (assemble qs nri unitType).length ≤ maxNalBytes ∧
    r = { buffer := assemble qs nri unitType, inProgress := true
          nextRtp := some (n + UInt16.ofNat qs.length, t) }

/-- A single unit. -/
def IsSingle (q : RtpPacket) (nal : List UInt8) : Prop :=
  nal = q.payload ∧ ∃ first rest, q.payload = first :: rest ∧ first &&& 0x80 = 0 ∧
    isUnitType (first &&& 0x1f) = true

/-- The unit was sent with the last packets: in the last one, or in fragments. -/
def Sent (history : List RtpPacket) (nal : List UInt8) : Prop :=
  (∃ before q, history = before ++ [q] ∧ IsSingle q nal) ∨
    ∃ before qs nri unitType n t, history = before ++ qs ∧ 2 ≤ qs.length ∧
      isUnitType unitType = true ∧ AreFragments qs nri unitType n t true ∧
      nal = assemble qs nri unitType

variable {history : List RtpPacket} {r : H264RtpReassembler} {q : RtpPacket}

/-- What a call gives back, and the state it leaves. -/
def Step (history : List RtpPacket) (result : Option (Option (List UInt8) × H264RtpReassembler)) :
    Prop :=
  ∃ out r', result = some (out, r') ∧ Reassembles history r' ∧
    ∀ nal, out = some nal → Sent history nal ∧ nal.length ≤ maxNalBytes

theorem step_reset (history : List RtpPacket) (r : H264RtpReassembler) :
    Step history (some (none, r.reset)) :=
  ⟨none, _, rfl, Or.inl (reset_eq r), fun _ h => absurd h (by simp)⟩

/-- The body of a fragment goes into a buffer that holds the fragments before it. -/
theorem step_extend {before qs : List RtpPacket} {nri unitType : UInt8} {n : UInt16} {t : UInt32}
    {ends : Bool} (hfragments : AreFragments (qs ++ [q]) nri unitType n t ends)
    (hunit : isUnitType unitType = true) (hends : ends = true → qs ≠ [])
    (hseq : q.sequenceNumber = n + UInt16.ofNat qs.length) (ht : q.timestamp = t)
    (hlength : (assemble qs nri unitType).length ≤ maxNalBytes)
    (hbuffer : r.buffer = assemble qs nri unitType) (hprogress : r.inProgress = true) :
    Step (before ++ (qs ++ [q])) (r.extend q.body ends (some (q.sequenceNumber, q.timestamp))) := by
  rw [extend, hbuffer, if_neg (by omega)]
  split
  · exact step_reset _ _
  next hfits =>
    have hwhole : (assemble (qs ++ [q]) nri unitType).length ≤ maxNalBytes := by
      rw [assemble_concat, List.length_append]
      omega
    dsimp only [Option.map_some]
    rw [← assemble_concat]
    split
    next hend =>
      subst hend
      refine ⟨_, _, rfl, Or.inl rfl, fun nal hnal => ?_⟩
      rw [Option.some_inj] at hnal
      subst hnal
      refine ⟨Or.inr ⟨before, qs ++ [q], nri, unitType, n, t, rfl, ?_, hunit, hfragments, rfl⟩,
        hwhole⟩
      have := List.length_pos_iff.mpr (hends rfl)
      rw [List.length_append, List.length_singleton]
      omega
    next hend =>
      rw [Bool.not_eq_true] at hend
      subst hend
      refine ⟨none, _, rfl, Or.inr ⟨before, qs ++ [q], nri, unitType, n, t, rfl, by simp,
        hfragments, hwhole, ?_⟩, fun _ h => absurd h (by simp)⟩
      rw [hprogress, hseq, ht, List.length_append, List.length_singleton]
      simp [UInt16.add_assoc]

/-- Fragments of one header byte are of one unit type and importance. -/
theorem header_inj {qs : List RtpPacket} {nri unitType : UInt8} {n : UInt16} {t : UInt32}
    {whole : Bool} (h : AreFragments qs nri unitType n t whole) (hne : qs ≠ []) {a b : UInt8}
    (heq : nri ||| unitType = a &&& 0x60 ||| b &&& 0x1f) :
    nri = a &&& 0x60 ∧ unitType = b &&& 0x1f := by
  obtain ⟨first, rest, rfl⟩ := List.exists_cons_of_ne_nil hne
  obtain ⟨⟨⟨a', b', -, -, -, hnri, -, hunit, -⟩⟩, -⟩ := h 0 first rfl
  rw [← hnri, ← hunit] at heq ⊢
  constructor
  · rw [← header_nri a' b', heq, header_nri]
  · rw [← header_unitType a' b', heq, header_unitType]

/-- A fragment: it starts a unit, continues the pending one, or resets. -/
theorem step_fuA (h : Reassembles history r) {indicator fuHeader : UInt8}
    (hpayload : q.payload = indicator :: fuHeader :: q.body) (hforbidden : indicator &&& 0x80 = 0)
    (htype : indicator &&& 0x1f = fuAType) :
    Step (history ++ [q])
      (r.processFuA indicator fuHeader q.body (some (q.sequenceNumber, q.timestamp))) := by
  simp only [processFuA]
  split
  · exact step_reset _ _
  next hvalid =>
    simp only [Bool.or_eq_true, Bool.and_eq_true, decide_eq_true_eq, Bool.not_eq_true',
      not_or, not_and, not_not, Bool.not_eq_false] at hvalid
    obtain ⟨⟨hboth, hreserved⟩, hunit⟩ := hvalid
    have hfu : q.IsFuA (indicator &&& 0x60) (fuHeader &&& 0x1f)
        (fuHeader &&& 0x80 ≠ 0) (fuHeader &&& 0x40 ≠ 0) :=
      ⟨indicator, fuHeader, hpayload, hforbidden, htype, rfl, hreserved, rfl, rfl, rfl⟩
    split
    · exact step_reset _ _
    next hnext =>
      split
      · exact step_reset _ _
      next hstale =>
        split
        next hstart =>
          -- the first fragment: what was pending is dropped
          rw [decide_eq_true_eq] at hstart
          have hend : decide (fuHeader &&& 0x40 ≠ 0) = false := by simpa using hboth hstart
          rw [decide_eq_true hstart, hend] at hfu
          rw [hend]
          have hfragments := areFragments_singleton hfu
          show Step (history ++ ([] ++ [q])) _
          exact step_extend hfragments hunit (by simp) (by simp) rfl
            (by simp [assemble, maxNalBytes]) (by simp [assemble]) rfl
        next hstart =>
          split
          · exact step_reset _ _
          next hpending =>
            rw [decide_eq_true_eq, not_not] at hstart
            simp only [Bool.or_eq_true, Bool.not_eq_true', decide_eq_true_eq, not_or,
              Bool.not_eq_false, not_not] at hpending
            simp only [hstart, Bool.and_eq_true, Bool.not_eq_true', decide_eq_true_eq, not_and,
              not_not] at hnext
            have hrtp := hnext (by simp)
            rcases h with rfl |
                ⟨before, qs, nri, unitType, n, t, rfl, hne, hfragments, hlength, rfl⟩
            · exact absurd hpending.1 (by simp [new])
            · -- it has the header, the number and the time of the pending unit
              simp only [Option.some_inj, Prod.mk.injEq] at hrtp
              obtain ⟨hseq, htime⟩ := hrtp
              have hhead : nri ||| unitType = indicator &&& 0x60 ||| fuHeader &&& 0x1f :=
                Option.some_inj.mp hpending.2
              obtain ⟨rfl, rfl⟩ := header_inj hfragments hne hhead
              rw [decide_eq_false (not_not.mpr hstart)] at hfu
              rw [List.append_assoc]
              exact step_extend (hfragments.concat hne hfu hseq.symm htime.symm) hunit
                (fun _ => hne) hseq.symm htime.symm hlength rfl rfl

/-- One packet, from a state that knows the history. -/
theorem processRtpPacket_step (h : Reassembles history r) (q : RtpPacket) :
    Step (history ++ [q]) (r.processRtpPacket q) := by
  rw [processRtpPacket, processPayload.eq_def]
  split
  · exact step_reset _ _
  next first rest hpayload =>
    split
    · exact step_reset _ _
    next hadmitted =>
      rw [not_or, not_lt, not_not] at hadmitted
      obtain ⟨hlength, hforbidden⟩ := hadmitted
      split
      · refine ⟨_, _, rfl, Or.inl (reset_eq r), fun nal hnal => ?_⟩
        split at hnal
        next hunit =>
          rw [Option.some_inj] at hnal
          subst hnal
          exact ⟨Or.inl ⟨history, q, rfl, rfl, first, rest, hpayload, hforbidden, hunit⟩, hlength⟩
        next => exact absurd hnal (by simp)
      next htype =>
        rw [not_not] at htype
        split
        · exact step_reset _ _
        next fuHeader body =>
          have hbody : q.body = body := by rw [RtpPacket.body, hpayload]; rfl
          rw [← hbody] at hpayload ⊢
          exact step_fuA h hpayload hforbidden htype

theorem Reassembles.length (h : Reassembles history r) : r.buffer.length ≤ maxNalBytes := by
  rcases h with rfl | ⟨before, qs, nri, unitType, n, t, -, -, -, hlength, rfl⟩
  · exact Nat.zero_le _
  · exact hlength

/-- The same, packet after packet. -/
theorem feed_spec (qs : List RtpPacket) : ∀ {history : List RtpPacket} {r : H264RtpReassembler},
    Reassembles history r → ∃ nals r', r.feed qs = some (nals, r') ∧
      Reassembles (history ++ qs) r' ∧ nals.length = qs.length ∧
      ∀ i nal, nals[i]? = some (some nal) →
        Sent (history ++ qs.take (i + 1)) nal ∧ nal.length ≤ maxNalBytes := by
  induction qs with
  | nil =>
    intro history r h
    exact ⟨[], r, rfl, by simpa using h, rfl, fun i nal hi => absurd hi (by simp)⟩
  | cons q rest ih =>
    intro history r h
    obtain ⟨out, r₁, hstep, h₁, hsent⟩ := processRtpPacket_step h q
    obtain ⟨nals, r₂, hfeed, h₂, hlength, hsents⟩ := ih h₁
    refine ⟨out :: nals, r₂, feed_cons hstep hfeed, ?_,
      by rw [List.length_cons, List.length_cons, hlength], fun i nal hi => ?_⟩
    · rw [List.append_assoc] at h₂
      exact h₂
    · cases i with
      | zero =>
        rw [List.getElem?_cons_zero, Option.some_inj] at hi
        rw [List.take_succ_cons, List.take_zero]
        exact hsent nal hi
      | succ i =>
        rw [List.getElem?_cons_succ] at hi
        have := hsents i nal hi
        rw [List.append_assoc] at this
        exact this

/-- Whatever packets arrive: no subtraction underflows, in no state is the buffer
over the limit, and every unit returned was sent.  It is the packet of the call,
a single unit, or the last packets are its fragments, whole, in order and of one
time. -/
theorem feed_emits_sent (qs : List RtpPacket) :
    ∃ nals r, new.feed qs = some (nals, r) ∧ r.buffer.length ≤ maxNalBytes ∧
      nals.length = qs.length ∧ ∀ i nal, nals[i]? = some (some nal) →
        Sent (qs.take (i + 1)) nal ∧ nal.length ≤ maxNalBytes := by
  obtain ⟨nals, r, hfeed, hr, hlength, hsent⟩ := feed_spec qs
    (show Reassembles [] new from Or.inl rfl)
  exact ⟨nals, r, hfeed, hr.length, hlength, hsent⟩

end H264RtpReassembler

/-! ### Fragmentation -/

/-- The FU-A fragment of a unit with header `h` that carries `piece`. -/
def RtpPacket.fragment (h : UInt8) (n : UInt16) (t : UInt32) (start ends : Bool)
    (piece : List UInt8) : RtpPacket where
  payload := (h &&& 0x60 ||| fuAType) ::
    ((if start then 0x80 else 0) ||| (if ends then 0x40 else 0) ||| h &&& 0x1f) :: piece
  sequenceNumber := n
  timestamp := t

/-- The rest of a unit's fragments, with the numbers from `n` on. -/
def RtpPacket.continuation (h : UInt8) (n : UInt16) (t : UInt32) :
    List (List UInt8) → List RtpPacket
  | [] => []
  | [piece] => [fragment h n t false true piece]
  | piece :: rest => fragment h n t false false piece :: continuation h (n + 1) t rest

/-- A unit in fragments, the pieces of everything but its header given. -/
def RtpPacket.fragments (h : UInt8) (n : UInt16) (t : UInt32) : List (List UInt8) → List RtpPacket
  | [] => []
  | piece :: rest => fragment h n t true false piece :: continuation h (n + 1) t rest

namespace H264RtpReassembler

open RtpPacket

/-- The bytes of a fragment, read back. -/
theorem indicator_bits (h : UInt8) :
    (h &&& 0x60 ||| fuAType) &&& 0x80 = 0 ∧ (h &&& 0x60 ||| fuAType) &&& 0x1f = fuAType ∧
      (h &&& 0x60 ||| fuAType) &&& 0x60 = h &&& 0x60 := by
  refine ⟨?_, ?_, ?_⟩ <;> apply UInt8.toBitVec_inj.mp <;> ext i hi <;>
    interval_cases i <;> simp [fuAType]

theorem fuHeader_bits (h : UInt8) (start ends : Bool) :
    let fu := (if start then 0x80 else 0) ||| (if ends then 0x40 else 0) ||| h &&& 0x1f
    fu &&& 0x80 = (if start then 0x80 else 0) ∧ fu &&& 0x40 = (if ends then 0x40 else 0) ∧
      fu &&& 0x20 = 0 ∧ fu &&& 0x1f = h &&& 0x1f := by
  cases start <;> cases ends <;> refine ⟨?_, ?_, ?_, ?_⟩ <;> apply UInt8.toBitVec_inj.mp <;>
    ext i hi <;> interval_cases i <;> simp

theorem header_bits {h : UInt8} (hforbidden : h &&& 0x80 = 0) : h &&& 0x60 ||| h &&& 0x1f = h := by
  have hbit : h.toBitVec[7] = false := by
    have := congrArg (fun x => x.toBitVec[7]) hforbidden
    simpa using this
  apply UInt8.toBitVec_inj.mp
  ext i hi
  interval_cases i <;> simp [hbit]

/-- A fragment goes straight to the FU-A part. -/
theorem processRtpPacket_fragment (r : H264RtpReassembler) (h : UInt8) (n : UInt16) (t : UInt32)
    (start ends : Bool) {piece : List UInt8} (hpiece : piece.length + 2 ≤ maxNalBytes) :
    r.processRtpPacket (fragment h n t start ends piece) =
      r.processFuA (h &&& 0x60 ||| fuAType)
        ((if start then 0x80 else 0) ||| (if ends then 0x40 else 0) ||| h &&& 0x1f) piece
        (some (n, t)) := by
  obtain ⟨hforbidden, htype, -⟩ := indicator_bits h
  have hlength : ¬ ((fragment h n t start ends piece).payload.length > maxNalBytes ∨
      (h &&& 0x60 ||| fuAType) &&& 0x80 ≠ 0) := by
    rw [not_or, not_lt, not_not]
    refine ⟨?_, hforbidden⟩
    show (piece.length + 1) + 1 ≤ maxNalBytes
    omega
  rw [processRtpPacket, fragment, processPayload]
  rw [fragment] at hlength
  rw [if_neg hlength, if_neg (not_not.mpr htype)]

variable {r : H264RtpReassembler} {h : UInt8} {n : UInt16} {t : UInt32} {piece : List UInt8}

/-- The first fragment, unless it is stale: whatever was pending, the buffer now
holds the header and the first piece. -/
theorem processRtpPacket_start (hforbidden : h &&& 0x80 = 0)
    (hunit : isUnitType (h &&& 0x1f) = true) (hpiece : piece.length + 2 ≤ maxNalBytes)
    (hstale : isStale (some (n, t)) r.nextRtp = false) :
    r.processRtpPacket (fragment h n t true false piece) =
      some (none, { buffer := h :: piece, inProgress := true, nextRtp := some (n + 1, t) }) := by
  obtain ⟨hstart, hend, hreserved, htype⟩ := fuHeader_bits h true false
  obtain ⟨-, -, hnri⟩ := indicator_bits h
  have hheader : ¬ [h].length > maxNalBytes := by
    rw [List.length_singleton]
    omega
  have hfits : ¬ piece.length > maxNalBytes - [h].length := by
    rw [List.length_singleton]
    omega
  rw [processRtpPacket_fragment r h n t true false hpiece]
  generalize (if true = true then (0x80 : UInt8) else 0) ||| (if false = true then 0x40 else 0) |||
    h &&& 0x1f = fuHeader at *
  simp only [processFuA, hstart, hend, hreserved, htype, hunit, hnri, hstale,
    header_bits hforbidden, extend, if_neg hheader, if_neg hfits]
  simp

/-- A fragment that the reassembler waits for. -/
theorem processRtpPacket_next (hforbidden : h &&& 0x80 = 0)
    (hunit : isUnitType (h &&& 0x1f) = true) (hpiece : piece.length + 2 ≤ maxNalBytes)
    {held : List UInt8} (hfits : (h :: held).length + piece.length ≤ maxNalBytes) (ends : Bool) :
    processRtpPacket { buffer := h :: held, inProgress := true, nextRtp := some (n, t) }
        (fragment h n t false ends piece) =
      some (if ends then (some (h :: held ++ piece), new) else
        (none, { buffer := h :: held ++ piece, inProgress := true
                 nextRtp := some (n + 1, t) })) := by
  obtain ⟨hstart, hend, hreserved, htype⟩ := fuHeader_bits h false ends
  obtain ⟨-, -, hnri⟩ := indicator_bits h
  have hlength : ¬ (h :: held).length > maxNalBytes := by omega
  have hbody : ¬ piece.length > maxNalBytes - (h :: held).length := by omega
  rw [processRtpPacket_fragment _ h n t false ends hpiece]
  generalize (if false = true then (0x80 : UInt8) else 0) ||| (if ends = true then 0x40 else 0) |||
    h &&& 0x1f = fuHeader at *
  simp only [processFuA, hstart, hend, hreserved, htype, hunit, hnri, header_bits hforbidden,
    extend, if_neg hlength, if_neg hbody]
  cases ends <;> simp [new]

/-- The rest of a unit whose first pieces are in the buffer. -/
theorem feed_continuation (hforbidden : h &&& 0x80 = 0) (hunit : isUnitType (h &&& 0x1f) = true)
    (pieces : List (List UInt8)) : ∀ (n : UInt16) (held : List UInt8), pieces ≠ [] →
    (∀ piece ∈ pieces, piece.length + 2 ≤ maxNalBytes) →
    (h :: held ++ pieces.flatten).length ≤ maxNalBytes →
    feed { buffer := h :: held, inProgress := true, nextRtp := some (n, t) }
        (continuation h n t pieces) =
      some (List.replicate (pieces.length - 1) none ++ [some (h :: held ++ pieces.flatten)],
        new) := by
  induction pieces with
  | nil =>
    intro n held hne
    exact absurd rfl hne
  | cons piece rest ih =>
    intro n held _ hpieces hlength
    have hpiece := hpieces piece List.mem_cons_self
    rw [List.flatten_cons, ← List.append_assoc, List.length_append] at hlength
    have hfits : (h :: held).length + piece.length ≤ maxNalBytes := by
      rw [← List.length_append]
      omega
    cases rest with
    | nil =>
      have hlast := processRtpPacket_next (n := n) (t := t) hforbidden hunit hpiece hfits true
      rw [if_pos rfl] at hlast
      rw [continuation, feed_cons hlast rfl]
      simp
    | cons second rest =>
      have hnext := processRtpPacket_next (n := n) (t := t) hforbidden hunit hpiece hfits false
      rw [if_neg Bool.false_ne_true] at hnext
      have hfeed := ih (n + 1) (held ++ piece) (by simp)
        (fun p hp => hpieces p (List.mem_cons_of_mem _ hp)) (by
          rw [← List.cons_append, List.length_append]
          exact hlength)
      rw [continuation, feed_cons hnext hfeed]
      · simp [List.replicate_succ]
      · simp

/-- All fragments of a unit, the first of which is not stale. -/
theorem feed_of_not_stale (hforbidden : h &&& 0x80 = 0) (hunit : isUnitType (h &&& 0x1f) = true)
    {pieces : List (List UInt8)} (hlength : (h :: pieces.flatten).length ≤ maxNalBytes)
    (htwo : 2 ≤ pieces.length) (hpieces : ∀ piece ∈ pieces, piece.length + 2 ≤ maxNalBytes)
    (hstale : isStale (some (n, t)) r.nextRtp = false) :
    r.feed (fragments h n t pieces) =
      some (List.replicate (pieces.length - 1) none ++ [some (h :: pieces.flatten)], new) := by
  obtain ⟨first, rest, rfl⟩ := List.exists_cons_of_length_pos (show 0 < pieces.length by omega)
  have hstart := processRtpPacket_start hforbidden hunit (hpieces first List.mem_cons_self) hstale
  have hrest : rest ≠ [] := by
    rintro rfl
    simp at htwo
  have hfeed := feed_continuation (t := t) hforbidden hunit rest (n + 1) first hrest
    (fun p hp => hpieces p (List.mem_cons_of_mem _ hp)) hlength
  rw [fragments, feed_cons hstart hfeed]
  obtain ⟨second, rest, rfl⟩ := List.exists_cons_of_ne_nil hrest
  simp [List.replicate_succ]

/-- A unit sent in fragments comes back, whatever the packets before it were:
nothing for the fragments before the last one, the unit for the last one, and
nothing stays behind.  A start fragment may interrupt a pending unit if it is
ahead of what the reassembler waits for. -/
theorem feed_fragments {qs : List RtpPacket} {nals : List (Option (List UInt8))}
    (hr : new.feed qs = some (nals, r)) (h : UInt8) (tail : List UInt8)
    (hforbidden : h &&& 0x80 = 0) (hunit : isUnitType (h &&& 0x1f) = true)
    (hlength : (h :: tail).length ≤ maxNalBytes) (pieces : List (List UInt8))
    (hsplit : pieces.flatten = tail) (htwo : 2 ≤ pieces.length)
    (hpieces : ∀ piece ∈ pieces, piece.length + 2 ≤ maxNalBytes) (n : UInt16) (t : UInt32)
    (hahead : r.inProgress = false ∨ ∃ m t', r.nextRtp = some (m, t') ∧ n - m < 0x8000) :
    r.feed (fragments h n t pieces) =
      some (List.replicate (pieces.length - 1) none ++ [some (h :: tail)], new) := by
  obtain ⟨nals', r', hfeed, hstate, -⟩ := feed_spec qs (show Reassembles [] new from Or.inl rfl)
  rw [hr, Option.some_inj, Prod.mk.injEq] at hfeed
  obtain ⟨-, rfl⟩ := hfeed
  subst hsplit
  apply feed_of_not_stale hforbidden hunit hlength htwo hpieces
  rcases hahead with hidle | ⟨m, t', hnext, hlt⟩
  · rcases hstate with rfl | ⟨before, ps, nri, unitType, m, t', -, -, -, -, rfl⟩
    · rfl
    · exact absurd hidle (by simp)
  · rw [hnext]
    simpa [isStale] using hlt

/-- A unit whose numbers wrap around, after another one was abandoned. -/
theorem feed_fragments_wraparound :
    ∃ r, new.feed [fragment 0x65 0xfffa 7 true false [1]] = some ([none], r) ∧
      r.inProgress = true ∧
      r.feed (fragments 0x41 0xffff 9 [[2], [], [3]]) =
        some ([none, none, some [0x41, 2, 3]], new) := by
  have hr : new.feed [fragment 0x65 0xfffa 7 true false [1]] =
      some ([none], { buffer := [0x65, 1], inProgress := true, nextRtp := some (0xfffb, 7) }) := by
    decide
  refine ⟨_, hr, rfl, ?_⟩
  exact feed_fragments hr 0x41 [2, 3] (by decide) (by decide) (by decide) [[2], [], [3]]
    (by decide) (by decide) (by decide) 0xffff 9 (Or.inr ⟨0xfffb, 7, rfl, by decide⟩)

end H264RtpReassembler

end Unitree
