/-
The callback event channel (`protocol/events.rs`).

Events of two classes share one channel: topic callbacks (control) and media.
Admission charges a count and a byte budget per class, and the charge is a
`Permit` that lives in the envelope: it is given back when the envelope is
dropped, be that after delivery, as stale, or with the receiver.  An envelope
also carries the session generation of its producer, and one whose generation
is not current when it is taken out of its queue is discarded.

The channel is generic in the event type; `size` is what the budget charges.

* `Ledger` — what the budget counts is what is queued or held;
* `Ledger.pop`, `Ledger.drop` — taking an envelope out moves it, dropping it
  gives its charge back without underflow;
* `tryDelivery_spec`, `drain_spec` — hence for the two loops of the receiver.
-/
import UnitreeWebrtc.Footprint

namespace Unitree

/-! ### Events -/

/-- A buffer with its capacity. -/
structure Buffer (α : Type) where
  data : α
  capacity : ℕ

/-- A JSON payload with its buffers' capacities. -/
structure Payload where
  value : Value
  footprint : Footprint

/-- `CallbackEvent`; samples and points are opaque words here. -/
inductive CallbackEvent where
  | topicCallback (topic : Buffer String) (payload : Payload)
  | lidarCallback (topic : Buffer String) (payload : Payload) (points : Buffer (List UInt32))
  | videoFrame (data : Buffer (List UInt8)) (width height : UInt32)
  | audioFrame (data : Buffer (List UInt16)) (sampleRate : UInt32) (channels : UInt16)
  | futureResolve (key : Buffer String) (result : Payload)

/-- The two classes of the budget: index 0 and index 1 of the source. -/
inductive EventClass where
  | control
  | media
deriving DecidableEq

/-- `event_size`, with `base` for `size_of::<CallbackEvent>()`. -/
def eventSize (base : ℕ) (event : CallbackEvent) : EventClass × ℕ :=
  let (cls, bytes) : EventClass × ℕ := match event with
    | .topicCallback topic payload =>
      (.control, saturatingAdd topic.capacity (jsonSize payload.footprint))
    | .futureResolve key result =>
      (.control, saturatingAdd key.capacity (jsonSize result.footprint))
    | .lidarCallback topic payload points =>
      (.media, saturatingAdd (saturatingAdd topic.capacity (jsonSize payload.footprint))
        (saturatingMul points.capacity 4))
    | .videoFrame data _ _ => (.media, data.capacity)
    | .audioFrame data _ _ => (.media, saturatingMul data.capacity 2)
  (cls, saturatingAdd bytes base)

/-! ### The channel -/

structure Usage where
  closed : Bool
  bytes : EventClass → ℕ
  count : EventClass → ℕ

structure Permit where
  cls : EventClass
  bytes : ℕ

/-- `EventDelivery`; the event is gone once it has been extracted. -/
structure Delivery (ε : Type) where
  event : Option ε
  generation : ℕ
  permit : Permit

structure Channel (ε : Type) where
  capacity : ℕ
  usage : Usage
  current : ℕ
  queue : EventClass → List (Delivery ε)
  senders : ℕ
  receiverAlive : Bool

inductive TrySendError (ε : Type) where
  | full (event : ε)
  | disconnected (event : ε)

/-- `TrySendError::into_inner`: a refused event comes back to its producer. -/
def TrySendError.intoInner {ε : Type} : TrySendError ε → ε
  | full event => event
  | disconnected event => event

inductive RecvError where
  | empty
  | disconnected
deriving DecidableEq

def byteLimit : EventClass → ℕ
  | .control => controlBytes
  | .media => mediaBytes

/-- The count budget of a class, which is also the length of its queue. -/
def countLimit (capacity : ℕ) : EventClass → ℕ
  | .control => capacity
  | .media => min capacity 4

namespace Usage

def empty : Usage := { closed := false, bytes := fun _ => 0, count := fun _ => 0 }

def charge (u : Usage) (p : Permit) : Usage :=
  { u with
    bytes := Function.update u.bytes p.cls (u.bytes p.cls + p.bytes)
    count := Function.update u.count p.cls (u.count p.cls + 1) }

/-- `Permit::drop`; `none` where a subtraction would underflow. -/
def release (u : Usage) (p : Permit) : Option Usage :=
  if p.bytes ≤ u.bytes p.cls ∧ 1 ≤ u.count p.cls then
    some { u with
      bytes := Function.update u.bytes p.cls (u.bytes p.cls - p.bytes)
      count := Function.update u.count p.cls (u.count p.cls - 1) }
  else none

end Usage

namespace Channel

variable {ε : Type}

def fresh (capacity : ℕ) : Channel ε :=
  { capacity, usage := Usage.empty, current := 0, queue := fun _ => [], senders := 1
    receiverAlive := true }

/-- `event_channel(capacity)`. -/
def open' (capacity : ℕ) : PortResult (Channel ε) :=
  if 1 ≤ capacity ∧ capacity ≤ 256 then .ok (fresh capacity)
  else .error "event capacity must be between 1 and 256"

theorem open'_capacity {capacity : ℕ} {c : Channel ε} (h : open' capacity = .ok c) :
    1 ≤ capacity := by
  rw [open'] at h
  split at h
  next hcap => exact hcap.1
  next => exact absurd h (by simp)

def isCurrent (c : Channel ε) (d : Delivery ε) : Prop := c.current = d.generation

instance (c : Channel ε) (d : Delivery ε) : Decidable (c.isCurrent d) :=
  inferInstanceAs (Decidable (c.current = d.generation))

/-- Dropping an envelope drops its permit. -/
def dropDelivery (c : Channel ε) (d : Delivery ε) : Option (Channel ε) :=
  (c.usage.release d.permit).map fun usage => { c with usage }

/-- `EventSender::try_send` of a sender bound to `generation`: the channel and
the result, or `none` where a permit would underflow. -/
def trySend (size : ε → EventClass × ℕ) (c : Channel ε) (generation : ℕ) (event : ε) :
    Option (Channel ε × Except (TrySendError ε) Unit) :=
  if c.current ≠ generation then some (c, .error (.full event))
  else
    let (cls, bytes) := size event
    if c.usage.closed then some (c, .error (.disconnected event))
    -- the second look at the generation, under the usage lock
    else if c.current ≠ generation then some (c, .error (.full event))
    else if bytes > byteLimit cls - c.usage.bytes cls ∨
        c.usage.count cls ≥ countLimit c.capacity cls then
      some (c, .error (.full event))
    else
      let permit : Permit := { cls, bytes }
      let delivery : Delivery ε := { event := some event, generation, permit }
      let charged := { c with usage := c.usage.charge permit }
      -- the bounded queue itself; a refused envelope is dropped with its permit
      if ¬ c.receiverAlive then
        (charged.dropDelivery delivery).map fun c => (c, .error (.disconnected event))
      else if (c.queue cls).length ≥ countLimit c.capacity cls then
        (charged.dropDelivery delivery).map fun c => (c, .error (.full event))
      else
        some ({ charged with queue := Function.update c.queue cls (c.queue cls ++ [delivery]) },
          .ok ())

/-- The next envelope of the receive loops: control first, then media. -/
def pop (c : Channel ε) : Option (Delivery ε × Channel ε) :=
  match c.queue .control with
  | d :: rest => some (d, { c with queue := Function.update c.queue .control rest })
  | [] =>
    match c.queue .media with
    | d :: rest => some (d, { c with queue := Function.update c.queue .media rest })
    | [] => none

/-- The number of queued envelopes. -/
def queued (c : Channel ε) : ℕ := (c.queue .control).length + (c.queue .media).length

/-- Both queues are empty: disconnected once no sender is left. -/
def idle (c : Channel ε) : RecvError := if c.senders = 0 then .disconnected else .empty

theorem pop_cases {c c' : Channel ε} {d : Delivery ε} (h : c.pop = some (d, c')) :
    ∃ cls rest, c.queue cls = d :: rest ∧ (cls = .media → c.queue .control = []) ∧
      c' = { c with queue := Function.update c.queue cls rest } := by
  rw [pop] at h
  split at h
  next d₁ rest hc =>
    simp only [Option.some_inj, Prod.mk.injEq] at h
    obtain ⟨rfl, rfl⟩ := h
    exact ⟨.control, rest, hc, fun hcls => absurd hcls (by simp), rfl⟩
  next hc =>
    split at h
    next d₂ rest hm =>
      simp only [Option.some_inj, Prod.mk.injEq] at h
      obtain ⟨rfl, rfl⟩ := h
      exact ⟨.media, rest, hm, fun _ => hc, rfl⟩
    next => exact absurd h (by simp)

theorem pop_none {c : Channel ε} (h : c.pop = none) : ∀ cls, c.queue cls = [] := by
  rw [pop] at h
  split at h
  next => exact absurd h (by simp)
  next hc =>
    split at h
    next => exact absurd h (by simp)
    next hm =>
      intro cls
      cases cls
      · exact hc
      · exact hm

theorem queued_pop {c c' : Channel ε} {d : Delivery ε} (h : c.pop = some (d, c')) :
    c'.queued < c.queued := by
  obtain ⟨cls, rest, hq, -, rfl⟩ := pop_cases h
  cases cls <;> simp [queued, Function.update, hq]

theorem queued_dropDelivery {c c' : Channel ε} {d : Delivery ε}
    (h : c.dropDelivery d = some c') : c'.queued = c.queued := by
  obtain ⟨u, -, rfl⟩ := Option.map_eq_some_iff.mp h
  rfl

/-- `EventReceiver::try_delivery`: the channel, the stale envelopes dropped on
the way, and the envelope returned; `none` where a permit would underflow. -/
def tryDelivery (c : Channel ε) :
    Option (Channel ε × List (Delivery ε) × Except RecvError (Delivery ε)) :=
  match _h : c.pop with
  | none => some (c, [], .error c.idle)
  | some (d, c') =>
    if c.isCurrent d then some (c', [], .ok d)
    else
      match _h' : c'.dropDelivery d with
      | none => none
      | some c'' => (tryDelivery c'').map fun (c, stale, r) => (c, d :: stale, r)
termination_by c.queued
decreasing_by
  rw [queued_dropDelivery _h']
  exact queued_pop _h

/-- What wakes a receive that blocks in `delivery_timeout`.  The biased
`select!` looks at the control queue first, and a control queue that has lost
its senders answers before the media queue is looked at.  After a stale
envelope the loop goes round: nothing is returned yet. -/
def wake (c : Channel ε) :
    Option (Channel ε × List (Delivery ε) × Except RecvError (Delivery ε)) :=
  if c.queue .control = [] ∧ c.senders = 0 then some (c, [], .error .disconnected)
  else
    match c.pop with
    | none => some (c, [], .error .empty)
    | some (d, c') =>
      if c.isCurrent d then some (c', [], .ok d)
      else (c'.dropDelivery d).map fun c => (c, [d], .error .empty)

/-- The two loops of `EventReceiver::drop`: every queued envelope is taken out
and dropped. -/
def drain (c : Channel ε) : Option (Channel ε × List (Delivery ε)) :=
  match _h : c.pop with
  | none => some (c, [])
  | some (d, c') =>
    match _h' : c'.dropDelivery d with
    | none => none
    | some c'' => (drain c'').map fun (c, ds) => (c, d :: ds)
termination_by c.queued
decreasing_by
  rw [queued_dropDelivery _h']
  exact queued_pop _h

/-- `EventReceiver::drop`, and the channel halves it owned with it. -/
def dropReceiver (c : Channel ε) : Option (Channel ε × List (Delivery ε)) :=
  (drain { c with usage := { c.usage with closed := true } }).map fun (c, ds) =>
    ({ c with receiverAlive := false }, ds)

end Channel

/-! ### The ledger -/

/-- The usage counters count exactly these permits. -/
structure Accounted (u : Usage) (ps : List Permit) : Prop where
  count_eq : ∀ cls, u.count cls = (ps.filter fun p => p.cls = cls).length
  bytes_eq : ∀ cls, u.bytes cls = ((ps.filter fun p => p.cls = cls).map Permit.bytes).sum

namespace Accounted

variable {u : Usage} {p : Permit} {ps qs : List Permit}

theorem empty : Accounted Usage.empty [] := ⟨fun _ => rfl, fun _ => rfl⟩

theorem perm (h : Accounted u ps) (hp : ps.Perm qs) : Accounted u qs := by
  refine ⟨fun cls => ?_, fun cls => ?_⟩
  · rw [h.count_eq cls]
    exact (hp.filter _).length_eq
  · rw [h.bytes_eq cls]
    exact ((hp.filter _).map _).sum_eq

theorem charge (h : Accounted u ps) (p : Permit) : Accounted (u.charge p) (p :: ps) := by
  refine ⟨fun cls => ?_, fun cls => ?_⟩
  · by_cases hc : p.cls = cls
    · subst hc
      simp [Usage.charge, h.count_eq]
    · simp [Usage.charge, Function.update_of_ne (Ne.symm hc), hc, h.count_eq]
  · by_cases hc : p.cls = cls
    · subst hc
      simp [Usage.charge, h.bytes_eq, Nat.add_comm]
    · simp [Usage.charge, Function.update_of_ne (Ne.symm hc), hc, h.bytes_eq]

/-- A counted permit can be given back: no counter underflows. -/
theorem release (h : Accounted u (p :: ps)) :
    ∃ u', u.release p = some u' ∧ u'.closed = u.closed ∧ Accounted u' ps ∧
      (∀ cls, u'.count cls ≤ u.count cls) ∧ ∀ cls, u'.bytes cls ≤ u.bytes cls := by
  have hc : u.count p.cls = (ps.filter fun q => q.cls = p.cls).length + 1 := by
    simp [h.count_eq p.cls]
  have hb : u.bytes p.cls =
      p.bytes + ((ps.filter fun q => q.cls = p.cls).map Permit.bytes).sum := by
    simp [h.bytes_eq p.cls]
  refine ⟨_, if_pos ⟨by omega, by omega⟩, rfl, ⟨fun cls => ?_, fun cls => ?_⟩, fun cls => ?_,
    fun cls => ?_⟩ <;> by_cases hcls : cls = p.cls
  · subst hcls
    simp [hc]
  · simp [Function.update_of_ne hcls, h.count_eq cls, Ne.symm hcls]
  · subst hcls
    simp [hb]
  · simp [Function.update_of_ne hcls, h.bytes_eq cls, Ne.symm hcls]
  · subst hcls
    simp
  · simp [Function.update_of_ne hcls]
  · subst hcls
    simp
  · simp [Function.update_of_ne hcls]

end Accounted

/-- The envelopes that are queued, and those `held` by a dispatcher. -/
def Channel.outstanding {ε : Type} (c : Channel ε) (held : List (Delivery ε)) :
    List (Delivery ε) := c.queue .control ++ c.queue .media ++ held

/-- The books of a channel balance, with `held` the envelopes that left their
queue and have not been dropped. -/
structure Ledger {ε : Type} (size : ε → EventClass × ℕ) (c : Channel ε)
    (held : List (Delivery ε)) : Prop where
  filed : ∀ cls, ∀ d ∈ c.queue cls, d.permit.cls = cls
  accounted : Accounted c.usage ((c.outstanding held).map Delivery.permit)
  sized : ∀ d ∈ c.outstanding held, ∀ e ∈ d.event, size e = (d.permit.cls, d.permit.bytes)
  count_le : ∀ cls, c.usage.count cls ≤ countLimit c.capacity cls
  bytes_le : ∀ cls, c.usage.bytes cls ≤ byteLimit cls

namespace Ledger

open Channel

variable {ε : Type} {size : ε → EventClass × ℕ} {c c' : Channel ε} {d : Delivery ε}
  {held held' : List (Delivery ε)}

/-- Only what the permits say matters of the held envelopes, and their order
does not. -/
theorem perm (h : Ledger size c held) (hp : held.Perm held') : Ledger size c held' := by
  have hout : (c.outstanding held).Perm (c.outstanding held') := hp.append_left _
  exact { h with
    accounted := h.accounted.perm (hout.map _)
    sized := fun d hd => h.sized d (hout.mem_iff.mpr hd) }

theorem outstanding_pop (h : c.pop = some (d, c')) (held : List (Delivery ε)) :
    (c.outstanding held).Perm (c'.outstanding (d :: held)) := by
  obtain ⟨cls, rest, hq, -, rfl⟩ := pop_cases h
  cases cls
  · simp only [outstanding, hq, Function.update_self, ne_eq, reduceCtorEq, not_false_eq_true,
      Function.update_of_ne, List.cons_append]
    exact List.perm_middle.symm
  · simp only [outstanding, hq, Function.update_self, ne_eq, reduceCtorEq, not_false_eq_true,
      Function.update_of_ne, List.append_assoc, List.cons_append]
    refine List.Perm.append_left _ ?_
    exact List.perm_middle.symm

theorem mem_queue_of_pop (h : c.pop = some (d, c')) {cls : EventClass} {d' : Delivery ε}
    (hd : d' ∈ c'.queue cls) : d' ∈ c.queue cls := by
  obtain ⟨cls', rest, hq, -, rfl⟩ := pop_cases h
  by_cases hcls : cls = cls'
  · subst hcls
    rw [hq]
    exact List.mem_cons_of_mem _ (by simpa using hd)
  · simpa [Function.update_of_ne hcls] using hd

/-- Taking an envelope out of its queue moves it to the held ones. -/
theorem pop (hl : Ledger size c held) (h : c.pop = some (d, c')) :
    Ledger size c' (d :: held) := by
  have hp := outstanding_pop h held
  have hu : c'.usage = c.usage ∧ c'.capacity = c.capacity := by
    obtain ⟨cls, rest, -, -, rfl⟩ := pop_cases h
    exact ⟨rfl, rfl⟩
  refine ⟨fun cls d' hd' => hl.filed cls d' (mem_queue_of_pop h hd'),
    ?_, fun d' hd' => hl.sized d' (hp.mem_iff.mpr hd'), ?_, ?_⟩
  · rw [hu.1]
    exact hl.accounted.perm (hp.map _)
  · rw [hu.1, hu.2]
    exact hl.count_le
  · rw [hu.1]
    exact hl.bytes_le

/-- Dropping a held envelope gives its charge back, without underflow. -/
theorem drop (hl : Ledger size c (d :: held)) :
    ∃ u, c.dropDelivery d = some { c with usage := u } ∧ u.closed = c.usage.closed ∧
      Ledger size { c with usage := u } held := by
  have hout : (c.outstanding (d :: held)).Perm (d :: c.outstanding held) := List.perm_middle
  obtain ⟨u, hu, hclosed, hacc, hcount, hbytes⟩ := (hl.accounted.perm (hout.map _)).release
  refine ⟨u, by rw [dropDelivery, hu]; rfl, hclosed, hl.filed, hacc,
    fun d' hd' => hl.sized d' (hout.mem_iff.mpr (List.mem_cons_of_mem _ hd')),
    fun cls => (hcount cls).trans (hl.count_le cls),
    fun cls => (hbytes cls).trans (hl.bytes_le cls)⟩

end Ledger

/-! ### The receiver's loops -/

namespace Channel

variable {ε : Type} {size : ε → EventClass × ℕ} {c c' : Channel ε} {held : List (Delivery ε)}

/-- The envelopes `ds` are taken out and dropped one after the other. -/
inductive Sweep : Channel ε → List (Delivery ε) → Channel ε → Prop
  | nil (c : Channel ε) : Sweep c [] c
  | cons {c c₁ c₂ c' : Channel ε} {d : Delivery ε} {ds : List (Delivery ε)}
      (hpop : c.pop = some (d, c₁)) (hdrop : c₁.dropDelivery d = some c₂)
      (h : Sweep c₂ ds c') : Sweep c (d :: ds) c'

/-- What neither taking out nor dropping an envelope touches. -/
structure Frame (c c' : Channel ε) : Prop where
  capacity : c'.capacity = c.capacity
  current : c'.current = c.current
  senders : c'.senders = c.senders
  receiverAlive : c'.receiverAlive = c.receiverAlive
  closed : c'.usage.closed = c.usage.closed

theorem Frame.refl (c : Channel ε) : Frame c c := ⟨rfl, rfl, rfl, rfl, rfl⟩

theorem Frame.trans {c₁ c₂ c₃ : Channel ε} (h : Frame c₁ c₂) (h' : Frame c₂ c₃) :
    Frame c₁ c₃ :=
  ⟨h'.capacity.trans h.capacity, h'.current.trans h.current, h'.senders.trans h.senders,
    h'.receiverAlive.trans h.receiverAlive, h'.closed.trans h.closed⟩

theorem frame_pop {d : Delivery ε} (h : c.pop = some (d, c')) : Frame c c' := by
  obtain ⟨cls, rest, -, -, rfl⟩ := pop_cases h
  exact ⟨rfl, rfl, rfl, rfl, rfl⟩

theorem frame_drop {d : Delivery ε} (h : c.dropDelivery d = some c') :
    Frame c c' ∧ c'.queue = c.queue := by
  obtain ⟨u, hu, rfl⟩ := Option.map_eq_some_iff.mp h
  rw [Usage.release] at hu
  split at hu
  · rw [← Option.some_inj.mp hu]
    exact ⟨⟨rfl, rfl, rfl, rfl, rfl⟩, rfl⟩
  · exact absurd hu (by simp)

/-- An envelope that is taken out was the first of its class. -/
theorem queue_pop (hl : Ledger size c held) {d : Delivery ε} (h : c.pop = some (d, c'))
    (cls : EventClass) :
    c.queue cls = (if d.permit.cls = cls then [d] else []) ++ c'.queue cls := by
  obtain ⟨cls', rest, hq, -, rfl⟩ := pop_cases h
  have hd : d.permit.cls = cls' := hl.filed cls' d (by simp [hq])
  by_cases hcls : cls' = cls
  · subst hcls
    simp [hd, hq]
  · simp [hd, hcls, Function.update_of_ne (Ne.symm hcls)]

namespace Sweep

variable {ds : List (Delivery ε)}

theorem frame (h : Sweep c ds c') : Frame c c' := by
  induction h with
  | nil c => exact Frame.refl c
  | cons hpop hdrop _ ih => exact ((frame_pop hpop).trans (frame_drop hdrop).1).trans ih

/-- A sweep keeps the books, and takes each class from the front. -/
theorem spec (h : Sweep c ds c') (hl : Ledger size c held) :
    Ledger size c' held ∧
      ∀ cls, c.queue cls = (ds.filter fun d => d.permit.cls = cls) ++ c'.queue cls := by
  induction h with
  | nil c => exact ⟨hl, fun cls => by simp⟩
  | @cons c c₁ c₂ c' d ds hpop hdrop _ ih =>
    obtain ⟨u, hu, -, hl'⟩ := (hl.pop hpop).drop
    have hc₂ := Option.some_inj.mp (hu.symm.trans hdrop)
    rw [hc₂] at hl'
    obtain ⟨hend, hq⟩ := ih hl'
    refine ⟨hend, fun cls => ?_⟩
    rw [queue_pop hl hpop cls, ← (frame_drop hdrop).2, hq cls, List.filter_cons]
    by_cases hcls : d.permit.cls = cls <;> simp [hcls]

end Sweep

/-- What a receive does: it sweeps envelopes that are not current, and then
either takes out a current one or gives up. -/
def Receives (c : Channel ε) (stale : List (Delivery ε))
    (r : Except RecvError (Delivery ε)) (c' : Channel ε) : Prop :=
  ∃ c₁, Sweep c stale c₁ ∧ (∀ d ∈ stale, ¬ c.isCurrent d) ∧
    ((∃ d, r = .ok d ∧ c₁.pop = some (d, c') ∧ c.isCurrent d) ∨ (∃ e, r = .error e ∧ c' = c₁))

/-- One round of either loop that meets a stale envelope. -/
theorem Receives.cons {d : Delivery ε} {c₁ c₂ : Channel ε} {stale : List (Delivery ε)}
    {r : Except RecvError (Delivery ε)} (hpop : c.pop = some (d, c₁))
    (hdrop : c₁.dropDelivery d = some c₂) (hd : ¬ c.isCurrent d)
    (h : Receives c₂ stale r c') : Receives c (d :: stale) r c' := by
  have hcur : c₂.current = c.current := ((frame_pop hpop).trans (frame_drop hdrop).1).current
  have hiff : ∀ d', c₂.isCurrent d' ↔ c.isCurrent d' := fun d' => by
    rw [isCurrent, isCurrent, hcur]
  obtain ⟨c₃, hs, hstale, hr⟩ := h
  refine ⟨c₃, .cons hpop hdrop hs, ?_, ?_⟩
  · intro d' hd'
    rcases List.mem_cons.mp hd' with rfl | hd'
    · exact hd
    · exact fun hc => hstale d' hd' ((hiff d').mpr hc)
  · rcases hr with ⟨d', hr, hp, hc⟩ | hr
    · exact Or.inl ⟨d', hr, hp, (hiff d').mp hc⟩
    · exact Or.inr hr

theorem tryDelivery_spec (c : Channel ε) (hl : Ledger size c held) :
    ∃ c' stale r, tryDelivery c = some (c', stale, r) ∧ Receives c stale r c' := by
  rw [tryDelivery]
  split
  next hpop => exact ⟨c, [], _, rfl, c, .nil c, by simp, Or.inr ⟨_, rfl, rfl⟩⟩
  next d c₁ hpop =>
    by_cases hd : c.isCurrent d
    · rw [if_pos hd]
      exact ⟨c₁, [], _, rfl, c, .nil c, by simp, Or.inl ⟨d, rfl, hpop, hd⟩⟩
    · rw [if_neg hd]
      obtain ⟨u, hu, -, hl'⟩ := (hl.pop hpop).drop
      have hlt : c₁.queued < c.queued := queued_pop hpop
      obtain ⟨c', stale, r, hr, hrec⟩ := tryDelivery_spec { c₁ with usage := u } hl'
      split
      next hnone => exact absurd (hnone.symm.trans hu) (by simp)
      next c₂ hsome =>
        obtain rfl := Option.some_inj.mp (hsome.symm.trans hu)
        rw [hr]
        exact ⟨c', d :: stale, r, rfl, hrec.cons hpop hu hd⟩
termination_by c.queued
decreasing_by exact hlt

theorem wake_spec (c : Channel ε) (hl : Ledger size c held) :
    ∃ c' stale r, wake c = some (c', stale, r) ∧ Receives c stale r c' := by
  rw [wake]
  split
  · exact ⟨c, [], _, rfl, c, .nil c, by simp, Or.inr ⟨_, rfl, rfl⟩⟩
  · split
    next hpop => exact ⟨c, [], _, rfl, c, .nil c, by simp, Or.inr ⟨_, rfl, rfl⟩⟩
    next d c₁ hpop =>
      by_cases hd : c.isCurrent d
      · rw [if_pos hd]
        exact ⟨c₁, [], _, rfl, c, .nil c, by simp, Or.inl ⟨d, rfl, hpop, hd⟩⟩
      · rw [if_neg hd]
        obtain ⟨u, hu, -, -⟩ := (hl.pop hpop).drop
        rw [hu]
        refine ⟨_, [d], _, rfl, Receives.cons hpop hu hd ?_⟩
        exact ⟨_, .nil _, by simp, Or.inr ⟨_, rfl, rfl⟩⟩

theorem drain_spec (c : Channel ε) (hl : Ledger size c held) :
    ∃ c' ds, drain c = some (c', ds) ∧ Sweep c ds c' ∧ ∀ cls, c'.queue cls = [] := by
  rw [drain]
  split
  next hpop => exact ⟨c, [], rfl, .nil c, pop_none hpop⟩
  next d c₁ hpop =>
    obtain ⟨u, hu, -, hl'⟩ := (hl.pop hpop).drop
    have hlt : c₁.queued < c.queued := queued_pop hpop
    obtain ⟨c', ds, hr, hs, hempty⟩ := drain_spec { c₁ with usage := u } hl'
    split
    next hnone => exact absurd (hnone.symm.trans hu) (by simp)
    next c₂ hsome =>
      obtain rfl := Option.some_inj.mp (hsome.symm.trans hu)
      rw [hr]
      exact ⟨c', d :: ds, rfl, .cons hpop hu hs, hempty⟩
termination_by c.queued
decreasing_by exact hlt

/-- A receive keeps the books; what it returns is held from then on. -/
theorem Receives.ledger {stale : List (Delivery ε)} {r : Except RecvError (Delivery ε)}
    (h : Receives c stale r c') (hl : Ledger size c held) :
    Ledger size c' (r.toOption.toList ++ held) := by
  obtain ⟨c₁, hs, -, ⟨d, rfl, hpop, -⟩ | ⟨e, rfl, rfl⟩⟩ := h
  · exact ((hs.spec hl).1).pop hpop
  · exact (hs.spec hl).1

theorem Receives.frame {stale : List (Delivery ε)} {r : Except RecvError (Delivery ε)}
    (h : Receives c stale r c') : Frame c c' := by
  obtain ⟨c₁, hs, -, ⟨d, -, hpop, -⟩ | ⟨e, -, rfl⟩⟩ := h
  · exact hs.frame.trans (frame_pop hpop)
  · exact hs.frame

/-- A receive takes each class from the front: first the stale envelopes, then
the one it returns. -/
theorem Receives.queue {stale : List (Delivery ε)} {r : Except RecvError (Delivery ε)}
    (h : Receives c stale r c') (hl : Ledger size c held) (cls : EventClass) :
    c.queue cls = ((stale ++ r.toOption.toList).filter fun d => d.permit.cls = cls)
      ++ c'.queue cls := by
  obtain ⟨c₁, hs, -, ⟨d, rfl, hpop, -⟩ | ⟨e, rfl, rfl⟩⟩ := h
  · obtain ⟨hl₁, hq⟩ := hs.spec hl
    rw [hq cls, queue_pop hl₁ hpop cls]
    by_cases hcls : d.permit.cls = cls <;> simp [Except.toOption, hcls]
  · obtain ⟨-, hq⟩ := hs.spec hl
    rw [hq cls]
    simp [Except.toOption]

end Channel

end Unitree
