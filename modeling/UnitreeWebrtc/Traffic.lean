/-
Runs of the callback event channel.

The steps are those of the threads around the channel: sends of any producer
clone, resets that move the generation, receives (polling or woken from the
blocking `select!`) whose envelope is dropped at once or held by a dispatcher,
the end of a held envelope, clones and drops of senders, and the drop of the
receiver.  The state keeps two logs beside the channel: what was accepted, and
what was taken out of the queues with its fate.

* `Traffic.Inv` — the books balance and the logs agree with the queues;
* `Traffic.step_inv`, `Traffic.run_inv` — kept by every step and every run,
  none of which underflows;
* `Traffic.budget_accounting` — what the budget guarantees;
* `Traffic.delivery_order` — what the consumer sees.
-/
import UnitreeWebrtc.Events
import UnitreeWebrtc.Runs

namespace Unitree

open Channel

/-! ### Sends -/

namespace Channel

variable {ε : Type} {size : ε → EventClass × ℕ} {c : Channel ε} {held : List (Delivery ε)}

/-- The envelope `try_send` makes of an event. -/
def envelope (size : ε → EventClass × ℕ) (generation : ℕ) (event : ε) : Delivery ε :=
  { event := some event, generation, permit := { cls := (size event).1, bytes := (size event).2 } }

/-- The budget has no room for the event. -/
def Exhausted (size : ε → EventClass × ℕ) (c : Channel ε) (event : ε) : Prop :=
  (size event).2 > byteLimit (size event).1 - c.usage.bytes (size event).1 ∨
    c.usage.count (size event).1 ≥ countLimit c.capacity (size event).1

instance (c : Channel ε) (event : ε) : Decidable (c.Exhausted size event) :=
  inferInstanceAs (Decidable (_ ∨ _))

/-- The channel once an envelope has been admitted. -/
def enqueue (c : Channel ε) (d : Delivery ε) : Channel ε :=
  { c with
    usage := c.usage.charge d.permit
    queue := Function.update c.queue d.permit.cls (c.queue d.permit.cls ++ [d]) }

/-- A class queue is never longer than the budget says. -/
theorem length_queue_le (hl : Ledger size c held) (cls : EventClass) :
    (c.queue cls).length ≤ c.usage.count cls := by
  rw [hl.accounted.count_eq cls, List.filter_map, List.length_map]
  have hsub : (c.queue cls).Sublist (c.outstanding held) := by
    cases cls
    · exact (List.sublist_append_left _ _).trans (List.sublist_append_left _ _)
    · exact (List.sublist_append_right _ _).trans (List.sublist_append_left _ _)
  have hall : (c.queue cls).filter ((fun p => decide (p.cls = cls)) ∘ Delivery.permit)
      = c.queue cls := by
    rw [List.filter_eq_self]
    intro d hd
    simpa using hl.filed cls d hd
  calc (c.queue cls).length
      = ((c.queue cls).filter ((fun p => decide (p.cls = cls)) ∘ Delivery.permit)).length := by
        rw [hall]
    _ ≤ _ := (hsub.filter _).length_le

/-- Everything a send can do: the generation and the budget decide, and the
bounded queue behind them never refuses. -/
theorem trySend_eq (hl : Ledger size c held) (hclosed : c.usage.closed = !c.receiverAlive)
    (generation : ℕ) (event : ε) :
    trySend size c generation event = some (
      if c.current ≠ generation then (c, .error (.full event))
      else if c.receiverAlive = false then (c, .error (.disconnected event))
      else if c.Exhausted size event then (c, .error (.full event))
      else (c.enqueue (envelope size generation event), .ok ())) := by
  by_cases hg : c.current ≠ generation
  · simp only [trySend, if_pos hg]
  rcases ha : c.receiverAlive with _ | _
  · have hc : c.usage.closed = true := by rw [hclosed, ha]; rfl
    simp only [trySend, if_neg hg, hc, if_true]
  · have hc : c.usage.closed = false := by rw [hclosed, ha]; rfl
    by_cases hx : c.Exhausted size event
    · have hx' := hx
      rw [Exhausted] at hx'
      simp only [trySend, if_neg hg, hc, if_pos hx', if_pos hx, Bool.false_eq_true, if_false,
        Bool.true_eq_false]
    · have hx' := hx
      rw [Exhausted] at hx'
      have hlen : ¬ (c.queue (size event).1).length ≥ countLimit c.capacity (size event).1 := by
        have := length_queue_le hl (size event).1
        omega
      simp only [trySend, if_neg hg, hc, if_neg hx', if_neg hx, Bool.false_eq_true, if_false,
        Bool.true_eq_false, ha, not_true_eq_false, if_neg hlen]
      rw [enqueue, ← ha]
      rfl

/-- A refused send gives its event back and leaves no trace, and only the
generation or the budget answers `Full`. -/
theorem trySend_answers (hl : Ledger size c held)
    (hclosed : c.usage.closed = !c.receiverAlive) (generation : ℕ) (event : ε) :
    ∃ c' r, trySend size c generation event = some (c', r) ∧
      (∀ e, r = .error e → c' = c ∧ e.intoInner = event) ∧
      (r = .error (.full event) → c.current ≠ generation ∨ c.Exhausted size event) ∧
      (c.receiverAlive = false →
        r ≠ .ok () ∧ (c.current = generation → r = .error (.disconnected event))) := by
  have hback : ∀ {e e' : TrySendError ε}, e'.intoInner = event →
      (.error e' : Except (TrySendError ε) Unit) = .error e → c = c ∧ e.intoInner = event := by
    intro e e' he' he
    injection he with he
    exact ⟨rfl, he ▸ he'⟩
  rw [trySend_eq hl hclosed]
  by_cases hg : c.current ≠ generation
  · rw [if_pos hg]
    exact ⟨c, _, rfl, fun e he => hback rfl he, fun _ => Or.inl hg,
      fun _ => ⟨by simp, fun hc => absurd hc hg⟩⟩
  rw [if_neg hg]
  by_cases ha : c.receiverAlive = false
  · rw [if_pos ha]
    exact ⟨c, _, rfl, fun e he => hback rfl he, fun hf => absurd hf (by simp),
      fun _ => ⟨by simp, fun _ => rfl⟩⟩
  rw [if_neg ha]
  by_cases hx : c.Exhausted size event
  · rw [if_pos hx]
    exact ⟨c, _, rfl, fun e he => hback rfl he, fun _ => Or.inr hx, fun hf => absurd hf ha⟩
  · rw [if_neg hx]
    exact ⟨_, _, rfl, fun e he => absurd he (by simp), fun hf => absurd hf (by simp),
      fun hf => absurd hf ha⟩

end Channel

namespace Ledger

variable {ε : Type} {size : ε → EventClass × ℕ} {c : Channel ε} {held : List (Delivery ε)}

/-- An admitted envelope is on the books. -/
theorem enqueue (hl : Ledger size c held) {generation : ℕ} {event : ε}
    (hx : ¬ c.Exhausted size event) :
    Ledger size (c.enqueue (envelope size generation event)) held := by
  have hperm : (c.enqueue (envelope size generation event)).outstanding held |>.Perm
      (envelope size generation event :: c.outstanding held) := by
    rcases hcls : (size event).1 with _ | _
    · simp only [outstanding, Channel.enqueue, envelope, hcls, Function.update_self, ne_eq,
        reduceCtorEq, not_false_eq_true, Function.update_of_ne, List.append_assoc]
      exact List.perm_middle
    · simp only [outstanding, Channel.enqueue, envelope, hcls, Function.update_self, ne_eq,
        reduceCtorEq, not_false_eq_true, Function.update_of_ne, List.append_assoc]
      exact (List.perm_middle.append_left _).trans List.perm_middle
  have hmem : ∀ cls, ∀ d ∈ (c.enqueue (envelope size generation event)).queue cls,
      d ∈ c.queue cls ∨ d = envelope size generation event ∧ (size event).1 = cls := by
    intro cls d hd
    by_cases hcls : cls = (size event).1
    · subst hcls
      simp only [Channel.enqueue, envelope, Function.update_self, List.mem_append,
        List.mem_singleton] at hd
      exact hd.imp id fun h => ⟨h, rfl⟩
    · left
      simpa [Channel.enqueue, envelope, Function.update_of_ne hcls] using hd
  rw [Exhausted] at hx
  refine ⟨fun cls d hd => ?_, ?_, fun d hd => ?_, fun cls => ?_, fun cls => ?_⟩
  · rcases hmem cls d hd with hd | ⟨rfl, hcls⟩
    · exact hl.filed cls d hd
    · exact hcls
  · exact (hl.accounted.charge _).perm (hperm.map _).symm
  · rcases List.mem_cons.mp (hperm.mem_iff.mp hd) with rfl | hd
    · intro e he
      rw [← Option.mem_some_iff.mp he]
      rfl
    · exact hl.sized d hd
  · have := hl.count_le cls
    by_cases hcls : cls = (size event).1
    · subst hcls
      simp only [Channel.enqueue, envelope, Usage.charge, Function.update_self]
      omega
    · simpa [Channel.enqueue, envelope, Usage.charge, Function.update_of_ne hcls] using this
  · have := hl.bytes_le cls
    by_cases hcls : cls = (size event).1
    · subst hcls
      simp only [Channel.enqueue, envelope, Usage.charge, Function.update_self]
      omega
    · simpa [Channel.enqueue, envelope, Usage.charge, Function.update_of_ne hcls] using this

end Ledger

/-! ### The system -/

/-- What became of an envelope that was taken out of its queue. -/
inductive Fate where
  | received
  /-- Discarded by a receive, at a time when this generation was current. -/
  | stale (current : ℕ)
  /-- Discarded when the receiver was dropped. -/
  | swept

structure Traffic (ε : Type) where
  channel : Channel ε
  /-- The envelopes a dispatcher keeps until its callback has returned. -/
  held : List (Delivery ε)
  accepted : List (Delivery ε)
  dequeued : List (Delivery ε × Fate)

namespace Traffic

variable {ε : Type}

inductive Action (ε : Type) where
  | trySend (generation : ℕ) (event : ε)
  | setGeneration (generation : ℕ)
  | cloneSender
  | dropSender
  /-- A receive, polling or woken while `blocked`; `keep` is `recv_delivery`,
  otherwise the envelope is dropped as soon as its event has been extracted. -/
  | receive (blocked keep : Bool)
  | takeEvent (i : ℕ)
  | dropHeld (i : ℕ)
  | dropReceiver

/-- The two ways a receive is served. -/
def serve (blocked : Bool) (c : Channel ε) :
    Option (Channel ε × List (Delivery ε) × Except RecvError (Delivery ε)) :=
  if blocked then c.wake else c.tryDelivery

/-- The log entries of a receive. -/
def fates (current : ℕ) (stale : List (Delivery ε)) (r : Except RecvError (Delivery ε)) :
    List (Delivery ε × Fate) :=
  stale.map (fun d => (d, Fate.stale current)) ++ r.toOption.toList.map fun d => (d, .received)

/-- One step; `none` where a permit would underflow. -/
def step (size : ε → EventClass × ℕ) (t : Traffic ε) : Action ε → Option (Traffic ε)
  | .trySend generation event =>
    if t.channel.senders = 0 then some t
    else
      (t.channel.trySend size generation event).map fun
        | (c, .ok ()) =>
          { t with channel := c, accepted := t.accepted ++ [envelope size generation event] }
        | (c, .error _) => { t with channel := c }
  | .setGeneration generation =>
    some { t with channel := { t.channel with current := generation } }
  | .cloneSender =>
    if t.channel.senders = 0 then some t
    else some { t with channel := { t.channel with senders := t.channel.senders + 1 } }
  | .dropSender =>
    some { t with channel := { t.channel with senders := t.channel.senders - 1 } }
  | .receive blocked keep =>
    if t.channel.receiverAlive then
      match serve blocked t.channel with
      | none => none
      | some (c, stale, r) =>
        let dequeued := t.dequeued ++ fates t.channel.current stale r
        match r with
        | .error _ => some { t with channel := c, dequeued }
        | .ok d =>
          if keep then some { t with channel := c, held := d :: t.held, dequeued }
          else (c.dropDelivery d).map fun c => { t with channel := c, dequeued }
    else some t
  | .takeEvent i =>
    some { t with held := t.held.modify i fun d => { d with event := none } }
  | .dropHeld i =>
    match t.held[i]? with
    | none => some t
    | some d =>
      (t.channel.dropDelivery d).map fun c => { t with channel := c, held := t.held.eraseIdx i }
  | .dropReceiver =>
    if t.channel.receiverAlive then
      t.channel.dropReceiver.map fun (c, ds) =>
        { t with channel := c, dequeued := t.dequeued ++ ds.map fun d => (d, .swept) }
    else some t

/-- A run stops at the first underflow. -/
def run (size : ε → EventClass × ℕ) (c : Channel ε) (as : List (Action ε)) :
    Option (Traffic ε) :=
  Runs.run (fun t a => t.bind fun t => t.step size a)
    (some { channel := c, held := [], accepted := [], dequeued := [] }) as

/-- The entries of one class, in order. -/
def ofClass (cls : EventClass) (ds : List (Delivery ε)) : List (Delivery ε) :=
  ds.filter fun d => d.permit.cls = cls

/-- What the consumer was given. -/
def received (t : Traffic ε) : List (Delivery ε) :=
  t.dequeued.filterMap fun
    | (d, .received) => some d
    | _ => none

/-- What the fate of an envelope says about it and about the receiver. -/
def Explained (receiverAlive : Bool) : Delivery ε × Fate → Prop
  | (_, .received) => True
  | (d, .stale current) => d.generation ≠ current
  | (_, .swept) => receiverAlive = false

structure Inv (size : ε → EventClass × ℕ) (capacity : ℕ) (t : Traffic ε) : Prop where
  capacity_eq : t.channel.capacity = capacity
  ledger : Ledger size t.channel t.held
  closed_eq : t.channel.usage.closed = !t.channel.receiverAlive
  /-- Nothing stays queued behind a dropped receiver. -/
  swept : t.channel.receiverAlive = false → ∀ cls, t.channel.queue cls = []
  /-- Class by class, the queue holds what was accepted and not yet taken out. -/
  ordered : ∀ cls,
    ofClass cls t.accepted = ofClass cls (t.dequeued.map Prod.fst) ++ t.channel.queue cls
  genuine : ∀ d ∈ t.accepted, ∃ generation event, d = envelope size generation event
  explained : ∀ p ∈ t.dequeued, Explained t.channel.receiverAlive p

/-! ### Every step keeps the invariant -/

variable {size : ε → EventClass × ℕ} {capacity : ℕ} {t : Traffic ε}

theorem serve_spec (hl : Ledger size t.channel t.held) (blocked : Bool) :
    ∃ c stale r, serve blocked t.channel = some (c, stale, r) ∧
      t.channel.Receives stale r c := by
  cases blocked
  · exact t.channel.tryDelivery_spec hl
  · exact t.channel.wake_spec hl

theorem map_fst_fates (current : ℕ) (stale : List (Delivery ε))
    (r : Except RecvError (Delivery ε)) :
    (fates current stale r).map Prod.fst = stale ++ r.toOption.toList := by
  simp [fates, Function.comp_def]

theorem trySend_inv (h : Inv size capacity t) (generation : ℕ) (event : ε) :
    ∃ t', step size t (.trySend generation event) = some t' ∧ Inv size capacity t' := by
  rw [step]
  by_cases hs : t.channel.senders = 0
  · rw [if_pos hs]
    exact ⟨t, rfl, h⟩
  rw [if_neg hs, trySend_eq h.ledger h.closed_eq]
  by_cases hg : t.channel.current ≠ generation
  · rw [if_pos hg]
    exact ⟨t, rfl, h⟩
  rw [if_neg hg]
  by_cases ha : t.channel.receiverAlive = false
  · rw [if_pos ha]
    exact ⟨t, rfl, h⟩
  rw [if_neg ha]
  by_cases hx : t.channel.Exhausted size event
  · rw [if_pos hx]
    exact ⟨t, rfl, h⟩
  rw [if_neg hx]
  refine ⟨_, rfl, h.capacity_eq, h.ledger.enqueue hx, h.closed_eq, fun hf => absurd hf ha,
    fun cls => ?_, fun d hd => ?_, h.explained⟩
  · have := h.ordered cls
    simp only [ofClass] at this
    by_cases hcls : cls = (size event).1
    · subst hcls
      simp [ofClass, Channel.enqueue, envelope, this]
    · simp [ofClass, Channel.enqueue, envelope, Function.update_of_ne hcls, Ne.symm hcls, this]
  · rcases List.mem_append.mp hd with hd | hd
    · exact h.genuine d hd
    · exact ⟨generation, event, List.mem_singleton.mp hd⟩

theorem receive_inv (h : Inv size capacity t) (blocked keep : Bool) :
    ∃ t', step size t (.receive blocked keep) = some t' ∧ Inv size capacity t' := by
  rw [step]
  by_cases ha : t.channel.receiverAlive
  swap
  · rw [if_neg ha]
    exact ⟨t, rfl, h⟩
  obtain ⟨c, stale, r, hserve, hr⟩ := serve_spec h.ledger blocked
  rw [if_pos ha, hserve]
  have hledger := hr.ledger h.ledger
  have hframe := hr.frame
  have halive : c.receiverAlive = true := hframe.receiverAlive.trans ha
  have hordered : ∀ cls, ofClass cls t.accepted
      = ofClass cls ((t.dequeued ++ fates t.channel.current stale r).map Prod.fst)
        ++ c.queue cls := fun cls => by
    rw [h.ordered cls, hr.queue h.ledger cls, List.map_append, map_fst_fates]
    simp [ofClass]
  have hexplained : ∀ p ∈ t.dequeued ++ fates t.channel.current stale r,
      Explained c.receiverAlive p := by
    intro p hp
    rcases List.mem_append.mp hp with hp | hp
    · rcases p with ⟨d, _ | _ | _⟩
      · trivial
      · exact h.explained _ hp
      · exact absurd (h.explained _ hp) (by simp [Explained, ha])
    · rcases List.mem_append.mp hp with hp | hp
      · obtain ⟨d, hd, rfl⟩ := List.mem_map.mp hp
        obtain ⟨-, -, hstale, -⟩ := hr
        exact Ne.symm (hstale d hd)
      · obtain ⟨d, -, rfl⟩ := List.mem_map.mp hp
        trivial
  have hcap : c.capacity = capacity := hframe.capacity.trans h.capacity_eq
  have hclosed : c.usage.closed = !c.receiverAlive := by
    rw [hframe.closed, hframe.receiverAlive, h.closed_eq]
  rcases r with e | d
  · exact ⟨_, rfl, hcap, hledger, hclosed, fun hf => absurd (halive.symm.trans hf) (by simp),
      hordered, h.genuine, hexplained⟩
  · cases keep
    · -- the permit goes back at once
      obtain ⟨u, hu, hcl, hl'⟩ := Ledger.drop hledger
      simp only [hu, Bool.false_eq_true, if_false, Option.map_some]
      exact ⟨_, rfl, hcap, hl', hcl.trans hclosed,
        fun hf => absurd (halive.symm.trans hf) (by simp), hordered, h.genuine, hexplained⟩
    · exact ⟨_, if_pos rfl, hcap, hledger, hclosed,
        fun hf => absurd (halive.symm.trans hf) (by simp), hordered, h.genuine, hexplained⟩

theorem takeEvent_inv (h : Inv size capacity t) (i : ℕ) :
    ∃ t', step size t (.takeEvent i) = some t' ∧ Inv size capacity t' := by
  have hpermit : (t.held.modify i fun d => { d with event := none }).map Delivery.permit
      = t.held.map Delivery.permit := by
    refine List.ext_getElem? fun j => ?_
    simp only [List.getElem?_map, List.getElem?_modify]
    split <;> simp [Function.comp_def]
  have hmem : ∀ d ∈ t.held.modify i fun d => { d with event := none },
      ∀ e ∈ d.event, d ∈ t.held := by
    intro d hd e he
    obtain ⟨j, hj⟩ := List.mem_iff_getElem?.mp hd
    rw [List.getElem?_modify] at hj
    split at hj
    · obtain ⟨d', -, rfl⟩ := Option.map_eq_some_iff.mp hj
      exact absurd he (by simp)
    · exact List.mem_of_getElem? (by simpa using hj)
  refine ⟨_, rfl, h.capacity_eq, ⟨h.ledger.filed, ?_, fun d hd e he => ?_,
    h.ledger.count_le, h.ledger.bytes_le⟩, h.closed_eq, h.swept, h.ordered, h.genuine, h.explained⟩
  · have := h.ledger.accounted
    rw [outstanding, List.map_append] at this
    rwa [outstanding, List.map_append, hpermit]
  · rcases List.mem_append.mp hd with hd | hd
    · exact h.ledger.sized d (List.mem_append_left _ hd) e he
    · exact h.ledger.sized d (List.mem_append_right _ (hmem d hd e he)) e he

theorem dropHeld_inv (h : Inv size capacity t) (i : ℕ) :
    ∃ t', step size t (.dropHeld i) = some t' ∧ Inv size capacity t' := by
  rw [step]
  rcases hi : t.held[i]? with _ | d
  · exact ⟨t, rfl, h⟩
  · obtain ⟨hlt, rfl⟩ := List.getElem?_eq_some_iff.mp hi
    have hperm : t.held.Perm (t.held[i] :: t.held.eraseIdx i) :=
      (List.getElem_cons_eraseIdx_perm hlt).symm
    obtain ⟨u, hu, hcl, hl'⟩ := (h.ledger.perm hperm).drop
    simp only [hu, Option.map_some]
    exact ⟨_, rfl, h.capacity_eq, hl', hcl.trans h.closed_eq, h.swept, h.ordered, h.genuine,
      h.explained⟩

theorem dropReceiver_inv (h : Inv size capacity t) :
    ∃ t', step size t .dropReceiver = some t' ∧ Inv size capacity t' := by
  rw [step]
  by_cases ha : t.channel.receiverAlive
  swap
  · rw [if_neg ha]
    exact ⟨t, rfl, h⟩
  rw [if_pos ha, Channel.dropReceiver]
  have hl : Ledger size
      { t.channel with usage := { t.channel.usage with closed := true } } t.held :=
    ⟨h.ledger.filed, ⟨h.ledger.accounted.count_eq, h.ledger.accounted.bytes_eq⟩,
      h.ledger.sized, h.ledger.count_le, h.ledger.bytes_le⟩
  obtain ⟨c, ds, hdrain, hs, hempty⟩ := Channel.drain_spec _ hl
  obtain ⟨hl', hq⟩ := hs.spec hl
  rw [hdrain]
  refine ⟨_, rfl, hs.frame.capacity.trans h.capacity_eq,
    ⟨hl'.filed, hl'.accounted, hl'.sized, hl'.count_le, hl'.bytes_le⟩,
    hs.frame.closed, fun _ => hempty, fun cls => ?_, h.genuine, fun p hp => ?_⟩
  · have hq' : t.channel.queue cls = (ds.filter fun d => d.permit.cls = cls) ++ c.queue cls :=
      hq cls
    rw [h.ordered cls, hq', List.map_append]
    simp [ofClass, Function.comp_def]
  · rcases List.mem_append.mp hp with hp | hp
    · rcases p with ⟨d, _ | _ | _⟩
      · trivial
      · exact h.explained _ hp
      · rfl
    · obtain ⟨d, -, rfl⟩ := List.mem_map.mp hp
      rfl

/-- The books do not depend on the generation, nor on who can send. -/
theorem Inv.elsewhere (h : Inv size capacity t) (current senders : ℕ) :
    Inv size capacity { t with channel := { t.channel with current, senders } } :=
  ⟨h.capacity_eq, ⟨h.ledger.filed, h.ledger.accounted, h.ledger.sized, h.ledger.count_le,
    h.ledger.bytes_le⟩, h.closed_eq, h.swept, h.ordered, h.genuine, h.explained⟩

/-- No step underflows, and every step keeps the invariant. -/
theorem step_inv (h : Inv size capacity t) (a : Action ε) :
    ∃ t', step size t a = some t' ∧ Inv size capacity t' := by
  cases a with
  | trySend generation event => exact trySend_inv h generation event
  | setGeneration generation =>
    exact ⟨_, rfl, h.elsewhere generation t.channel.senders⟩
  | cloneSender =>
    rw [step]
    split
    · exact ⟨t, rfl, h⟩
    · exact ⟨_, rfl, h.elsewhere t.channel.current (t.channel.senders + 1)⟩
  | dropSender =>
    exact ⟨_, rfl, h.elsewhere t.channel.current (t.channel.senders - 1)⟩
  | receive blocked keep => exact receive_inv h blocked keep
  | takeEvent i => exact takeEvent_inv h i
  | dropHeld i => exact dropHeld_inv h i
  | dropReceiver => exact dropReceiver_inv h

/-- Only a send adds to what was accepted, and only its own envelope. -/
theorem step_accepted {t' : Traffic ε} {a : Action ε} (h : step size t a = some t') :
    t'.accepted = t.accepted ∨
      ∃ generation event, a = .trySend generation event ∧
        t'.accepted = t.accepted ++ [envelope size generation event] := by
  cases a with
  | trySend generation event =>
    rw [step] at h
    split at h
    · exact Or.inl (Option.some_inj.mp h ▸ rfl)
    · obtain ⟨⟨c, _ | _⟩, -, rfl⟩ := Option.map_eq_some_iff.mp h
      · exact Or.inl rfl
      · exact Or.inr ⟨generation, event, rfl, rfl⟩
  | receive blocked keep =>
    left
    rw [step] at h
    split at h
    · split at h
      · exact absurd h (by simp)
      next c stale r _ =>
        rcases r with e | d
        · exact Option.some_inj.mp h ▸ rfl
        · dsimp only at h
          split at h
          · exact Option.some_inj.mp h ▸ rfl
          · obtain ⟨c', -, rfl⟩ := Option.map_eq_some_iff.mp h
            rfl
    · exact Option.some_inj.mp h ▸ rfl
  | dropHeld i =>
    left
    rw [step] at h
    split at h
    · exact Option.some_inj.mp h ▸ rfl
    · obtain ⟨c', -, rfl⟩ := Option.map_eq_some_iff.mp h
      rfl
  | dropReceiver =>
    left
    rw [step] at h
    split at h
    · obtain ⟨⟨c', ds⟩, -, rfl⟩ := Option.map_eq_some_iff.mp h
      rfl
    · exact Option.some_inj.mp h ▸ rfl
  | cloneSender =>
    left
    rw [step] at h
    split at h <;> exact Option.some_inj.mp h ▸ rfl
  | _ => exact Or.inl (Option.some_inj.mp h ▸ rfl)

/-- What is queued was accepted. -/
theorem Inv.mem_accepted (h : Inv size capacity t) {cls : EventClass} {d : Delivery ε}
    (hd : d ∈ t.channel.queue cls) : d ∈ t.accepted := by
  have hmem : d ∈ ofClass cls t.accepted := by
    rw [h.ordered cls]
    exact List.mem_append_right _ hd
  exact List.mem_of_mem_filter hmem

/-- What a receive returns was accepted and is current. -/
theorem Inv.served (h : Inv size capacity t) {blocked : Bool} {c' : Channel ε}
    {stale : List (Delivery ε)} {d : Delivery ε}
    (hserve : serve blocked t.channel = some (c', stale, .ok d)) :
    d ∈ t.accepted ∧ t.channel.current = d.generation := by
  obtain ⟨c₁, stale', r, hserve', hr⟩ := serve_spec h.ledger blocked
  obtain ⟨rfl, rfl, rfl⟩ : c' = c₁ ∧ stale = stale' ∧ Except.ok d = r := by
    simpa using hserve.symm.trans hserve'
  have hqueue : d ∈ t.channel.queue d.permit.cls := by
    rw [hr.queue h.ledger]
    exact List.mem_append_left _ (by simp [Except.toOption])
  refine ⟨h.mem_accepted hqueue, ?_⟩
  obtain ⟨-, -, -, ⟨d', hd, -, hcur⟩ | ⟨e, he, -⟩⟩ := hr
  · injection hd with hd
    rw [hd]
    exact hcur
  · exact absurd he (by simp)

/-! ### Runs -/

theorem start_inv {c : Channel ε} (h : Channel.open' capacity = .ok c) :
    Inv size capacity { channel := c, held := [], accepted := [], dequeued := [] } := by
  rw [Channel.open'] at h
  split at h
  · injection h with h
    subst h
    have hledger : Ledger size (fresh capacity) [] :=
      ⟨fun cls d hd => absurd hd (by simp [fresh]), Accounted.empty,
        fun d hd => absurd hd (by simp [outstanding, fresh]), fun cls => Nat.zero_le _,
        fun cls => Nat.zero_le _⟩
    exact ⟨rfl, hledger, rfl, fun hf => absurd hf (by simp [fresh]), fun cls => rfl,
      fun d hd => absurd hd (by simp), fun p hp => absurd hp (by simp)⟩
  · exact absurd h (by simp)

/-- Every run of a fresh channel goes through, and keeps the invariant. -/
theorem run_inv (size : ε → EventClass × ℕ) {c : Channel ε}
    (h : Channel.open' capacity = .ok c) (as : List (Action ε)) :
    ∃ t, run size c as = some t ∧ Inv size capacity t := by
  refine Runs.run_invariant (I := fun o => ∃ t, o = some t ∧ Inv size capacity t) ?_ as
    ⟨_, rfl, start_inv h⟩
  rintro _ a ⟨t, rfl, ht⟩
  exact step_inv ht a

/-! ### What the budget guarantees -/

/-- Class by class, what is counted is what is queued or held. -/
theorem outstanding_ofClass (hl : Ledger size t.channel t.held) (cls : EventClass) :
    (t.channel.outstanding t.held |>.filter fun d => d.permit.cls = cls)
      = t.channel.queue cls ++ ofClass cls t.held := by
  have hself : ∀ cls', (t.channel.queue cls').filter (fun d => d.permit.cls = cls)
      = if cls' = cls then t.channel.queue cls' else [] := by
    intro cls'
    split
    next h =>
      rw [List.filter_eq_self]
      intro d hd
      simpa using (hl.filed cls' d hd).trans h
    next h =>
      rw [List.filter_eq_nil_iff]
      intro d hd
      simpa [hl.filed cls' d hd] using h
  rw [outstanding, List.filter_append, List.filter_append, hself, hself, ofClass]
  cases cls <;> simp

theorem count_eq (hl : Ledger size t.channel t.held) (cls : EventClass) :
    t.channel.usage.count cls
      = (t.channel.queue cls).length + (ofClass cls t.held).length := by
  rw [hl.accounted.count_eq, List.filter_map, List.length_map, ← List.length_append,
    ← outstanding_ofClass hl cls]
  rfl

theorem bytes_eq (hl : Ledger size t.channel t.held) (cls : EventClass) :
    t.channel.usage.bytes cls
      = ((t.channel.queue cls).map fun d => d.permit.bytes).sum
        + ((ofClass cls t.held).map fun d => d.permit.bytes).sum := by
  rw [hl.accounted.bytes_eq, List.filter_map, List.map_map, ← List.sum_append, ← List.map_append,
    ← outstanding_ofClass hl cls]
  rfl

/-- **The callback budget**, after any run of a channel of any capacity.  No
permit underflows; the counters are exactly what is queued or held, and stay
within their limits; a refused send returns its event, leaves the channel as it
was, and is refused by the generation or the budget and never by the bounded
queue; and behind a dropped receiver nothing is accepted or counted beyond what
dispatchers still hold. -/
theorem budget_accounting (base capacity : ℕ) (c : Channel CallbackEvent)
    (hopen : Channel.open' capacity = .ok c) (as : List (Action CallbackEvent)) :
    ∃ t, run (eventSize base) c as = some t ∧
      (∀ cls,
        t.channel.usage.count cls
          = (t.channel.queue cls).length + (ofClass cls t.held).length ∧
        t.channel.usage.bytes cls
          = ((t.channel.queue cls).map fun d => d.permit.bytes).sum
            + ((ofClass cls t.held).map fun d => d.permit.bytes).sum ∧
        t.channel.usage.count cls ≤ countLimit capacity cls ∧
        t.channel.usage.bytes cls ≤ byteLimit cls) ∧
      (∀ d ∈ t.channel.outstanding t.held, ∀ e ∈ d.event,
        eventSize base e = (d.permit.cls, d.permit.bytes)) ∧
      (∀ generation event, ∃ c' r,
        t.channel.trySend (eventSize base) generation event = some (c', r) ∧
        (∀ e, r = .error e → c' = t.channel ∧ e.intoInner = event) ∧
        (r = .error (.full event) →
          t.channel.current ≠ generation ∨ t.channel.Exhausted (eventSize base) event) ∧
        (t.channel.receiverAlive = false →
          r ≠ .ok () ∧ (t.channel.current = generation → r = .error (.disconnected event)))) ∧
      (t.channel.receiverAlive = false → ∀ cls,
        t.channel.usage.count cls = (ofClass cls t.held).length ∧
        t.channel.usage.bytes cls = ((ofClass cls t.held).map fun d => d.permit.bytes).sum) := by
  obtain ⟨t, hrun, h⟩ := run_inv (eventSize base) hopen as
  refine ⟨t, hrun, fun cls => ⟨count_eq h.ledger cls, bytes_eq h.ledger cls, ?_,
    h.ledger.bytes_le cls⟩, h.ledger.sized, fun generation event => ?_, fun hdead cls => ?_⟩
  · rw [← h.capacity_eq]
    exact h.ledger.count_le cls
  · exact trySend_answers h.ledger h.closed_eq generation event
  · have hempty := h.swept hdead cls
    refine ⟨?_, ?_⟩
    · rw [count_eq h.ledger cls, hempty]
      exact Nat.zero_add _
    · rw [bytes_eq h.ledger cls, hempty]
      exact Nat.zero_add _

/-- A video frame sent to a channel of capacity one and held by a dispatcher
while the receiver goes away is the one envelope counted. -/
theorem budget_accounting_held :
    ∃ c : Channel CallbackEvent, Channel.open' 1 = .ok c ∧
      ∃ t, run (eventSize 72) c [.trySend 0 (.videoFrame ⟨[7], 8⟩ 1 1), .receive false true,
          .dropReceiver] = some t ∧
        ∀ cls, t.channel.usage.count cls ≤ countLimit 1 cls := by
  obtain ⟨t, hrun, hcls, -⟩ := budget_accounting 72 1 _ rfl
    [.trySend 0 (.videoFrame ⟨[7], 8⟩ 1 1), .receive false true, .dropReceiver]
  exact ⟨_, rfl, t, hrun, fun cls => (hcls cls).2.2.1⟩

/-! ### What the consumer sees -/

theorem received_sublist (t : Traffic ε) : t.received.Sublist (t.dequeued.map Prod.fst) := by
  rw [received]
  induction t.dequeued with
  | nil => exact List.Sublist.refl _
  | cons p rest ih =>
    rcases p with ⟨d, _ | _ | _⟩
    · exact ih.cons_cons d
    · exact ih.cons d
    · exact ih.cons d

/-- A media envelope is returned only when every queued control envelope was
stale. -/
theorem media_after_control (hl : Ledger size t.channel t.held) {blocked : Bool}
    {c' : Channel ε} {stale : List (Delivery ε)} {d : Delivery ε}
    (h : serve blocked t.channel = some (c', stale, .ok d)) :
    t.channel.isCurrent d ∧ (d.permit.cls = .media →
      ∀ d' ∈ t.channel.queue .control, ¬ t.channel.isCurrent d') := by
  obtain ⟨c₁, stale', r, hserve, hr⟩ := serve_spec hl blocked
  obtain ⟨rfl, rfl, rfl⟩ : c' = c₁ ∧ stale = stale' ∧ Except.ok d = r := by
    simpa using h.symm.trans hserve
  obtain ⟨c₂, hs, hstale, ⟨d₁, hd, hpop, hcur⟩ | ⟨e, he, -⟩⟩ := hr
  · injection hd with hd
    subst hd
    obtain ⟨hl₂, hq⟩ := hs.spec hl
    refine ⟨hcur, fun hmedia d' hd' => ?_⟩
    obtain ⟨cls, rest, hhead, hcontrol, -⟩ := pop_cases hpop
    have hcls : cls = .media := (hl₂.filed cls d (by simp [hhead])).symm.trans hmedia
    rw [hq .control, hcontrol hcls, List.append_nil] at hd'
    exact hstale d' (List.mem_of_mem_filter hd')
  · exact absurd he (by simp)

/-- **Delivery order**, after any run of a channel of any capacity.  In each
class the received envelopes are a subsequence of the accepted ones; the class
queue is exactly what was accepted and not taken out, and what was taken out
and not received was stale at that receive or went with the receiver; and a
receive returns a current envelope, never a media one past a current control
one. -/
theorem delivery_order (base capacity : ℕ) (c : Channel CallbackEvent)
    (hopen : Channel.open' capacity = .ok c) (as : List (Action CallbackEvent)) :
    ∃ t, run (eventSize base) c as = some t ∧
      (∀ d ∈ t.accepted, ∃ generation event, d = envelope (eventSize base) generation event) ∧
      (∀ cls, (ofClass cls t.received).Sublist (ofClass cls t.accepted)) ∧
      (∀ cls, ofClass cls t.accepted
        = ofClass cls (t.dequeued.map Prod.fst) ++ t.channel.queue cls) ∧
      (∀ d fate, (d, fate) ∈ t.dequeued → fate = .received ∨
        (∃ current, fate = .stale current ∧ d.generation ≠ current) ∨
        (fate = .swept ∧ t.channel.receiverAlive = false)) ∧
      (∀ blocked c' stale d, serve blocked t.channel = some (c', stale, .ok d) →
        t.channel.isCurrent d ∧ (d.permit.cls = .media →
          ∀ d' ∈ t.channel.queue .control, ¬ t.channel.isCurrent d')) := by
  obtain ⟨t, hrun, h⟩ := run_inv (eventSize base) hopen as
  refine ⟨t, hrun, h.genuine, fun cls => ?_, h.ordered, fun d fate hp => ?_,
    fun blocked c' stale d hserve => media_after_control h.ledger hserve⟩
  · rw [h.ordered cls]
    exact ((received_sublist t).filter _).trans (List.sublist_append_left _ _)
  · cases fate with
    | received => exact Or.inl rfl
    | stale current => exact Or.inr (Or.inl ⟨current, rfl, h.explained _ hp⟩)
    | swept => exact Or.inr (Or.inr ⟨rfl, h.explained _ hp⟩)

/-- An envelope that a reset made stale is skipped by the next receive. -/
theorem delivery_order_reset :
    ∃ c : Channel CallbackEvent, Channel.open' 2 = .ok c ∧
      ∃ t, run (eventSize 72) c [.trySend 0 (.videoFrame ⟨[7], 8⟩ 1 1), .setGeneration 1,
          .trySend 1 (.videoFrame ⟨[9], 8⟩ 1 1), .receive false false] = some t ∧
        (ofClass .media t.received).Sublist (ofClass .media t.accepted) := by
  obtain ⟨t, hrun, -, hsub, -⟩ := delivery_order 72 2 _ rfl
    [.trySend 0 (.videoFrame ⟨[7], 8⟩ 1 1), .setGeneration 1,
      .trySend 1 (.videoFrame ⟨[9], 8⟩ 1 1), .receive false false]
  exact ⟨_, rfl, t, hrun, hsub .media⟩

end Traffic

end Unitree
