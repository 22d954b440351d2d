/-
The callback dispatcher, one step at a time.

A step of the dispatcher reads three things that others write: the session id, the
registry and the channel.  What a step can do is said once (`Host.Does`), guards included,
and everything that holds of the dispatcher is derived from that.

* `Node.step_apart` — what the rest of the program leaves to the dispatcher;
* `Host.step_does` — everything a step can do;
* `Host.Inv` — what the dispatcher has in hand, what it has done, and what its logs say;
* `Host.step_inv`, `Host.run_inv` — kept by every step and every run.
-/
import UnitreeWebrtc.Callbacks

namespace Unitree

/-! ### The rest of the program -/

namespace Node

variable {n n' n₁ n₂ : Node}

/-- What a step of the rest of the program leaves to the dispatcher: it only adds to
what is accepted. -/
structure Apart (n n' : Node) : Prop where
  held : n'.traffic.held = n.traffic.held
  received : n'.traffic.received = n.traffic.received
  observed : n'.observed = n.observed
  alive : n'.traffic.channel.receiverAlive = n.traffic.channel.receiverAlive

theorem Apart.refl (n : Node) : Apart n n := ⟨rfl, rfl, rfl, rfl⟩

theorem Apart.trans (h : Apart n n₁) (h' : Apart n₁ n₂) : Apart n n₂ :=
  ⟨h'.held.trans h.held, h'.received.trans h.received, h'.observed.trans h.observed,
    h'.alive.trans h.alive⟩

/-- The same, from the last step back. -/
theorem Apart.after (h' : Apart n₁ n₂) (h : Apart n n₁) : Apart n n₂ := h.trans h'

theorem trySend_alive {ε : Type} {size : ε → EventClass × ℕ} {c c' : Channel ε} {generation : ℕ}
    {event : ε} {r : Except (TrySendError ε) Unit}
    (h : c.trySend size generation event = some (c', r)) :
    c'.receiverAlive = c.receiverAlive := by
  have hdrop : ∀ {c₁ : Channel ε} {d : Delivery ε} {r' : Except (TrySendError ε) Unit},
      (c₁.dropDelivery d).map (fun c => (c, r')) = some (c', r) →
        c₁.receiverAlive = c.receiverAlive → c'.receiverAlive = c.receiverAlive := by
    intro c₁ d r' hmap halive
    obtain ⟨c₂, hc₂, heq⟩ := Option.map_eq_some_iff.mp hmap
    obtain ⟨rfl, -⟩ := Prod.mk.inj heq
    exact (Channel.frame_drop hc₂).1.receiverAlive.trans halive
  simp only [Channel.trySend] at h
  repeat' split at h
  all_goals first
    | exact hdrop h rfl
    | (obtain ⟨rfl, -⟩ := Prod.mk.inj (Option.some_inj.mp h); rfl)

theorem trySend_apart (base : ℕ) (n : Node) (generation : ℕ) (e : Tagged) :
    Apart n (n.trafficStep base (.trySend generation e)) := by
  rw [trafficStep, Traffic.step]
  split
  · exact ⟨rfl, rfl, rfl, rfl⟩
  · rcases hsend : n.events.channel.trySend (taggedSize base) generation e with _ | ⟨c, _ | _⟩
    · exact ⟨rfl, rfl, rfl, rfl⟩
    all_goals
      have halive : c.receiverAlive = n.events.channel.receiverAlive := trySend_alive hsend
      exact ⟨rfl, rfl, rfl, halive⟩

theorem push_apart (capacity : ℕ) (n : Node) (m : Source × IngressMessage) :
    Apart n (n.push capacity m) := by
  rw [push]
  split <;> exact ⟨rfl, rfl, rfl, rfl⟩

theorem handOn_apart (base : ℕ) (source : Source) (n : Node) (e : Effect) :
    Apart n (n.handOn base source e) := by
  cases e with
  | event generation event => exact trySend_apart base n generation _
  | _ => exact ⟨rfl, rfl, rfl, rfl⟩

theorem process_apart (p : Platform) (base : ℕ) (env : Env) (n : Node)
    (m : Source × IngressMessage) : Apart n (n.process p base env m) := by
  have hfold : ∀ (es : List Effect) (n : Node), Apart n (es.foldl (handOn base m.1) n) := by
    intro es
    induction es with
    | nil => intro n; exact .refl n
    | cons e rest ih => intro n; exact (handOn_apart base m.1 n e).trans (ih _)
  exact (hfold _ _).after ⟨rfl, rfl, rfl, rfl⟩

theorem step_apart (p : Platform) (base capacity : ℕ) (n : Node) {a : Action}
    (ha : Host.foreign a = true) : Apart n (n.step p base capacity a) := by
  cases a with
  | enqueue i =>
    rw [step]
    split
    · exact .refl n
    · exact (push_apart _ _ _).after ⟨rfl, rfl, rfl, rfl⟩
  | commandFault peer =>
    rw [step]
    split
    · exact .refl n
    split
    · exact (push_apart _ _ _).after ⟨rfl, rfl, rfl, rfl⟩
    · exact .refl n
  | routeMessage payload =>
    rw [step]
    split
    · exact .refl n
    · exact push_apart _ _ _
  | takeFault env =>
    rw [step]
    split
    · exact .refl n
    · exact (process_apart _ _ _ _ _).after ⟨rfl, rfl, rfl, rfl⟩
  | route env =>
    rw [step]
    split
    · exact .refl n
    · exact (process_apart _ _ _ _ _).after ⟨rfl, rfl, rfl, rfl⟩
  | workerSend i env points =>
    rw [step]
    split
    · exact .refl n
    · dsimp only
      split
      · exact ⟨rfl, rfl, rfl, rfl⟩
      · exact (trySend_apart _ _ _ _).after ⟨rfl, rfl, rfl, rfl⟩
  | media peer event =>
    rw [step]
    split
    · exact .refl n
    · exact trySend_apart _ _ _ _
  | call a =>
    rw [step]
    split
    · exact .refl n
    · exact ⟨rfl, rfl, rfl, rfl⟩
  | receive blocked keep => exact absurd ha (by simp [Host.foreign])
  | takeEvent i => exact absurd ha (by simp [Host.foreign])
  | dropHeld i => exact absurd ha (by simp [Host.foreign])
  | dropReceiver => exact absurd ha (by simp [Host.foreign])
  | onMessage peer payload =>
    rw [step]
    split
    · exact .refl n
    · split <;> exact ⟨rfl, rfl, rfl, rfl⟩
  | workerCheck i =>
    rw [step]
    split
    · exact .refl n
    · split <;> exact ⟨rfl, rfl, rfl, rfl⟩
  | setIngressGeneration =>
    rw [step]
    split <;> exact ⟨rfl, rfl, rfl, rfl⟩
  | workerRecv =>
    rw [step]
    split <;> exact ⟨rfl, rfl, rfl, rfl⟩
  | createPeer => exact ⟨rfl, rfl, rfl, rfl⟩
  | prepareIngress => exact ⟨rfl, rfl, rfl, rfl⟩

/-! The receiver is the dispatcher's own. -/

/-- An envelope without the event that was extracted. -/
def strip (d : Delivery Tagged) : Delivery Tagged := { d with event := none }

section

variable {ε : Type} (t : Traffic ε)

theorem received_append (ds ds' : List (Delivery ε × Fate)) :
    Traffic.received { t with dequeued := ds ++ ds' } =
      Traffic.received { t with dequeued := ds } ++ Traffic.received { t with dequeued := ds' } :=
  List.filterMap_append

theorem received_lost (fate : Fate) (hfate : fate ≠ .received) (ds : List (Delivery ε)) :
    Traffic.received { t with dequeued := ds.map fun d => (d, fate) } = [] := by
  induction ds with
  | nil => rfl
  | cons d rest ih =>
    cases fate with
    | received => exact absurd rfl hfate
    | stale | swept => exact ih

theorem received_fates (current : ℕ) (stale : List (Delivery ε))
    (r : Except RecvError (Delivery ε)) :
    Traffic.received { t with dequeued := t.dequeued ++ Traffic.fates current stale r } =
      t.received ++ r.toOption.toList := by
  have hstale := received_lost t (.stale current) (by simp) stale
  rw [received_append, Traffic.fates, received_append, hstale, List.nil_append]
  rcases r with e | d <;> rfl

end

variable {base limit : ℕ}

/-- What a receive does that returns this envelope, whose event is then extracted. -/
structure Takes (n : Node) (d : Delivery Tagged) (n' : Node) : Prop where
  held : n'.traffic.held = strip d :: n.traffic.held
  received : n'.traffic.received = n.traffic.received ++ [d]
  observed : n'.observed = n.observed ++ [⟨n.sys.service.sessionId, d⟩]
  alive : n'.traffic.channel.receiverAlive = true
  sys : n'.sys = n.sys
  accepted : d ∈ n.traffic.accepted
  current : n.sys.service.sessionId = d.generation

theorem receive_takes (p : Platform) (capacity : ℕ) (h : Inv base limit n)
    (halive : n.traffic.channel.receiverAlive = true)
    {blocked : Bool} {c : Channel Tagged} {stale : List (Delivery Tagged)} {d : Delivery Tagged}
    (hserve : Traffic.serve blocked n.events.channel = some (c, stale, .ok d)) :
    Takes n d ((n.step p base capacity (.receive blocked true)).step p base capacity
      (.takeEvent 0)) := by
  obtain ⟨hacc, hcur⟩ := h.events.served hserve
  obtain ⟨c₁, stale₁, r, hserve₁, hr⟩ := Traffic.serve_spec h.events.ledger blocked
  obtain ⟨rfl, rfl, rfl⟩ : c = c₁ ∧ stale = stale₁ ∧ Except.ok d = r := by
    simpa using hserve.symm.trans hserve₁
  have halive' : n.events.channel.receiverAlive = true := halive
  have hstep : n.trafficStep base (.receive blocked true) =
      { n with traffic :=
          { n.events with
            channel := c
            held := d :: n.traffic.held
            dequeued := n.traffic.dequeued ++
              Traffic.fates n.sys.service.sessionId stale (.ok d) } } := by
    rw [trafficStep, Traffic.step, if_pos halive', hserve]
    rfl
  have hreceive : n.step p base capacity (.receive blocked true) =
      { n.trafficStep base (.receive blocked true) with
        observed := n.observed ++ [⟨n.sys.service.sessionId, d⟩] } := by
    rw [step, hserve]
    dsimp only
    rw [if_pos halive]
  rw [hreceive, hstep]
  exact ⟨rfl, received_fates n.traffic _ stale (.ok d), rfl,
    hr.frame.receiverAlive.trans halive, rfl, hacc, hcur⟩

theorem receive_sys (p : Platform) (base capacity : ℕ) (n : Node) (blocked : Bool) :
    (n.step p base capacity (.receive blocked true)).sys = n.sys := by
  rw [step]
  split
  · split <;> rfl
  · rfl

theorem receive_nothing (p : Platform) (capacity : ℕ) (h : Inv base limit n) {blocked : Bool}
    {c : Channel Tagged} {stale : List (Delivery Tagged)} {e : RecvError}
    (hserve : Traffic.serve blocked n.events.channel = some (c, stale, .error e)) :
    Apart n (n.step p base capacity (.receive blocked true)) := by
  rw [step, hserve]
  dsimp only
  rw [trafficStep, Traffic.step]
  split
  next halive =>
    obtain ⟨c₁, stale₁, r, hserve₁, hr⟩ := Traffic.serve_spec h.events.ledger blocked
    obtain ⟨rfl, rfl, rfl⟩ : c = c₁ ∧ stale = stale₁ ∧ Except.error e = r := by
      simpa using hserve.symm.trans hserve₁
    rw [hserve]
    refine ⟨rfl, ?_, rfl, hr.frame.receiverAlive⟩
    exact (received_fates n.traffic _ stale (.error e)).trans (List.append_nil _)
  next => exact ⟨rfl, rfl, rfl, rfl⟩

/-- Dropping the one envelope that is held gives its permit back. -/
theorem dropHeld_held (p : Platform) (capacity : ℕ) (h : Inv base limit n) {d : Delivery Tagged}
    (hheld : n.traffic.held = [d]) :
    (n.step p base capacity (.dropHeld 0)).traffic.held = [] ∧
      (n.step p base capacity (.dropHeld 0)).traffic.received = n.traffic.received ∧
      (n.step p base capacity (.dropHeld 0)).observed = n.observed ∧
      (n.step p base capacity (.dropHeld 0)).traffic.channel.receiverAlive =
        n.traffic.channel.receiverAlive ∧
      (n.step p base capacity (.dropHeld 0)).sys = n.sys := by
  have hl : Ledger (taggedSize base) n.events.channel [d] := by
    have := h.events.ledger
    rwa [show n.events.held = [d] from hheld] at this
  obtain ⟨u, hu, -, -⟩ := hl.drop
  have hstep : n.step p base capacity (.dropHeld 0) =
      { n with traffic := { n.events with
          channel := { n.events.channel with usage := u }, held := [] } } := by
    rw [step, trafficStep, Traffic.step, show n.events.held = [d] from hheld]
    simp only [List.getElem?_cons_zero, hu, Option.map_some, Option.getD_some]
    rfl
  rw [hstep]
  exact ⟨rfl, rfl, rfl, rfl, rfl⟩

theorem dropReceiver_apart (p : Platform) (capacity : ℕ) (h : Inv base limit n) :
    (n.step p base capacity .dropReceiver).traffic.held = n.traffic.held ∧
      (n.step p base capacity .dropReceiver).traffic.received = n.traffic.received ∧
      (n.step p base capacity .dropReceiver).observed = n.observed := by
  rw [step, trafficStep, Traffic.step]
  split
  · have hl : Ledger (taggedSize base)
        { n.events.channel with usage := { n.events.channel.usage with closed := true } }
        n.events.held :=
      ⟨h.events.ledger.filed, ⟨h.events.ledger.accounted.count_eq,
        h.events.ledger.accounted.bytes_eq⟩, h.events.ledger.sized, h.events.ledger.count_le,
        h.events.ledger.bytes_le⟩
    obtain ⟨c, ds, hdrain, -, -⟩ := Channel.drain_spec _ hl
    rw [Channel.dropReceiver, hdrain]
    refine ⟨rfl, ?_, rfl⟩
    have hswept := received_lost n.traffic .swept (by simp) ds
    refine (received_append n.traffic n.traffic.dequeued _).trans ?_
    rw [hswept]
    exact List.append_nil _
  · exact ⟨rfl, rfl, rfl⟩

/-- Nor does it subscribe to anything. -/
theorem step_subscriptions (p : Platform) (base capacity : ℕ) (n : Node) {a : Action}
    (ha : Host.foreign a = true) :
    (n.step p base capacity a).sys.service.subscriptions = n.sys.service.subscriptions := by
  have hsys : ∀ a : Unitree.Action, a.accepted = none →
      (n.sys.step p a).service.subscriptions = n.sys.service.subscriptions := by
    intro a hnone
    ext topic
    rw [Sys.step_subscriptions, hnone]
  have hhand : ∀ (source : Source) (es : List Effect) (n : Node),
      (es.foldl (handOn base source) n).sys = n.sys := by
    intro source es
    induction es with
    | nil => intro n; rfl
    | cons e rest ih =>
      intro n
      rw [List.foldl_cons, ih]
      cases e <;> rfl
  have hprocess : ∀ (env : Env) (n' : Node) (m : Source × IngressMessage), n'.sys = n.sys →
      (n'.process p base env m).sys.service.subscriptions = n.sys.service.subscriptions := by
    intro env n' m hn'
    rw [process, hhand, hn']
    exact hsys _ rfl
  cases a with
  | takeFault env =>
    rw [step]
    split
    · rfl
    · exact hprocess env _ _ rfl
  | route env =>
    rw [step]
    split
    · rfl
    · exact hprocess env _ _ rfl
  | call a =>
    rw [step]
    split
    · rfl
    · refine hsys a ?_
      cases a with
      | subscribe env topic => exact absurd ha (by simp [Host.foreign])
      | unsubscribe env topic => exact absurd ha (by simp [Host.foreign])
      | _ => rfl
  | enqueue i =>
    rw [step]
    split
    · rfl
    · rw [push]
      split <;> rfl
  | commandFault peer =>
    rw [step]
    split
    · rfl
    split
    · rw [push]
      split <;> rfl
    · rfl
  | routeMessage payload =>
    rw [step]
    split
    · rfl
    · rw [push]
      split <;> rfl
  | workerSend i env points =>
    rw [step]
    split
    · rfl
    · dsimp only
      split <;> rfl
  | onMessage peer payload =>
    rw [step]
    split
    · rfl
    · split <;> rfl
  | workerCheck i =>
    rw [step]
    split
    · rfl
    · split <;> rfl
  | receive blocked keep => exact absurd ha (by simp [Host.foreign])
  | takeEvent i => exact absurd ha (by simp [Host.foreign])
  | dropHeld i => exact absurd ha (by simp [Host.foreign])
  | dropReceiver => exact absurd ha (by simp [Host.foreign])
  | media peer event =>
    rw [step]
    split <;> rfl
  | setIngressGeneration =>
    rw [step]
    split <;> rfl
  | workerRecv =>
    rw [step]
    split <;> rfl
  | createPeer => rfl
  | prepareIngress => rfl

end Node

/-! ### What a step can do -/

/-- The rest of the program has taken a step, or none. -/
structure Node.Beside (base : ℕ) (n n' : Node) : Prop where
  apart : n.Apart n'
  inv : ∀ limit, Node.Inv base limit n → Node.Inv base limit n'
  observes : n.Observes n'

theorem Node.Beside.refl (base : ℕ) (n : Node) : Node.Beside base n n :=
  ⟨.refl n, fun _ h => h, .same rfl rfl⟩

namespace DispatchStage

variable {κ : Type}

/-- The delivery whose permit the dispatcher holds. -/
def holding : DispatchStage κ → List (Delivery Tagged)
  | waiting | ended => []
  | received d _ | attached d _ | checked d _ | copied d _ _ | converted d _ _ _
  | calling d _ _ | done d => [d]

/-- The delivery that has no outcome yet. -/
def inHand : DispatchStage κ → List (Delivery Tagged)
  | done _ => []
  | stage => stage.holding

def inCall : DispatchStage κ → List (Delivery Tagged)
  | calling d _ _ => [d]
  | _ => []

/-- What is going to be called with what, if nothing fails. -/
def copy : DispatchStage κ → Option (Delivery Tagged × Tagged × RegisteredCallback κ)
  | copied d e r | converted d e r _ => some (d, e, r)
  | _ => none

/-- The event is the delivery's, the callback was registered under its key, and the
argument is the event's. -/
def Genuine (registered : List (String × RegisteredCallback κ)) : DispatchStage κ → Prop
  | received d e | attached d e | checked d e => d.event = some e
  | copied d e r | calling d e r => d.event = some e ∧
      ∃ key kind, e.event.target = some (key, kind) ∧ (key, r) ∈ registered
  | converted d e r argument => d.event = some e ∧ e.event.argument = some argument ∧
      ∃ key kind, e.event.target = some (key, kind) ∧ (key, r) ∈ registered
  | waiting | done _ | ended => True

end DispatchStage

namespace Outcome

/-- The log a failure goes to. -/
def failure : Outcome → Option CallbackFailure
  | unattached => some .attachment
  | conversionFailed cls => some (.conversion cls)
  | raised cls => some (.invocation cls)
  | _ => none

/-- The callback was called. -/
def invoked : Outcome → Bool
  | returned | raised _ => true
  | _ => false

end Outcome

/-- What a line says of the failure that it was logged for. -/
def CallbackFailure.Describes (label : ℕ) (report : FailureReport) : CallbackFailure → Prop
  | conversion cls => report.event = "python_callback_failed" ∧ report.stage = "conversion" ∧
      report.errorClass = errorClasses.get cls ∧ report.generation = label
  | invocation cls => report.event = "python_callback_failed" ∧ report.stage = "invocation" ∧
      report.errorClass = errorClasses.get cls ∧ report.generation = label
  | attachment => False

namespace Host

variable {κ : Type} {i : Interpreter κ} {p : Platform} {base limit capacity : ℕ}

/-- A key that something may be registered under. -/
def Subscribed (n : Node) (key : String) : Prop :=
  key = "video" ∨ key = "audio" ∨ key ∈ n.sys.service.subscriptions

/-- The dispatcher goes on, and nothing else changes. -/
inductive Advances (h : Host κ) : DispatchStage κ → DispatchStage κ → Prop
  | attach (d : Delivery Tagged) (e : Tagged) (htarget : e.event.target ≠ none) :
      Advances h (.received d e) (.attached d e)
  | check (d : Delivery Tagged) (e : Tagged)
      (hcurrent : h.node.sys.service.sessionId = d.generation) :
      Advances h (.attached d e) (.checked d e)
  | copy (d : Delivery Tagged) (e : Tagged) (r : RegisteredCallback κ) (key kind : String)
      (htarget : e.event.target = some (key, kind)) (hlookup : h.registry.lookup key = some r) :
      Advances h (.checked d e) (.copied d e r)
  | convert (d : Delivery Tagged) (e : Tagged) (r : RegisteredCallback κ) (argument : Argument)
      (hargument : e.event.argument = some argument) :
      Advances h (.copied d e r) (.converted d e r argument)

/-- The failure of an outcome is recorded, under the label of the moment. -/
inductive Records (t : Tally CallbackFailure FailureReport) (outcome : Outcome) :
    Tally CallbackFailure FailureReport → Prop
  | silent (h : outcome.failure = none) : Records t outcome t
  | plain (now : ℕ) (h : outcome = .unattached) : Records t outcome (t.record .attachment now none)
  | report (f : CallbackFailure) (now : ℕ) (report : FailureReport)
      (h : outcome.failure = some f) (hreport : f.Describes t.label report) :
      Records t outcome (t.record f now (some report))

/-- Everything a step can do. -/
inductive Does (base : ℕ) (h : Host κ) : Host κ → Prop
  | elsewhere (node : Node) (hnode : Node.Beside base h.node node)
      (hkeys : ∀ key, Subscribed h.node key → Subscribed node key) : Does base h { h with node }
  | registers (node : Node) (hnode : Node.Beside base h.node node)
      (hkeys : ∀ key, Subscribed h.node key → Subscribed node key) (key : String) (callback : κ)
      (hkey : Subscribed node key) : Does base h (register { h with node } key callback)
  | removes (node : Node) (hnode : Node.Beside base h.node node)
      (registry : Table String (RegisteredCallback κ))
      (hsub : ∀ k r, registry.lookup k = some r →
        h.registry.lookup k = some r ∧ (Subscribed h.node k → Subscribed node k)) :
      Does base h { h with node, registry }
  | allocates : Does base h { h with nextId := h.nextId + 1 }
  | receives (d : Delivery Tagged) (e : Tagged) (node : Node) (hstage : h.stage = .waiting)
      (hevent : d.event = some e) (hnode : Node.Takes h.node d node)
      (hinv : ∀ limit, Node.Inv base limit h.node → Node.Inv base limit node)
      (failures : Tally CallbackFailure FailureReport)
      (hfailures : h.generation = some d.generation ∧ failures = h.failures ∨
        failures = h.failures.reset CallbackFailure.order d.generation) :
      Does base h
        { h with node, failures, generation := some d.generation, stage := .received d e }
  | advances (stage : DispatchStage κ) (hstage : Advances h h.stage stage) :
      Does base h { h with stage }
  | calls (d : Delivery Tagged) (e : Tagged) (r : RegisteredCallback κ) (argument : Argument)
      (hstage : h.stage = .converted d e r argument)
      (hcurrent : h.node.sys.service.sessionId = d.generation) :
      Does base h
        { h with
          stage := .calling d e r
          calls := h.calls ++ [⟨h.node.sys.service.sessionId, d, r, argument⟩] }
  | settles (d : Delivery Tagged) (outcome : Outcome)
      (failures : Tally CallbackFailure FailureReport) (hhand : h.stage.inHand = [d])
      (hcall : h.stage.inCall = if outcome.invoked then [d] else [])
      (hfailures : Records h.failures outcome failures) :
      Does base h (settle { h with failures } d outcome)
  | drops (d : Delivery Tagged) (node : Node) (hstage : h.stage = .done d)
      (hheld : ∀ d', h.node.traffic.held = [d'] → node.traffic.held = [] ∧
        h.node.Apart { node with traffic.held := h.node.traffic.held } ∧
        node.sys = h.node.sys)
      (hinv : ∀ limit, Node.Inv base limit h.node → Node.Inv base limit node) :
      Does base h { h with node, stage := .waiting }
  | ends (node : Node) (hstage : h.stage = .waiting)
      (hheld : node.traffic.held = h.node.traffic.held)
      (hreceived : node.traffic.received = h.node.traffic.received)
      (hobserved : node.observed = h.node.observed)
      (hinv : ∀ limit, Node.Inv base limit h.node → Node.Inv base limit node)
      (hobserves : h.node.Observes node) (hsys : node.sys = h.node.sys) :
      Does base h
        { h with node, failures := h.failures.drop CallbackFailure.order, stage := .ended }

theorem step_beside (p : Platform) (base capacity : ℕ) (n : Node) {a : Node.Action}
    (ha : foreign a = true) : Node.Beside base n (n.step p base capacity a) :=
  ⟨Node.step_apart p base capacity n ha, fun _ h => Node.step_inv p capacity n a h,
    Node.step_observes p base capacity n a⟩

/-- A bridge's own step of the service. -/
theorem call_beside (p : Platform) (base capacity : ℕ) (n : Node) (a : Unitree.Action) :
    Node.Beside base n (n.step p base capacity (.call a)) := by
  refine ⟨?_, fun _ h => Node.step_inv p capacity n _ h, Node.step_observes p base capacity n _⟩
  rw [Node.step]
  split
  · exact .refl n
  · exact ⟨rfl, rfl, rfl, rfl⟩

/-- A subscription takes no key away. -/
theorem subscribe_keys (p : Platform) (base capacity : ℕ) {n : Node} (env : Env) (topic : String)
    {key : String} (hkey : Subscribed n key) :
    Subscribed (n.step p base capacity (.call (.subscribe env topic))) key := by
  refine hkey.imp id (Or.imp id fun hmem => ?_)
  show key ∈ (n.sys.service.subscribe env topic).2.subscriptions
  rw [Service.subscribe_subscriptions]
  split
  · trivial
  · exact hmem

/-- Taking back a subscription takes its own key away, if it is accepted. -/
theorem unsubscribe_keys (p : Platform) (base capacity : ℕ) {n : Node} (env : Env)
    {topic key : String} (hne : (n.sys.service.unsubscribe env topic).1 ≠ .ok () ∨ key ≠ topic)
    (hkey : Subscribed n key) :
    Subscribed (n.step p base capacity (.call (.unsubscribe env topic))) key := by
  refine hkey.imp id (Or.imp id fun hmem => ?_)
  show key ∈ (n.sys.service.unsubscribe env topic).2.subscriptions
  rw [Service.unsubscribe_subscriptions, if_neg]
  · exact hmem
  · exact fun h => hne.elim (fun hok => hok h.1) fun hk => hk h.2

theorem dropSenders_beside (base : ℕ) (n : Node) :
    Node.Beside base n { n with traffic.channel.senders := 0 } := by
  refine ⟨⟨rfl, rfl, rfl, rfl⟩, fun limit h => ?_, .same rfl rfl⟩
  exact ⟨h.traffic.elsewhere n.traffic.channel.current 0, h.messages, h.jobs, h.accepted,
    h.observed⟩

theorem convert_ok {event : CallbackEvent} {raised : Option ℕ} {argument : Argument}
    (h : convert i event raised = .ok argument) : event.argument = some argument := by
  rcases raised with _ | raised
  · rcases hargument : event.argument with _ | a
    · simp [convert, hargument] at h
    · simpa [convert, hargument] using h
  · simp [convert] at h

theorem report_records (i : Interpreter κ) (h : Host κ) (log : ErrorClass → CallbackFailure)
    (stage : String)
    (hlog : ∀ cls label kind id, (log cls).Describes label
      ⟨"python_callback_failed", stage, kind, id, errorClasses.get cls, "dispatcher", label⟩)
    (kind : String) (id raised now : ℕ) :
    ∃ cls report, (log cls).Describes h.failures.label report ∧
      h.report i log stage kind id raised now =
        ({ h with failures := h.failures.record (log cls) now (some report) }, some cls) := by
  obtain ⟨cls, hcls, hname⟩ := errorClass?_safe i.known raised
  refine ⟨cls, _, hlog cls h.failures.label kind id, ?_⟩
  rw [report, hcls, hname]

theorem recvDelivery_does (h : Host κ) (hinv : Node.Inv base limit h.node)
    (halive : h.node.traffic.channel.receiverAlive = true) (hstage : h.stage = .waiting)
    (blocked : Bool) : Does base h (h.recvDelivery p base capacity blocked) := by
  rw [recvDelivery]
  split
  next c stale d hserve =>
    have htakes := Node.receive_takes p capacity hinv halive hserve
    obtain ⟨e, he, -⟩ := hinv.accepted d htakes.accepted
    rw [he]
    refine .receives d e _ hstage he htakes
      (fun _ hi => Node.step_inv p capacity _ _ (Node.step_inv p capacity _ _ hi)) _ ?_
    split
    next hsame => exact .inl ⟨hsame, rfl⟩
    next => exact .inr rfl
  next c stale hserve =>
    have hnothing := Node.receive_nothing p capacity hinv hserve
    obtain ⟨hheld, hreceived, hobserved⟩ := Node.dropReceiver_apart p capacity
      (Node.step_inv p capacity h.node (.receive blocked true) hinv)
    exact .ends _ hstage (hheld.trans hnothing.held) (hreceived.trans hnothing.received)
      (hobserved.trans hnothing.observed)
      (fun _ hi => Node.step_inv p capacity _ _ (Node.step_inv p capacity _ _ hi))
      ((Node.step_observes p base capacity _ _).trans (Node.step_observes p base capacity _ _))
      (Node.receive_sys p base capacity h.node blocked)
  next hok hdisconnected =>
    obtain ⟨c, stale, r, hserve, -⟩ := Traffic.serve_spec hinv.events.ledger blocked
    cases r with
    | ok d => exact absurd hserve (hok c stale d)
    | error e =>
      refine .elsewhere _ ⟨Node.receive_nothing p capacity hinv hserve,
        fun _ hi => Node.step_inv p capacity _ _ hi, Node.step_observes p base capacity _ _⟩ ?_
      intro key hkey
      rwa [Subscribed, Node.receive_sys]

/-- What the dispatcher has in hand, and what it has done. -/
structure Inv (base limit : ℕ) (h : Host κ) : Prop where
  node : Node.Inv base limit h.node
  alive : h.stage ≠ .ended → h.node.traffic.channel.receiverAlive = true
  /-- What the channel has handed out and not got back is the delivery at hand. -/
  held : h.node.traffic.held = h.stage.holding.map Node.strip
  received : h.node.traffic.received = h.node.observed.map Observation.delivery
  /-- Every delivery has one outcome, but for the one at hand. -/
  handled : h.node.observed.map Observation.delivery = h.outcomes.map Prod.fst ++ h.stage.inHand
  called : h.calls.map Invocation.delivery =
    (h.outcomes.filter fun o => o.2.invoked).map Prod.fst ++ h.stage.inCall
  genuine : h.stage.Genuine h.registered
  registry : ∀ key r, h.registry.lookup key = some r →
    (key, r) ∈ h.registered ∧ Subscribed h.node key
  calls : ∀ call ∈ h.calls, call.delivery.generation = call.session ∧
    ∃ e key kind, call.delivery.event = some e ∧ e.event.target = some (key, kind) ∧
      (key, call.registration) ∈ h.registered ∧ e.event.argument = some call.argument
  sessions : (h.calls.map Invocation.session).Pairwise (· ≤ ·) ∧
    ∀ call ∈ h.calls, call.session ≤ h.node.sys.service.sessionId
  balanced : h.failures.Balanced
  /-- The logs are those of the generation of the delivery at hand. -/
  label : ∀ d ∈ h.stage.inHand, h.generation = some d.generation ∧ h.failures.label = d.generation
  generation : ∀ g, h.generation = some g → h.failures.label = g
  recorded : h.failures.recorded =
    h.outcomes.filterMap fun o => o.2.failure.map fun f => (f, o.1.generation)
  described : ∀ l ∈ h.failures.lines, ∀ report ∈ l.detail, l.log.Describes l.label report
  settled : h.stage = .ended → ∀ f label, h.failures.waiting f label = 0

/-- Everything a step can do. -/
theorem step_does (i : Interpreter κ) (p : Platform) (capacity : ℕ) {h : Host κ}
    (hinv : Inv base limit h) (a : Action κ) : Does base h (step i p base capacity h a) := by
  have hskip : Does base h h := .elsewhere h.node (.refl base h.node) fun _ hkey => hkey
  cases a with
  | node a =>
    rw [step]
    split
    next ha =>
      refine .elsewhere _ (step_beside p base capacity h.node ha) fun key hkey => ?_
      rwa [Subscribed, Node.step_subscriptions p base capacity h.node ha]
    next => exact hskip
  | subscribe env topic callback =>
    rw [step]
    split
    · split
      next hfail =>
        exact .elsewhere _ (call_beside p base capacity h.node _) fun key hkey =>
          subscribe_keys p base capacity env topic hkey
      next hok =>
        refine .registers _ (call_beside p base capacity h.node _)
          (fun key hkey => subscribe_keys p base capacity env topic hkey) topic callback ?_
        refine .inr (.inr ((Service.subscribe_subscriptions ..).mpr ?_))
        rw [if_pos ⟨hok, rfl⟩]
        trivial
    · exact hskip
  | unsubscribe env topic =>
    rw [step]
    split
    next hfail =>
      refine .elsewhere _ (call_beside p base capacity h.node _) fun key hkey => ?_
      exact unsubscribe_keys p base capacity env (.inl (by rw [hfail]; simp)) hkey
    next hok =>
      refine .removes (h.node.step p base capacity (.call (.unsubscribe env topic)))
        (call_beside p base capacity h.node _) (h.registry.erase topic) fun k r hr => ?_
      obtain ⟨hne, hr⟩ := Desk.lookup_of_erase hr
      exact ⟨hr, unsubscribe_keys p base capacity env (.inr hne)⟩
  | onFrame callback =>
    rw [step]
    split
    · exact .registers h.node (.refl base h.node) (fun _ hkey => hkey) "video" callback (.inl rfl)
    · exact hskip
  | onAudio callback =>
    rw [step]
    split
    · exact .registers h.node (.refl base h.node) (fun _ hkey => hkey) "audio" callback
        (.inr (.inl rfl))
    · exact hskip
  | clearCallbacks =>
    exact .removes h.node (.refl base h.node) ∅ fun k r hr => absurd hr (by simp)
  | otherConnection => exact .allocates
  | recvDelivery blocked =>
    rw [step]
    split
    next hstage =>
      exact recvDelivery_does h hinv.node (hinv.alive (by rw [hstage]; simp)) hstage blocked
    next => exact hskip
  | tryAttach available now =>
    rw [step]
    split
    next d e hstage =>
      have hhand : h.stage.inHand = [d] := by rw [hstage]; rfl
      have hcall : h.stage.inCall = [] := by rw [hstage]; rfl
      split
      · exact .settles d .ignored h.failures hhand hcall (.silent rfl)
      next htarget =>
        split
        · exact .advances _ (hstage ▸ .attach d e htarget)
        · exact .settles d .unattached _ hhand hcall (.plain now rfl)
    next => exact hskip
  | checkCurrent =>
    rw [step]
    split
    next d e hstage =>
      split
      next hcurrent => exact .advances _ (hstage ▸ .check d e hcurrent)
      next =>
        exact .settles d .stale h.failures (by rw [hstage]; rfl) (by rw [hstage]; rfl) (.silent rfl)
    next => exact hskip
  | copyCallback =>
    rw [step]
    split
    next d e hstage =>
      split
      next =>
        exact .settles d .unregistered h.failures (by rw [hstage]; rfl) (by rw [hstage]; rfl)
          (.silent rfl)
      next r hr =>
        obtain ⟨⟨key, kind⟩, htarget, hlookup⟩ := Option.bind_eq_some_iff.mp hr
        exact .advances _ (hstage ▸ .copy d e r key kind htarget hlookup)
    next => exact hskip
  | convertArgument raised now =>
    rw [step]
    split
    next d e r hstage =>
      split
      next argument hargument =>
        exact .advances _ (hstage ▸ .convert d e r argument (convert_ok hargument))
      next raised hraised =>
        obtain ⟨cls, report, hdescribes, hreport⟩ := report_records i h .conversion
          "conversion" (fun _ _ _ _ => ⟨rfl, rfl, rfl, rfl⟩)
          (e.event.target.elim "" Prod.snd) r.id raised now
        rw [hreport]
        exact .settles d (.conversionFailed cls) _ (by rw [hstage]; rfl) (by rw [hstage]; rfl)
          (.report (.conversion cls) now report rfl hdescribes)
    next => exact hskip
  | recheckCurrent =>
    rw [step]
    split
    next d e r argument hstage =>
      split
      next hcurrent => exact .calls d e r argument hstage hcurrent
      next =>
        exact .settles d .staleAfterConversion h.failures (by rw [hstage]; rfl)
          (by rw [hstage]; rfl) (.silent rfl)
    next => exact hskip
  | callReturns raised now =>
    rw [step]
    split
    next d e r hstage =>
      split
      · exact .settles d .returned h.failures (by rw [hstage]; rfl) (by rw [hstage]; rfl)
          (.silent rfl)
      next raised =>
        obtain ⟨cls, report, hdescribes, hreport⟩ := report_records i h .invocation
          "invocation" (fun _ _ _ _ => ⟨rfl, rfl, rfl, rfl⟩)
          (e.event.target.elim "" Prod.snd) r.id raised now
        rw [hreport]
        exact .settles d (.raised cls) _ (by rw [hstage]; rfl) (by rw [hstage]; rfl)
          (.report (.invocation cls) now report rfl hdescribes)
    next => exact hskip
  | dropDelivery =>
    rw [step]
    split
    next d hstage =>
      refine .drops d _ hstage (fun d' hd' => ?_) fun _ hi => Node.step_inv p capacity _ _ hi
      obtain ⟨hheld, hreceived, hobserved, halive, hsys⟩ := Node.dropHeld_held p capacity
        hinv.node hd'
      exact ⟨hheld, ⟨rfl, hreceived, hobserved, halive⟩, hsys⟩
    next => exact hskip
  | dropSenders => exact .elsewhere _ (dropSenders_beside base h.node) fun _ hkey => hkey

/-! ### Every step keeps the invariant -/

theorem genuine_mono {registered added : List (String × RegisteredCallback κ)}
    {stage : DispatchStage κ} (h : stage.Genuine registered) :
    stage.Genuine (registered ++ added) := by
  cases stage with
  | copied d e r | calling d e r =>
    obtain ⟨he, key, kind, htarget, hmem⟩ := h
    exact ⟨he, key, kind, htarget, List.mem_append_left _ hmem⟩
  | converted d e r argument =>
    obtain ⟨he, harg, key, kind, htarget, hmem⟩ := h
    exact ⟨he, harg, key, kind, htarget, List.mem_append_left _ hmem⟩
  | _ => exact h

variable {h : Host κ}

theorem Inv.elsewhere (hinv : Inv base limit h) {node : Node}
    (hb : Node.Beside base h.node node) {registry : Table String (RegisteredCallback κ)}
    (hsub : ∀ k r, registry.lookup k = some r →
      h.registry.lookup k = some r ∧ (Subscribed h.node k → Subscribed node k)) :
    Inv base limit { h with node, registry } :=
  { hinv with
    node := hb.inv limit hinv.node
    alive := fun hne => hb.apart.alive.trans (hinv.alive hne)
    held := hb.apart.held.trans hinv.held
    received := by
      show node.traffic.received = node.observed.map _
      rw [hb.apart.received, hb.apart.observed]
      exact hinv.received
    handled := by
      show node.observed.map _ = _
      rw [hb.apart.observed]
      exact hinv.handled
    registry := fun k r hr =>
      ⟨(hinv.registry k r (hsub k r hr).1).1, (hsub k r hr).2 (hinv.registry k r (hsub k r hr).1).2⟩
    sessions := ⟨hinv.sessions.1, fun call hc => (hinv.sessions.2 call hc).trans hb.observes.1⟩ }

theorem Inv.register (hinv : Inv base limit h) (key : String) (callback : κ)
    (hkey : Subscribed h.node key) :
    Inv base limit (h.register key callback) :=
  { hinv with
    genuine := genuine_mono hinv.genuine
    registry := fun k r hr => by
      rw [Host.register, Table.lookup_insert_eq] at hr
      split at hr
      next hk =>
        rw [← Option.some_inj.mp hr, hk]
        exact ⟨List.mem_append_right _ (List.mem_singleton_self _), hkey⟩
      next => exact (hinv.registry k r hr).imp (List.mem_append_left _) id
    calls := fun call hc => by
      obtain ⟨hses, e, k, kind, he, htarget, hmem, harg⟩ := hinv.calls call hc
      exact ⟨hses, e, k, kind, he, htarget, List.mem_append_left _ hmem, harg⟩ }

theorem Inv.receives (hinv : Inv base limit h) {d : Delivery Tagged} {e : Tagged} {node : Node}
    (hstage : h.stage = .waiting) (hevent : d.event = some e) (hnode : Node.Takes h.node d node)
    (hkeep : Node.Inv base limit node) {failures : Tally CallbackFailure FailureReport}
    (hfailures : h.generation = some d.generation ∧ failures = h.failures ∨
      failures = h.failures.reset CallbackFailure.order d.generation) :
    Inv base limit
      { h with node, failures, generation := some d.generation, stage := .received d e } := by
  have hheld : h.node.traffic.held = [] := by
    rw [hinv.held, hstage]
    rfl
  have hbalanced : failures.Balanced := by
    rcases hfailures with ⟨-, rfl⟩ | rfl
    · exact hinv.balanced
    · exact Tally.balanced_reset hinv.balanced CallbackFailure.mem_order _
  have hlabel : failures.label = d.generation := by
    rcases hfailures with ⟨hsame, rfl⟩ | rfl
    · exact hinv.generation _ hsame
    · rfl
  have hrecorded : failures.recorded = h.failures.recorded := by
    rcases hfailures with ⟨-, rfl⟩ | rfl
    · rfl
    · exact Tally.reset_recorded hinv.balanced _
  have hregistry : ∀ key r, h.registry.lookup key = some r →
      (key, r) ∈ h.registered ∧ Subscribed node key := fun key r hr =>
    (hinv.registry key r hr).imp id fun hk => by rwa [Subscribed, hnode.sys]
  refine ⟨hkeep, fun _ => hnode.alive, ?_, ?_, ?_, ?_, hevent, hregistry, hinv.calls,
    ⟨hinv.sessions.1, fun call hc => ?_⟩, hbalanced, fun d' hd' => ?_, fun g hg => ?_,
    hrecorded.trans hinv.recorded, fun l hl report hr => ?_, fun hend => absurd hend (by simp)⟩
  · show node.traffic.held = [Node.strip d]
    rw [hnode.held, hheld]
  · show node.traffic.received = node.observed.map _
    rw [hnode.received, hnode.observed, hinv.received, List.map_append]
    rfl
  · show node.observed.map _ = h.outcomes.map Prod.fst ++ [d]
    rw [hnode.observed, List.map_append, hinv.handled, hstage]
    simp [DispatchStage.inHand, DispatchStage.holding]
  · have := hinv.called
    rwa [hstage] at this
  · rw [hnode.sys]
    exact hinv.sessions.2 call hc
  · rw [List.mem_singleton.mp hd']
    exact ⟨rfl, hlabel⟩
  · exact hlabel.trans (Option.some_inj.mp hg)
  · rcases hfailures with ⟨-, rfl⟩ | rfl
    · exact hinv.described l hl report hr
    · rcases Tally.mem_lines_foldl .reset CallbackFailure.order hl with hl | hnone
      · exact hinv.described l hl report hr
      · exact absurd (hnone.symm.trans hr) (by simp)

theorem Inv.advances (hinv : Inv base limit h) {stage : DispatchStage κ}
    (hstage : Advances h h.stage stage) : Inv base limit { h with stage } := by
  have hsame : stage.holding = h.stage.holding ∧ stage.inHand = h.stage.inHand ∧
      stage.inCall = h.stage.inCall ∧ h.stage ≠ .ended ∧ stage ≠ .ended := by
    generalize h.stage = from' at hstage
    cases hstage <;> exact ⟨rfl, rfl, rfl, by simp, by simp⟩
  obtain ⟨hholding, hhand, hcall, hold, hnew⟩ := hsame
  have hgenuine := hinv.genuine
  refine { hinv with
    alive := fun _ => hinv.alive hold
    held := hinv.held.trans (by rw [hholding])
    handled := hinv.handled.trans (by rw [hhand])
    called := hinv.called.trans (by rw [hcall])
    genuine := ?_
    label := fun d hd => hinv.label d (hhand ▸ hd)
    settled := fun hend => absurd hend hnew }
  generalize h.stage = from' at hstage hgenuine
  cases hstage with
  | attach d e htarget => exact hgenuine
  | check d e hcurrent => exact hgenuine
  | copy d e r key kind htarget hlookup =>
    exact ⟨hgenuine, key, kind, htarget, (hinv.registry key r hlookup).1⟩
  | convert d e r argument hargument => exact ⟨hgenuine.1, hargument, hgenuine.2⟩

theorem Inv.callsOne (hinv : Inv base limit h) {d : Delivery Tagged} {e : Tagged}
    {r : RegisteredCallback κ} {argument : Argument}
    (hstage : h.stage = .converted d e r argument)
    (hcurrent : h.node.sys.service.sessionId = d.generation) :
    Inv base limit
      { h with
        stage := .calling d e r
        calls := h.calls ++ [⟨h.node.sys.service.sessionId, d, r, argument⟩] } := by
  have hgenuine := hinv.genuine
  rw [hstage] at hgenuine
  obtain ⟨he, harg, key, kind, htarget, hmem⟩ := hgenuine
  refine { hinv with
    alive := fun _ => hinv.alive (by rw [hstage]; simp)
    held := hinv.held.trans (by rw [hstage]; rfl)
    handled := hinv.handled.trans (by rw [hstage]; rfl)
    called := ?_
    genuine := ⟨he, key, kind, htarget, hmem⟩
    calls := fun call hc => ?_
    sessions := ⟨?_, fun call hc => ?_⟩
    label := fun d' hd' => hinv.label d' (by rw [hstage]; exact hd')
    settled := fun hend => absurd hend (by simp) }
  · rw [List.map_append, hinv.called, hstage]
    simp [DispatchStage.inCall]
  · rcases List.mem_append.mp hc with hc | hc
    · exact hinv.calls call hc
    · rw [List.mem_singleton.mp hc]
      exact ⟨hcurrent.symm, e, key, kind, he, htarget, hmem, harg⟩
  · rw [List.map_append, List.pairwise_append]
    refine ⟨hinv.sessions.1, List.pairwise_singleton _ _, fun a ha b hb => ?_⟩
    obtain ⟨call, hc, rfl⟩ := List.mem_map.mp ha
    rw [List.mem_singleton.mp hb]
    exact hinv.sessions.2 call hc
  · rcases List.mem_append.mp hc with hc | hc
    · exact hinv.sessions.2 call hc
    · rw [List.mem_singleton.mp hc]

theorem Records.spec {t t' : Tally CallbackFailure FailureReport} {outcome : Outcome}
    (h : Records t outcome t') (hb : t.Balanced) :
    t'.Balanced ∧ t'.label = t.label ∧
      t'.recorded = t.recorded ++ (outcome.failure.map fun f => (f, t.label)).toList ∧
      ∀ l ∈ t'.lines, l ∈ t.lines ∨ ∀ report ∈ l.detail, l.log.Describes l.label report := by
  cases h with
  | silent hnone => exact ⟨hb, rfl, by simp [hnone], fun l hl => .inl hl⟩
  | plain now hout =>
    subst hout
    refine ⟨Tally.balanced_record hb _ now none, rfl, rfl, fun l hl => ?_⟩
    exact (Tally.mem_lines_apply hl).imp id fun hl report hr => absurd (hl.2.2.symm.trans hr)
      (by simp)
  | report f now report hf hreport =>
    refine ⟨Tally.balanced_record hb _ now _, rfl, by rw [hf]; rfl, fun l hl => ?_⟩
    refine (Tally.mem_lines_apply hl).imp id fun hl report' hr => ?_
    obtain ⟨hlog, hlabel, hdetail⟩ := hl
    obtain rfl := Option.some_inj.mp (hdetail.symm.trans hr)
    rw [hlog, hlabel]
    exact hreport

theorem Inv.settles (hinv : Inv base limit h) {d : Delivery Tagged} {outcome : Outcome}
    {failures : Tally CallbackFailure FailureReport} (hhand : h.stage.inHand = [d])
    (hcall : h.stage.inCall = if outcome.invoked then [d] else [])
    (hfailures : Records h.failures outcome failures) :
    Inv base limit (settle { h with failures } d outcome) := by
  obtain ⟨hbalanced, hlabel, hrecorded, hlines⟩ := hfailures.spec hinv.balanced
  have hstage : h.stage ≠ .ended ∧ h.stage.holding = [d] := by
    cases hs : h.stage with
    | done d' | waiting | ended => simp [hs, DispatchStage.inHand, DispatchStage.holding] at hhand
    | _ => rw [hs] at hhand; exact ⟨by simp, hhand⟩
  obtain ⟨hgeneration, hold⟩ := hinv.label d (by rw [hhand]; exact List.mem_singleton_self d)
  refine { hinv with
    alive := fun _ => hinv.alive hstage.1
    held := hinv.held.trans (by rw [hstage.2]; rfl)
    handled := ?_
    called := ?_
    genuine := trivial
    balanced := hbalanced
    label := fun d' hd' => absurd hd' (by simp [settle, DispatchStage.inHand])
    generation := fun g hg => hlabel.trans (hinv.generation g hg)
    recorded := ?_
    described := fun l hl report hr => ?_
    settled := fun hend => absurd hend (by simp [settle]) }
  · refine (hinv.handled.trans (by rw [hhand])).trans ?_
    simp [settle, DispatchStage.inHand]
  · refine (hinv.called.trans (by rw [hcall])).trans ?_
    cases hi : outcome.invoked <;> simp [settle, DispatchStage.inCall, hi]
  · refine hrecorded.trans ?_
    rw [hinv.recorded, hold]
    cases hf : outcome.failure <;> simp [settle, hf]
  · rcases hlines l hl with hl | hl
    · exact hinv.described l hl report hr
    · exact hl report hr

theorem Inv.drops (hinv : Inv base limit h) {d : Delivery Tagged} {node : Node}
    (hstage : h.stage = .done d)
    (hheld : ∀ d', h.node.traffic.held = [d'] → node.traffic.held = [] ∧
      h.node.Apart { node with traffic.held := h.node.traffic.held } ∧ node.sys = h.node.sys)
    (hkeep : Node.Inv base limit node) : Inv base limit { h with node, stage := .waiting } := by
  have hone : h.node.traffic.held = [Node.strip d] := by
    rw [hinv.held, hstage]
    rfl
  obtain ⟨hempty, hapart, hsys⟩ := hheld _ hone
  have hobserved : node.observed = h.node.observed := hapart.observed
  have hreceived : node.traffic.received = h.node.traffic.received := hapart.received
  refine { hinv with
    node := hkeep
    alive := fun _ => hapart.alive.trans (hinv.alive (by rw [hstage]; simp))
    held := hempty
    received := ?_
    handled := ?_
    called := hinv.called.trans (by rw [hstage]; rfl)
    genuine := trivial
    registry := fun k r hr => (hinv.registry k r hr).imp id fun hk => by rwa [Subscribed, hsys]
    sessions := ⟨hinv.sessions.1, fun call hc => ?_⟩
    label := fun d' hd' => absurd hd' (by simp [DispatchStage.inHand, DispatchStage.holding])
    settled := fun hend => absurd hend (by simp) }
  · show node.traffic.received = node.observed.map _
    rw [hreceived, hobserved]
    exact hinv.received
  · show node.observed.map _ = _
    rw [hobserved, hinv.handled, hstage]
    rfl
  · rw [hsys]
    exact hinv.sessions.2 call hc

theorem Inv.ends (hinv : Inv base limit h) {node : Node} (hstage : h.stage = .waiting)
    (hheld : node.traffic.held = h.node.traffic.held)
    (hreceived : node.traffic.received = h.node.traffic.received)
    (hobserved : node.observed = h.node.observed) (hkeep : Node.Inv base limit node)
    (hobserves : h.node.Observes node) (hsys : node.sys = h.node.sys) :
    Inv base limit
      { h with node, failures := h.failures.drop CallbackFailure.order, stage := .ended } := by
  refine { hinv with
    node := hkeep
    alive := fun hne => absurd rfl hne
    held := hheld.trans (hinv.held.trans (by rw [hstage]; rfl))
    received := ?_
    handled := ?_
    called := hinv.called.trans (by rw [hstage]; rfl)
    genuine := trivial
    registry := fun k r hr => (hinv.registry k r hr).imp id fun hk => by rwa [Subscribed, hsys]
    sessions := ⟨hinv.sessions.1, fun call hc => (hinv.sessions.2 call hc).trans hobserves.1⟩
    balanced := Tally.balanced_drop hinv.balanced
    label := fun d' hd' => absurd hd' (by simp [DispatchStage.inHand, DispatchStage.holding])
    generation := fun g hg => ?_
    recorded := (Tally.drop_recorded hinv.balanced).trans hinv.recorded
    described := fun l hl report hr => ?_
    settled := fun _ f label => ?_ }
  · show node.traffic.received = node.observed.map _
    rw [hreceived, hobserved]
    exact hinv.received
  · show node.observed.map _ = _
    rw [hobserved, hinv.handled, hstage]
    rfl
  · rw [Tally.drop_label]
    exact hinv.generation g hg
  · rcases Tally.mem_lines_foldl .drop CallbackFailure.order hl with hl | hnone
    · exact hinv.described l hl report hr
    · exact absurd (hnone.symm.trans hr) (by simp)
  · exact Tally.drop_waiting hinv.balanced CallbackFailure.mem_order f label

theorem Does.inv {h' : Host κ} (hdoes : Does base h h') (hinv : Inv base limit h) :
    Inv base limit h' := by
  cases hdoes with
  | elsewhere node hnode hkeys =>
    exact hinv.elsewhere hnode fun k r hr => ⟨hr, hkeys k⟩
  | registers node hnode hkeys key callback hkey =>
    exact (hinv.elsewhere hnode fun k r hr => ⟨hr, hkeys k⟩).register key callback hkey
  | removes node hnode registry hsub => exact hinv.elsewhere hnode hsub
  | allocates => exact { hinv with }
  | receives d e node hstage hevent hnode hkeep failures hfailures =>
    exact hinv.receives hstage hevent hnode (hkeep limit hinv.node) hfailures
  | advances stage hstage => exact hinv.advances hstage
  | calls d e r argument hstage hcurrent => exact hinv.callsOne hstage hcurrent
  | settles d outcome failures hhand hcall hfailures => exact hinv.settles hhand hcall hfailures
  | drops d node hstage hheld hkeep => exact hinv.drops hstage hheld (hkeep limit hinv.node)
  | ends node hstage hheld hreceived hobserved hkeep hobserves hsys =>
    exact hinv.ends hstage hheld hreceived hobserved (hkeep limit hinv.node) hobserves hsys

theorem step_inv (i : Interpreter κ) (p : Platform) (capacity : ℕ) (h : Host κ) (a : Action κ)
    (hinv : Inv base limit h) : Inv base limit (step i p base capacity h a) :=
  (step_does i p capacity hinv a).inv hinv

theorem init_inv {c : Channel Tagged} (hopen : Channel.open' limit = .ok c)
    (sessionId requestSequence nextId : ℕ) :
    Inv base limit (init c sessionId requestSequence nextId : Host κ) where
  node := Node.init_inv hopen sessionId requestSequence
  alive _ := by
    rw [Channel.open'] at hopen
    split at hopen
    · rw [← Except.ok.inj hopen]
      rfl
    · exact absurd hopen (by simp)
  held := rfl
  received := rfl
  handled := rfl
  called := rfl
  genuine := trivial
  registry _ _ hr := absurd hr (by simp [init])
  calls _ hc := absurd hc (by simp [init])
  sessions := ⟨List.Pairwise.nil, fun _ hc => absurd hc (by simp [init])⟩
  balanced := Tally.balanced_new _
  label _ hd := absurd hd (by simp [init, DispatchStage.inHand, DispatchStage.holding])
  generation _ hg := absurd hg (by simp [init])
  recorded := rfl
  described _ hl := absurd hl (by simp [init, Tally.new])
  settled hend := absurd hend (by simp [init])

theorem run_inv (i : Interpreter κ) (p : Platform) (capacity : ℕ) {c : Channel Tagged}
    (hopen : Channel.open' limit = .ok c) (sessionId requestSequence nextId : ℕ)
    (as : List (Action κ)) :
    Inv base limit
      (Runs.run (step i p base capacity) (init c sessionId requestSequence nextId) as) :=
  Runs.run_invariant (step_inv i p capacity) as (init_inv hopen sessionId requestSequence nextId)

end Host

end Unitree
