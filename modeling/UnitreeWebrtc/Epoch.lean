/-
Session epochs, from the wire to the consumer.

Peers come one after the other, and each one's handlers, command worker and
media tracks keep the generation that was current when it was created.  What
they produce goes through queues of other threads: the ingress queue, the
router, the LiDAR workers, the callback channel.  A reset can come between any
two of these steps.  The generation is the one thing that travels along, and
the system below has every place where it is captured, copied or compared.

An event carries, for the sake of the statement only, the source it came from;
nothing in the system looks at it (`Tagged`).

The session id of the service and the current generation of the callback
channel are one atomic (`Node.events`).  The transport has a copy of its own,
which follows with a delay: what the service announces is taken over by a
separate step.

* `Node.step_inv`, `Node.run_inv` — everything under way has the generation of
  its source;
* `Node.epoch_isolation` — what the consumer observes.
-/
import UnitreeWebrtc.Calls
import UnitreeWebrtc.Dispatch

namespace Unitree

/-! ### Only the router hands on -/

namespace Service

theorem dropGuard_silent (s : Service) (key : String) (token : ℕ) :
    Silent s (s.dropGuard key token) := by
  rw [dropGuard]
  split
  · exact .refl s
  · split
    · exact ⟨rfl, rfl, rfl, rfl⟩
    · exact .refl s

theorem publishWithExpectation_silent (env : Env) (s : Service) (topic : String)
    (data : Option Value) (msgType : String) (expectation : ResponseExpectation) :
    Silent s (s.publishWithExpectation env topic data msgType expectation).2 := by
  have hregister : Silent s (s.register (outgoingKey msgType topic data) expectation) :=
    ⟨rfl, rfl, rfl, rfl⟩
  have hsend := (sendMessageLocked_still env
    (s.register (outgoingKey msgType topic data) expectation) topic data msgType).silent
  rcases s.publishWithExpectation_cases env topic data msgType expectation with
    ⟨e, h⟩ | ⟨-, -, ⟨-, h⟩ | ⟨e, -, h⟩⟩
  · rw [h]
    exact .refl s
  · rw [h]
    exact hsend.after hregister
  · rw [h]
    exact (dropGuard_silent _ _ _).after (hsend.after hregister)

theorem publishRequestNew_silent (p : Platform) (fits : ℚ → Bool) (env : Env) (s : Service)
    (topic : String) (options : Value) (timeout : Option Seconds) :
    Silent s (s.publishRequestNew p fits env topic options timeout).2 := by
  have hid : Silent s (s.wireId options).2 := by
    rw [wireId]
    split
    · exact .refl s
    · exact ⟨rfl, rfl, rfl, rfl⟩
  rw [publishRequestNew]
  split
  · exact .refl s
  · dsimp only
    split
    · exact hid
    · exact (publishWithExpectation_silent env _ topic _ _ _).after hid

theorem heartbeatTick_silent (env : Env) (s : Service) (epoch : ℕ) :
    Silent s (s.heartbeatTick env epoch) := by
  rw [heartbeatTick]
  split
  · exact .refl s
  split
  · exact ⟨failAllPending_outputs _ _, rfl, rfl, rfl⟩
  split
  · exact (sendMessageLocked_still env s _ _ _).silent
  · exact .refl s

end Service

namespace Sys

theorem started_outputs (y : Sys) (r : PortResult (String × ℕ) × Service) :
    (y.started r).service = r.2 := by
  rcases r with ⟨_ | ⟨key, token⟩, s⟩ <;> rfl

end Sys

/-! ### The system -/

/-- Where a message or event came from: a peer, by its number, or a message that
the engine was given while it had this generation. -/
inductive Source where
  | peer (i : ℕ)
  | engine (generation : ℕ)
deriving DecidableEq

structure Tagged where
  source : Source
  event : CallbackEvent

/-- The budget does not see the source. -/
def taggedSize (base : ℕ) (e : Tagged) : EventClass × ℕ := eventSize base e.event

/-- An event the consumer was given, with the session id at the dequeue check. -/
structure Observation where
  session : ℕ
  delivery : Delivery Tagged

structure Node where
  sys : Sys
  traffic : Traffic Tagged
  /-- The `ingress_generation` of the engine. -/
  ingressGeneration : ℕ
  /-- Generations the service has set and the engine has yet to store. -/
  announced : List ℕ
  /-- The generation each peer captured. -/
  peers : List ℕ
  /-- Messages past the checks of their handler and not yet in the queue. -/
  inFlight : List (Source × IngressMessage)
  ingress : List (Source × IngressMessage)
  /-- The retained `transport_error`. -/
  fault : Option (Source × IngressMessage)
  /-- The queue of the LiDAR workers, the jobs they took, and those they decode. -/
  jobs : List (Source × LidarDecodeRequest)
  taken : List (Source × LidarDecodeRequest)
  decoding : List (Source × LidarDecodeRequest)
  observed : List Observation

namespace Node

inductive Action where
  /-- `prepare_offer` creates a peer and captures the generation. -/
  | createPeer
  /-- A handler of this peer finds its generation current. -/
  | onMessage (peer : ℕ) (payload : DcMessage)
  /-- A handler goes on to enqueue its message. -/
  | enqueue (i : ℕ)
  /-- The command worker of this peer fails: `record_transport_fault`. -/
  | commandFault (peer : ℕ)
  /-- `route_text_message` and `route_binary_message`. -/
  | routeMessage (payload : DcMessage)
  | setIngressGeneration
  | prepareIngress
  /-- The router takes the retained fault, or the next message. -/
  | takeFault (env : Env)
  | route (env : Env)
  /-- Any other step of the service. -/
  | call (a : Unitree.Action)
  | workerRecv
  | workerCheck (i : ℕ)
  /-- A worker is done decoding. -/
  | workerSend (i : ℕ) (env : Env) (points : PortResult (Buffer (List UInt32)))
  /-- A media track of this peer. -/
  | media (peer : ℕ) (event : CallbackEvent)
  | receive (blocked keep : Bool)
  | takeEvent (i : ℕ)
  | dropHeld (i : ℕ)
  | dropReceiver

/-- The traffic of the callback channel, whose generation is the session id. -/
def events (n : Node) : Traffic Tagged :=
  { n.traffic with channel := { n.traffic.channel with current := n.sys.service.sessionId } }

/-- A step of the callback channel.  It does not underflow (`Traffic.step_inv`). -/
def trafficStep (base : ℕ) (n : Node) (a : Traffic.Action Tagged) : Node :=
  { n with traffic := (n.events.step (taggedSize base) a).getD n.events }

/-- The generations announced between two states of the service. -/
def announcements (s s' : Service) : List ℕ :=
  (s'.effects.drop s.effects.length).filterMap fun
    | .setIngressGeneration generation => some generation
    | _ => none

def adopt (n : Node) (sys : Sys) : Node :=
  { n with sys, announced := n.announced ++ announcements n.sys.service sys.service }

/-- What the router handed on while it processed a message of this source. -/
def handOn (base : ℕ) (source : Source) (n : Node) : Effect → Node
  | .event generation event => n.trafficStep base (.trySend generation { source, event })
  | .submit request => { n with jobs := n.jobs ++ [(source, request)] }
  | _ => n

/-- `request_tx.try_send` on the bounded queue of four. -/
def lidarQueue (n : Node) : PortResult Unit :=
  if n.jobs.length < 4 then .ok () else .error "LiDAR worker queue full"

/-- `process_ingress`, with what it hands on. -/
def process (p : Platform) (base : ℕ) (env : Env) (n : Node) (m : Source × IngressMessage) : Node :=
  let sys := n.sys.step p (.processIngress { env with lidarQueue := n.lidarQueue } m.2)
  (sys.service.outputs.drop n.sys.service.outputs.length).foldl (handOn base m.1) (n.adopt sys)

/-- `incoming_tx.try_send`. -/
def push (capacity : ℕ) (n : Node) (m : Source × IngressMessage) : Node :=
  if n.ingress.length < capacity then { n with ingress := n.ingress ++ [m] } else n

/-- `message_size_allowed`; a handler makes no faults. -/
def messageSizeAllowed : DcMessage → Bool
  | .text text => (asBytes text).length ≤ maxTextBytes
  | .binary bytes => bytes.length ≤ maxBinaryBytes
  | .transportFault _ => false

def isFault : DcMessage → Bool
  | .transportFault _ => true
  | _ => false

/-- The event of a decoded scan. -/
def lidarEvent (env : Env) (request : LidarDecodeRequest) (points : Buffer (List UInt32)) :
    CallbackEvent :=
  .lidarCallback { data := request.topic, capacity := request.topic.utf8ByteSize }
    { value := request.payload, footprint := env.footprint request.payload } points

def isProcessIngress : Unitree.Action → Bool
  | .processIngress _ _ => true
  | _ => false

def step (p : Platform) (base capacity : ℕ) (n : Node) : Action → Node
  | .createPeer => { n with peers := n.peers ++ [n.ingressGeneration] }
  | .onMessage peer payload =>
    match n.peers[peer]? with
    | none => n
    | some generation =>
      if generation = n.ingressGeneration ∧ messageSizeAllowed payload then
        { n with inFlight := n.inFlight ++ [(.peer peer, { generation, payload })] }
      else n
  | .enqueue i =>
    match n.inFlight[i]? with
    | none => n
    | some m => push capacity { n with inFlight := n.inFlight.eraseIdx i } m
  | .commandFault peer =>
    match n.peers[peer]? with
    | none => n
    | some generation =>
      if generation = n.ingressGeneration then
        let m : Source × IngressMessage :=
          (.peer peer, { generation, payload := .transportFault "DataChannel send failed" })
        push capacity { n with fault := some m } m
      else n
  | .routeMessage payload =>
    if isFault payload then n
    else push capacity n (.engine n.ingressGeneration, ⟨n.ingressGeneration, payload⟩)
  | .setIngressGeneration =>
    match n.announced with
    | [] => n
    | generation :: rest =>
      { n with ingressGeneration := generation, announced := rest, fault := none }
  | .prepareIngress => n.adopt { n.sys with service := n.sys.service.prepareIngress }
  | .takeFault env =>
    match n.fault with
    | none => n
    | some m => process p base env { n with fault := none } m
  | .route env =>
    match n.ingress with
    | [] => n
    | m :: rest => process p base env { n with ingress := rest } m
  | .call a => if isProcessIngress a then n else n.adopt (n.sys.step p a)
  | .workerRecv =>
    match n.jobs with
    | [] => n
    | job :: rest => { n with jobs := rest, taken := n.taken ++ [job] }
  | .workerCheck i =>
    match n.taken[i]? with
    | none => n
    | some job =>
      if n.sys.service.sessionId = job.2.generation then
        { n with taken := n.taken.eraseIdx i, decoding := n.decoding ++ [job] }
      else { n with taken := n.taken.eraseIdx i }
  | .workerSend i env points =>
    match n.decoding[i]? with
    | none => n
    | some job =>
      let n := { n with decoding := n.decoding.eraseIdx i }
      match points with
      | .error _ => n
      | .ok points =>
        n.trafficStep base (.trySend job.2.generation ⟨job.1, lidarEvent env job.2 points⟩)
  | .media peer event =>
    match n.peers[peer]? with
    | none => n
    | some generation => n.trafficStep base (.trySend generation ⟨.peer peer, event⟩)
  | .receive blocked keep =>
    match Traffic.serve blocked n.events.channel with
    | some (_, _, .ok delivery) =>
      if n.traffic.channel.receiverAlive then
        { n.trafficStep base (.receive blocked keep) with
          observed := n.observed ++ [{ session := n.sys.service.sessionId, delivery }] }
      else n
    | _ => n.trafficStep base (.receive blocked keep)
  | .takeEvent i => n.trafficStep base (.takeEvent i)
  | .dropHeld i => n.trafficStep base (.dropHeld i)
  | .dropReceiver => n.trafficStep base .dropReceiver

/-- A new session owner: the service and an open channel, and no peer yet. -/
def init (channel : Channel Tagged) (sessionId requestSequence : ℕ) : Node :=
  { sys := Sys.init sessionId requestSequence
    traffic := { channel, held := [], accepted := [], dequeued := [] }
    ingressGeneration := 0
    announced := [sessionId]
    peers := [], inFlight := [], ingress := [], fault := none, jobs := [], taken := []
    decoding := [], observed := [] }

/-! ### The invariant -/

/-- The generation of a source: what the peer captured when it was created. -/
def born (n : Node) : Source → Option ℕ
  | .peer i => n.peers[i]?
  | .engine generation => some generation

/-- A message under way. -/
def Carries (n : Node) (m : Source × IngressMessage) : Prop :=
  m ∈ n.inFlight ∨ m ∈ n.ingress ∨ n.fault = some m

/-- A LiDAR job under way. -/
def Works (n : Node) (job : Source × LidarDecodeRequest) : Prop :=
  job ∈ n.jobs ∨ job ∈ n.taken ∨ job ∈ n.decoding

/-- Everything under way has the generation of its source, and so has what the
consumer observed, which was the session at that time. -/
structure Inv (base limit : ℕ) (n : Node) : Prop where
  traffic : Traffic.Inv (taggedSize base) limit n.traffic
  messages : ∀ m, n.Carries m → n.born m.1 = some m.2.generation
  jobs : ∀ job, n.Works job → n.born job.1 = some job.2.generation
  accepted : ∀ d ∈ n.traffic.accepted, ∃ e, d.event = some e ∧ n.born e.source = some d.generation
  observed : ∀ o ∈ n.observed, ∃ e, o.delivery.event = some e ∧
    o.delivery.generation = o.session ∧ n.born e.source = some o.session

variable {p : Platform} {base limit capacity : ℕ} {n n' : Node}

theorem Carries.sub {m : Source × IngressMessage} (h : n'.Carries m)
    (hflight : n'.inFlight ⊆ n.inFlight) (hingress : n'.ingress ⊆ n.ingress)
    (hfault : n'.fault = none ∨ n'.fault = n.fault) : n.Carries m := by
  rcases h with hm | hm | hm
  · exact Or.inl (hflight hm)
  · exact Or.inr (Or.inl (hingress hm))
  · rcases hfault with hnone | hkept
    · exact absurd (hnone.symm.trans hm) (by simp)
    · exact Or.inr (Or.inr (hkept.symm.trans hm))

theorem Carries.sent {m x : Source × IngressMessage}
    (h : Carries { n with inFlight := n.inFlight ++ [x] } m) : n.Carries m ∨ m = x := by
  rcases h with hm | hm
  · rcases List.mem_append.mp hm with hm | hm
    · exact Or.inl (Or.inl hm)
    · exact Or.inr (List.mem_singleton.mp hm)
  · exact Or.inl (Or.inr hm)

theorem Carries.queued {m x : Source × IngressMessage}
    (h : Carries { n with ingress := n.ingress ++ [x] } m) : n.Carries m ∨ m = x := by
  rcases h with hm | hm | hm
  · exact Or.inl (Or.inl hm)
  · rcases List.mem_append.mp hm with hm | hm
    · exact Or.inl (Or.inr (Or.inl hm))
    · exact Or.inr (List.mem_singleton.mp hm)
  · exact Or.inl (Or.inr (Or.inr hm))

theorem Carries.faulted {m x : Source × IngressMessage}
    (h : Carries { n with fault := some x } m) : n.Carries m ∨ m = x := by
  rcases h with hm | hm | hm
  · exact Or.inl (Or.inl hm)
  · exact Or.inl (Or.inr (Or.inl hm))
  · exact Or.inr (Option.some_inj.mp hm).symm

theorem Works.sub {job : Source × LidarDecodeRequest} (h : n'.Works job)
    (hjobs : n'.jobs ⊆ n.jobs) (htaken : n'.taken ⊆ n.taken)
    (hdecoding : n'.decoding ⊆ n.decoding) : n.Works job :=
  h.imp (fun hj => hjobs hj) (Or.imp (fun hj => htaken hj) fun hj => hdecoding hj)

/-- A step that leaves the channel alone: peers are only added, and what is new
under way has the generation of its source. -/
theorem Inv.carry (h : Inv base limit n) (hpeers : n.peers <+: n'.peers)
    (htraffic : n'.traffic = n.traffic) (hobserved : n'.observed = n.observed)
    (hmessages : ∀ m, n'.Carries m → n.Carries m ∨ n'.born m.1 = some m.2.generation)
    (hjobs : ∀ job, n'.Works job → n.Works job ∨ n'.born job.1 = some job.2.generation) :
    Inv base limit n' := by
  have hborn : ∀ {source g}, n.born source = some g → n'.born source = some g := by
    intro source g hg
    cases source with
    | peer i =>
      obtain ⟨added, hadded⟩ := hpeers
      obtain ⟨hi, -⟩ := List.getElem?_eq_some_iff.mp hg
      rw [born, ← hadded, List.getElem?_append_left hi]
      exact hg
    | engine generation => exact hg
  refine ⟨htraffic ▸ h.traffic, fun m hm => ?_, fun job hjob => ?_, fun d hd => ?_, fun o ho => ?_⟩
  · rcases hmessages m hm with hm | hm
    · exact hborn (h.messages m hm)
    · exact hm
  · rcases hjobs job hjob with hjob | hjob
    · exact hborn (h.jobs job hjob)
    · exact hjob
  · rw [htraffic] at hd
    obtain ⟨e, he, hg⟩ := h.accepted d hd
    exact ⟨e, he, hborn hg⟩
  · rw [hobserved] at ho
    obtain ⟨e, he, hses, hg⟩ := h.observed o ho
    exact ⟨e, he, hses, hborn hg⟩

/-- The channel with the session id in it. -/
theorem Inv.events (h : Inv base limit n) :
    Traffic.Inv (taggedSize base) limit n.events := by
  obtain ⟨t, ht, hinv⟩ := Traffic.step_inv h.traffic (.setGeneration n.sys.service.sessionId)
  obtain rfl := Option.some_inj.mp ht
  exact hinv

/-- A step of the channel: a send is of its source's generation. -/
theorem Inv.trafficStep (h : Inv base limit n) (a : Traffic.Action Tagged)
    (hsend : ∀ generation e, a = .trySend generation e → n.born e.source = some generation) :
    Inv base limit (n.trafficStep base a) := by
  obtain ⟨t, ht, hinv⟩ := Traffic.step_inv h.events a
  have heq : n.trafficStep base a = { n with traffic := t } := by
    rw [Node.trafficStep, ht]
    rfl
  rw [heq]
  refine ⟨hinv, h.messages, h.jobs, fun d hd => ?_, h.observed⟩
  rcases Traffic.step_accepted ht with hacc | ⟨generation, e, rfl, hacc⟩
  · exact h.accepted d (hacc ▸ hd)
  · have hd' : d ∈ n.traffic.accepted ++ [Channel.envelope (taggedSize base) generation e] :=
      hacc ▸ hd
    rcases List.mem_append.mp hd' with hd' | hd'
    · exact h.accepted d hd'
    · rw [List.mem_singleton.mp hd']
      exact ⟨e, rfl, hsend generation e rfl⟩

theorem Inv.adopt (h : Inv base limit n) (sys : Sys) : Inv base limit (n.adopt sys) :=
  h.carry List.prefix_rfl rfl rfl (fun _ hm => Or.inl hm) (fun _ hjob => Or.inl hjob)

theorem Inv.push (h : Inv base limit n) {m : Source × IngressMessage}
    (hm : n.born m.1 = some m.2.generation) : Inv base limit (n.push capacity m) := by
  rw [Node.push]
  split
  · refine h.carry List.prefix_rfl rfl rfl (fun m' hm' => ?_) (fun _ hjob => Or.inl hjob)
    rcases hm'.queued with hm' | rfl
    · exact Or.inl hm'
    · exact Or.inr hm
  · exact h

theorem Inv.handOn (h : Inv base limit n) {source : Source} {generation : ℕ} {e : Effect}
    (hborn : n.born source = some generation) (hbound : e.BoundTo generation) :
    Inv base limit (n.handOn base source e) := by
  cases e with
  | event g event =>
    refine h.trafficStep _ fun g' e' ha => ?_
    simp only [Traffic.Action.trySend.injEq] at ha
    obtain ⟨rfl, rfl⟩ := ha
    obtain rfl : g = generation := hbound
    exact hborn
  | submit request =>
    refine h.carry List.prefix_rfl rfl rfl (fun _ hm => Or.inl hm) (fun job hjob => ?_)
    rcases hjob with hjob | hjob
    · rcases List.mem_append.mp hjob with hjob | hjob
      · exact Or.inl (Or.inl hjob)
      · rw [List.mem_singleton.mp hjob]
        have hbound : request.generation = generation := hbound
        exact Or.inr (hbound.symm ▸ hborn)
    · exact Or.inl (Or.inr hjob)
  | _ => exact h

theorem handOn_born (source source' : Source) (e : Effect) :
    (n.handOn base source e).born source' = n.born source' := by
  cases e <;> rfl

/-- The router: what it hands on has the generation of the message. -/
theorem Inv.process (h : Inv base limit n) (env : Env) {m : Source × IngressMessage}
    (hm : n.born m.1 = some m.2.generation) : Inv base limit (n.process p base env m) := by
  have hfold : ∀ (es : List Effect) (n : Node), Inv base limit n →
      n.born m.1 = some m.2.generation → (∀ e ∈ es, e.BoundTo m.2.generation) →
      Inv base limit (es.foldl (Node.handOn base m.1) n) := by
    intro es
    induction es with
    | nil => intro n hn _ _; exact hn
    | cons e rest ih =>
      intro n hn hborn hbound
      refine ih _ (hn.handOn hborn (hbound e List.mem_cons_self)) ?_
        fun e' he' => hbound e' (List.mem_cons_of_mem _ he')
      rw [handOn_born]
      exact hborn
  obtain ⟨es, hout, hbound⟩ := Service.processIngress_outputs p
    { env with lidarQueue := n.lidarQueue } n.sys.service m.2
  refine hfold _ _ (h.adopt _) hm fun e he => (hbound e ?_).1
  have hnew : (n.sys.step p (.processIngress { env with lidarQueue := n.lidarQueue } m.2)
      ).service.outputs.drop n.sys.service.outputs.length = es := by
    show (n.sys.service.processIngress p _ m.2).outputs.drop _ = es
    rw [hout, List.drop_left]
  exact hnew ▸ he

theorem step_inv (p : Platform) (capacity : ℕ) (n : Node) (a : Action) (h : Inv base limit n) :
    Inv base limit (n.step p base capacity a) := by
  have hsame : ∀ job, n.Works job → n.Works job ∨ n.born job.1 = some job.2.generation :=
    fun _ hjob => Or.inl hjob
  cases a with
  | createPeer =>
    exact h.carry (List.prefix_append _ _) rfl rfl (fun _ hm => Or.inl hm) fun _ hj => Or.inl hj
  | onMessage peer payload =>
    rw [step]
    split
    · exact h
    next generation hpeer =>
      split
      · -- The callback stamps the message with the generation its peer was created in.
        refine h.carry List.prefix_rfl rfl rfl (fun m hm => ?_) hsame
        rcases hm.sent with hm | rfl
        · exact Or.inl hm
        · exact Or.inr hpeer
      · exact h
  | enqueue i =>
    rw [step]
    split
    · exact h
    next m hi =>
      have herase : Inv base limit { n with inFlight := n.inFlight.eraseIdx i } := by
        refine h.carry List.prefix_rfl rfl rfl (fun m' hm' => Or.inl ?_) hsame
        exact hm'.sub (List.eraseIdx_subset ..) (List.Subset.refl _) (Or.inr rfl)
      exact herase.push (h.messages m (Or.inl (List.mem_of_getElem? hi)))
  | commandFault peer =>
    rw [step]
    split
    · exact h
    next generation hpeer =>
      split
      · have hfault : Inv base limit { n with fault := some (.peer peer,
            { generation, payload := .transportFault "DataChannel send failed" }) } := by
          refine h.carry List.prefix_rfl rfl rfl (fun m hm => ?_) hsame
          rcases hm.faulted with hm | rfl
          · exact Or.inl hm
          · exact Or.inr hpeer
        exact hfault.push hpeer
      · exact h
  | routeMessage payload =>
    rw [step]
    split
    · exact h
    · exact h.push rfl
  | setIngressGeneration =>
    rw [step]
    split
    · exact h
    · refine h.carry List.prefix_rfl rfl rfl (fun m hm => Or.inl ?_) hsame
      exact hm.sub (List.Subset.refl _) (List.Subset.refl _) (Or.inl rfl)
  | prepareIngress => exact h.adopt _
  | takeFault env =>
    rw [step]
    split
    · exact h
    next m hm =>
      have hrest : Inv base limit { n with fault := none } := by
        refine h.carry List.prefix_rfl rfl rfl (fun m' hm' => Or.inl ?_) hsame
        exact hm'.sub (List.Subset.refl _) (List.Subset.refl _) (Or.inl rfl)
      exact hrest.process env (h.messages m (Or.inr (Or.inr hm)))
  | route env =>
    rw [step]
    split
    · exact h
    next m rest hm =>
      have hrest : Inv base limit { n with ingress := rest } := by
        refine h.carry List.prefix_rfl rfl rfl (fun m' hm' => Or.inl ?_) hsame
        exact hm'.sub (List.Subset.refl _) (hm ▸ List.subset_cons_self m rest) (Or.inr rfl)
      exact hrest.process env (h.messages m (Or.inr (Or.inl (by simp [hm]))))
  | call a =>
    rw [step]
    split
    · exact h
    · exact h.adopt _
  | workerRecv =>
    rw [step]
    split
    · exact h
    next job rest hjobs =>
      -- The job goes from the queue into the hands of the worker.
      refine h.carry List.prefix_rfl rfl rfl (fun _ hm => Or.inl hm) fun job' hjob' => Or.inl ?_
      rcases hjob' with hjob' | hjob' | hjob'
      · exact Or.inl (hjobs ▸ List.mem_cons_of_mem _ hjob')
      · rcases List.mem_append.mp hjob' with hjob' | hjob'
        · exact Or.inr (Or.inl hjob')
        · rw [List.mem_singleton.mp hjob']
          exact Or.inl (by simp [hjobs])
      · exact Or.inr (Or.inr hjob')
  | workerCheck i =>
    rw [step]
    split
    · exact h
    next job hi =>
      split
      · -- A job that passes the check moves on, one that fails it is forgotten.
        refine h.carry List.prefix_rfl rfl rfl (fun _ hm => Or.inl hm) fun job' hjob' => Or.inl ?_
        rcases hjob' with hjob' | hjob' | hjob'
        · exact Or.inl hjob'
        · exact Or.inr (Or.inl (List.mem_of_mem_eraseIdx hjob'))
        · rcases List.mem_append.mp hjob' with hjob' | hjob'
          · exact Or.inr (Or.inr hjob')
          · rw [List.mem_singleton.mp hjob']
            exact Or.inr (Or.inl (List.mem_of_getElem? hi))
      · refine h.carry List.prefix_rfl rfl rfl (fun _ hm => Or.inl hm) fun job' hjob' => Or.inl ?_
        exact hjob'.sub (List.Subset.refl _) (List.eraseIdx_subset ..) (List.Subset.refl _)
  | workerSend i env points =>
    rw [step]
    split
    · exact h
    next job hi =>
      have hrest : Inv base limit { n with decoding := n.decoding.eraseIdx i } := by
        refine h.carry List.prefix_rfl rfl rfl (fun _ hm => Or.inl hm) fun job' hjob' => Or.inl ?_
        exact hjob'.sub (List.Subset.refl _) (List.Subset.refl _) (List.eraseIdx_subset ..)
      dsimp only
      split
      · exact hrest
      · refine hrest.trafficStep _ fun g e ha => ?_
        simp only [Traffic.Action.trySend.injEq] at ha
        obtain ⟨rfl, rfl⟩ := ha
        exact h.jobs job (Or.inr (Or.inr (List.mem_of_getElem? hi)))
  | media peer event =>
    rw [step]
    split
    · exact h
    next generation hpeer =>
      refine h.trafficStep _ fun g e ha => ?_
      simp only [Traffic.Action.trySend.injEq] at ha
      obtain ⟨rfl, rfl⟩ := ha
      exact hpeer
  | receive blocked keep =>
    have hstep : Inv base limit (n.trafficStep base (.receive blocked keep)) :=
      h.trafficStep _ fun g e ha => absurd ha (by simp)
    rw [step]
    split
    next c stale d hserve =>
      split
      · refine ⟨hstep.traffic, hstep.messages, hstep.jobs, hstep.accepted, fun o ho => ?_⟩
        rcases List.mem_append.mp ho with ho | ho
        · exact h.observed o ho
        · -- the envelope was accepted, and passed the dequeue check
          obtain ⟨hacc, hcur⟩ := h.events.served hserve
          obtain ⟨e, he, hborn⟩ := h.accepted d hacc
          rw [List.mem_singleton.mp ho]
          refine ⟨e, he, hcur.symm, ?_⟩
          rw [show n.sys.service.sessionId = d.generation from hcur]
          exact hborn
      · exact h
    next => exact hstep
  | takeEvent i => exact h.trafficStep _ fun g e ha => absurd ha (by simp)
  | dropHeld i => exact h.trafficStep _ fun g e ha => absurd ha (by simp)
  | dropReceiver => exact h.trafficStep _ fun g e ha => absurd ha (by simp)

/-! ### Runs -/

theorem init_inv {c : Channel Tagged} (hopen : Channel.open' limit = .ok c)
    (sessionId requestSequence : ℕ) : Inv base limit (init c sessionId requestSequence) := by
  refine ⟨Traffic.start_inv hopen, fun m hm => ?_, fun job hjob => ?_, fun d hd => ?_,
    fun o ho => ?_⟩
  · rcases hm with hm | hm | hm <;> exact absurd hm (by simp [init])
  · rcases hjob with hjob | hjob | hjob <;> exact absurd hjob (by simp [init])
  · exact absurd hd (by simp [init])
  · exact absurd ho (by simp [init])

theorem run_inv (p : Platform) (capacity : ℕ) {c : Channel Tagged}
    (hopen : Channel.open' limit = .ok c) (sessionId requestSequence : ℕ) (as : List Action) :
    Inv base limit (Runs.run (step p base capacity) (init c sessionId requestSequence) as) :=
  Runs.run_invariant (step_inv p capacity) as (init_inv hopen sessionId requestSequence)

/-- The session only grows, and what is observed is observed in it. -/
def Observes (n n' : Node) : Prop :=
  n.sys.service.sessionId ≤ n'.sys.service.sessionId ∧
    ∃ new, n'.observed = n.observed ++ new ∧ ∀ o ∈ new, n.sys.service.sessionId ≤ o.session

theorem Observes.same (hsys : n'.sys = n.sys) (hobserved : n'.observed = n.observed) :
    Observes n n' :=
  ⟨by rw [hsys], [], by simp [hobserved], fun o ho => absurd ho (by simp)⟩

theorem Observes.trans {n₁ n₂ n₃ : Node} (h : Observes n₁ n₂) (h' : Observes n₂ n₃) :
    Observes n₁ n₃ := by
  obtain ⟨hle, new, hnew, hses⟩ := h
  obtain ⟨hle', new', hnew', hses'⟩ := h'
  refine ⟨hle.trans hle', new ++ new', by rw [hnew', hnew, List.append_assoc], fun o ho => ?_⟩
  rcases List.mem_append.mp ho with ho | ho
  · exact hses o ho
  · exact hle.trans (hses' o ho)

/-- The same, from the last step back. -/
theorem Observes.after {n₁ n₂ n₃ : Node} (h' : Observes n₂ n₃) (h : Observes n₁ n₂) :
    Observes n₁ n₃ := h.trans h'

theorem push_observes (capacity : ℕ) (n : Node) (m : Source × IngressMessage) :
    Observes n (n.push capacity m) := by
  rw [push]
  split
  · exact .same rfl rfl
  · exact .same rfl rfl

theorem adopt_observes (p : Platform) (n : Node) (a : Unitree.Action) :
    Observes n (n.adopt (n.sys.step p a)) :=
  ⟨(Sys.step_stepped p n.sys a).evolves.mono, [], by simp [adopt], fun o ho => absurd ho (by simp)⟩

theorem process_observes (p : Platform) (base : ℕ) (env : Env) (n : Node)
    (m : Source × IngressMessage) : Observes n (n.process p base env m) := by
  have hfold : ∀ (es : List Effect) (n : Node), Observes n (es.foldl (handOn base m.1) n) := by
    intro es
    induction es with
    | nil => intro n; exact .same rfl rfl
    | cons e rest ih =>
      intro n
      have hone : Observes n (n.handOn base m.1 e) := by
        cases e <;> exact .same rfl rfl
      exact hone.trans (ih _)
  exact (adopt_observes p n _).trans (hfold _ _)

theorem step_observes (p : Platform) (base capacity : ℕ) (n : Node) (a : Action) :
    Observes n (n.step p base capacity a) := by
  cases a with
  | enqueue i =>
    rw [step]
    split
    · exact .same rfl rfl
    · exact (push_observes _ _ _).after (.same rfl rfl)
  | commandFault peer =>
    rw [step]
    split
    · exact .same rfl rfl
    split
    · exact (push_observes _ _ _).after (.same rfl rfl)
    · exact .same rfl rfl
  | routeMessage payload =>
    rw [step]
    split
    · exact .same rfl rfl
    · exact push_observes _ _ _
  | prepareIngress =>
    exact ⟨le_refl _, [], by simp [step, adopt], fun o ho => absurd ho (by simp)⟩
  | takeFault env =>
    rw [step]
    split
    · exact .same rfl rfl
    · exact (process_observes _ _ _ _ _).after (.same rfl rfl)
  | route env =>
    rw [step]
    split
    · exact .same rfl rfl
    · exact (process_observes _ _ _ _ _).after (.same rfl rfl)
  | call a =>
    rw [step]
    split
    · exact .same rfl rfl
    · exact adopt_observes p n a
  | receive blocked keep =>
    rw [step]
    split
    · split
      -- The one step that observes: it notes the session of that moment.
      · refine ⟨le_refl _, _, rfl, fun o ho => ?_⟩
        rw [List.mem_singleton.mp ho]
      · exact .same rfl rfl
    · exact .same rfl rfl
  | workerSend i env points =>
    rw [step]
    split
    · exact .same rfl rfl
    · dsimp only
      split <;> exact .same rfl rfl
  | onMessage peer payload =>
    rw [step]
    split
    · exact .same rfl rfl
    · split <;> exact .same rfl rfl
  | workerCheck i =>
    rw [step]
    split
    · exact .same rfl rfl
    · split <;> exact .same rfl rfl
  | setIngressGeneration =>
    rw [step]
    split <;> exact .same rfl rfl
  | workerRecv =>
    rw [step]
    split <;> exact .same rfl rfl
  | media peer event =>
    rw [step]
    split <;> exact .same rfl rfl
  | createPeer => exact .same rfl rfl
  | takeEvent i => exact .same rfl rfl
  | dropHeld i => exact .same rfl rfl
  | dropReceiver => exact .same rfl rfl

theorem run_observes (p : Platform) (base capacity : ℕ) (as : List Action) (n : Node) :
    Observes n (Runs.run (step p base capacity) n as) :=
  Runs.run_rel (R := Observes) (fun _ => .same rfl rfl) Observes.trans
    (step_observes p base capacity)
    as n

/-- A message of another generation leaves everything as it is. -/
theorem process_stale (p : Platform) (base : ℕ) (env : Env) (n : Node)
    {m : Source × IngressMessage} (h : m.2.generation ≠ n.sys.service.sessionId) :
    n.process p base env m = n := by
  have hsys : n.sys.step p (.processIngress { env with lidarQueue := n.lidarQueue } m.2)
      = n.sys := by
    rw [Sys.step, Service.processIngress, if_pos h]
  simp only [process, hsys, List.drop_length, List.foldl_nil, adopt, announcements,
    List.filterMap_nil, List.append_nil]

/-- **Epoch isolation**, after any run.  Every message and LiDAR job under way has
the generation its source captured.  Processing a message whose generation is
not the session id changes nothing anywhere.  Every event the consumer was given
had, at its dequeue check, the session id for its generation, and that is the
generation its source captured.  And once the session has left a generation `g`,
nothing from a source of `g` is observed any more. -/
theorem epoch_isolation (p : Platform) (base capacity limit : ℕ) (c : Channel Tagged)
    (hopen : Channel.open' limit = .ok c) (sessionId requestSequence : ℕ) (as : List Action) :
    let n := Runs.run (step p base capacity) (init c sessionId requestSequence) as
    (∀ m, n.Carries m → n.born m.1 = some m.2.generation) ∧
    (∀ job, n.Works job → n.born job.1 = some job.2.generation) ∧
    (∀ env m, m.2.generation ≠ n.sys.service.sessionId → n.process p base env m = n) ∧
    (∀ o ∈ n.observed, ∃ e, o.delivery.event = some e ∧ o.delivery.generation = o.session ∧
      n.born e.source = some o.session) ∧
    ∀ bs g, g < n.sys.service.sessionId →
      ∃ new, (Runs.run (step p base capacity) n bs).observed = n.observed ++ new ∧
        ∀ o ∈ new, ∃ e, o.delivery.event = some e ∧
          (Runs.run (step p base capacity) n bs).born e.source ≠ some g := by
  intro n
  have hinv : Inv base limit n := run_inv p capacity hopen sessionId requestSequence as
  refine ⟨hinv.messages, hinv.jobs, fun env m h => process_stale p base env n h, hinv.observed,
    fun bs g hg => ?_⟩
  obtain ⟨-, new, hnew, hses⟩ := run_observes p base capacity bs n
  refine ⟨new, hnew, fun o ho => ?_⟩
  have hinv' : Inv base limit (Runs.run (step p base capacity) n bs) :=
    Runs.run_invariant (step_inv p capacity) bs hinv
  obtain ⟨e, he, -, hborn⟩ := hinv'.observed o (hnew ▸ List.mem_append_right _ ho)
  refine ⟨e, he, fun hborn' => ?_⟩
  have hle := hses o ho
  rw [hborn, Option.some_inj] at hborn'
  omega

/-- A frame of the first peer, sent before a reset, is not what is observed
after it. -/
theorem epoch_isolation_reset :
    let n := Runs.run (step (.reading []) 72 8) (init (Channel.fresh 2) 3 0)
      [.setIngressGeneration, .createPeer, .media 0 (.videoFrame ⟨[7], 8⟩ 1 1),
        .call .startNewSession, .setIngressGeneration, .createPeer,
        .media 1 (.videoFrame ⟨[9], 8⟩ 1 1), .receive true false, .receive true false]
    n.observed.map (fun o => o.session) = [4] ∧
      ∀ o ∈ n.observed, ∃ e, o.delivery.event = some e ∧ n.born e.source = some o.session := by
  intro n
  obtain ⟨-, -, -, hobserved, -⟩ := epoch_isolation (.reading []) 72 8 2 _ rfl 3 0
    [.setIngressGeneration, .createPeer, .media 0 (.videoFrame ⟨[7], 8⟩ 1 1),
      .call .startNewSession, .setIngressGeneration, .createPeer,
      .media 1 (.videoFrame ⟨[9], 8⟩ 1 1), .receive true false, .receive true false]
  refine ⟨rfl, fun o ho => ?_⟩
  obtain ⟨e, he, -, hborn⟩ := hobserved o ho
  exact ⟨e, he, hborn⟩

end Node

end Unitree
