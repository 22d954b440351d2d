/-
Connecting, or not.

A connect goes through the signaling server and the transport, and then waits
for the validation of its peer.  It can fail, time out, be cancelled by a
disconnect or be dropped at each of its await points, and what it has set up by
then is taken down in three places: on the error path, when the attempt is
dropped, and when the connection in it is dropped.  The session gate is held
through all of it.

The gate holder below has a program counter that stops at every await point and
between any two stores, and the router, the peers, the calls and the LiDAR
workers go on in between (`Node`).

* `Attempt`, `Stage` — a job that holds the gate, and the points where it stops;
* `Session.advance`, `Session.poll` — how it goes on from there;
* `Session.step` — the steps of the gate holder, of its callers and of all others.
-/
import UnitreeWebrtc.Readiness

namespace Unitree

/-! ### Jobs and stages -/

inductive WebRTCConnectionMethod where
  | localAP
  | localSTA
  | remote
deriving DecidableEq

inductive SessionConnect where
  | connect
  | reconnect
  | retry
deriving DecidableEq

/-- What takes the session gate: `connect_validated_session`,
`disconnect_session`, and the audio operations. -/
inductive Job where
  | connect (mode : SessionConnect)
  | disconnect
  | audio
deriving DecidableEq

/-- What a connect reads of the session's options. -/
structure SessionOptions where
  connectionMethod : WebRTCConnectionMethod
  ip : Option String
  validationTimeout : Service.Seconds
  /-- The deadlines that are representable. -/
  fits : ℚ → Bool

/-- The address a connect asks for an answer. -/
def SessionOptions.targetIp (o : SessionOptions) : PortResult String :=
  match o.connectionMethod with
  | .localSTA =>
    match o.ip with
    | some ip => .ok ip
    | none => .error "LocalSTA connection requires ip"
  | .localAP => .ok "192.168.12.1"
  | .remote => .error "Remote connection is not implemented in phase 1"

/-- The offer as it goes to the signaling server. -/
def SessionOptions.offerPayload (o : SessionOptions) (sdp : String) : Value :=
  .object [
    ("id", .string (if o.connectionMethod = .localSTA then "STA_localNetwork" else "")),
    ("sdp", .string sdp),
    ("token", .string ""),
    ("type", .string "offer")]

/-- Calls of the ports, in the order they are made; `closed` is the completion of
a `close`. -/
inductive PortCall where
  | prepareOffer
  | exchangeSdp (ip : String) (offer : Value)
  | applyAnswer (answer : String)
  | close
  | closed

/-- Calls that leave something to close. -/
def PortCall.setsUp : PortCall → Bool
  | .prepareOffer | .applyAnswer _ => true
  | _ => false

/-- The stores of `stop_background_tasks` before `start_new_session`. -/
def stopStores : List UnlockedStore :=
  [.heartbeatRunning, .heartbeatStopTx, .networkProbeRunning, .dataChannelOpened]

/-- Where the holder of the gate stands. -/
inductive Stage where
  /-- The gate was just taken. -/
  | acquired
  /-- `ConnectionAttempt::run` starts. -/
  | run
  | stopAudio
  | stopTasks (rest : List UnlockedStore)
  | prepareIngress
  | connectInAttempt
  | rollback
  | closeFirst
  | connectInner
  /-- In `prepare_offer`, before or after it created its peer. -/
  | prepareOffer (created : Bool)
  | exchangeSdp
  | applyAnswer
  | waitDatachannelOpen
  | sleep
  /-- The operation returned `Ok`. -/
  | opened
  /-- The error path, and the whole of a disconnect. -/
  | failAudio
  | failStop (rest : List UnlockedStore)
  | failRollback
  | failClose
  | failDone
  /-- `SessionAttempt::drop` and the task it spawns. -/
  | dropStop (rest : List UnlockedStore)
  | dropAudio
  /-- `ConnectionAttempt::drop` and the task it spawns. -/
  | dropConnection
  | dropRollback
  | dropClose
  /-- An audio operation, or the cleanup it leaves when it is dropped. -/
  | audio
  | audioCleanup
deriving DecidableEq

namespace Stage

/-- Await points of the operation that `run` selects on. -/
def inRun : Stage → Bool
  | .stopAudio | .closeFirst | .prepareOffer _ | .exchangeSdp | .applyAnswer | .sleep => true
  | _ => false

/-- Await points under the timeout of fifteen seconds. -/
def timed : Stage → Bool
  | .prepareOffer _ | .exchangeSdp | .applyAnswer => true
  | _ => false

/-- All await points of an attempt that has the gate. -/
def awaits (stage : Stage) : Bool :=
  stage.inRun || match stage with
    | .failAudio | .failClose => true
    | _ => false

/-- Stages of spawned tasks, which borrow nothing from the session. -/
def spawned : Stage → Bool
  | .dropAudio | .dropConnection | .dropRollback | .dropClose | .audioCleanup => true
  | _ => false

end Stage

/-- A future that waits for the gate.  It has subscribed to the cancellation. -/
structure Ticket where
  id : ℕ
  job : Job
  seen : ℕ
deriving DecidableEq

/-- The holder of the gate. -/
structure Attempt extends Ticket where
  stage : Stage
  result : PortResult Unit
  /-- It is past the early exit of a retry. -/
  passed : Bool
  /-- The session that `start_new_session` started for the operation. -/
  started : Option ℕ
deriving DecidableEq

namespace Attempt

def take (t : Ticket) : Attempt :=
  { t with stage := .acquired, result := .ok (), passed := false, started := none }

def at' (x : Attempt) (stage : Stage) : Attempt := { x with stage }

/-- It will not return `Ok` from a connect. -/
def Failing (x : Attempt) : Prop := x.job = .disconnect ∨ ∃ e, x.result = .error e

/-- The operation ends in an error. -/
def fail (x : Attempt) (error : String) : Attempt :=
  { x with stage := .failAudio, result := .error error }

end Attempt

/-- How an attempt ended that had the gate. -/
inductive Ending where
  | returned (result : PortResult Unit)
  | dropped
deriving DecidableEq

/-- A thread that runs until it ends with `stop_background_tasks`: the owner of
the session, and the router. -/
inductive Owner where
  | running
  | stopping (rest : List UnlockedStore)
  | gone

def Owner.isRunning : Owner → Bool
  | .running => true
  | _ => false

theorem Owner.eq_running {o : Owner} (h : o.isRunning = true) : o = .running := by
  cases o with
  | running => rfl
  | stopping rest | gone => exact absurd h (by simp [isRunning])

/-- A `UnitreeSession` with everything that runs for it. -/
structure Session where
  node : Node
  isConnected : Bool
  /-- Who stored `true` there last. -/
  connectedBy : Option ℕ
  intentionalDisconnect : Bool
  /-- The generation of the cancellation watch. -/
  cancellation : ℕ
  queue : List Ticket
  holder : Option Attempt
  nextId : ℕ
  cleanupRuntime : Bool
  owner : Owner
  router : Owner
  /-- The calls of the ports, with the attempt that made them. -/
  calls : List (ℕ × PortCall)
  /-- The messages that were routed, with the session at that time. -/
  processed : List (ℕ × IngressMessage)
  ended : List (Attempt × Ending)

namespace Session

/-! ### Steps of the gate holder -/

def hold (s : Session) (x : Attempt) : Session := { s with holder := some x }

/-- The gate is released. -/
def finish (s : Session) (x : Attempt) (ending : Ending) : Session :=
  { s with holder := none, ended := s.ended ++ [(x, ending)] }

def call (s : Session) (x : Attempt) (c : PortCall) : Session :=
  { s with calls := s.calls ++ [(x.id, c)] }

def requestDisconnect (s : Session) : Session :=
  { s with intentionalDisconnect := true, cancellation := s.cancellation + 1 }

section

variable (p : Platform) (base capacity : ℕ) (o : SessionOptions)

/-- A step that the lifecycle makes on the service. -/
def serve (s : Session) (a : Unitree.Action) : Session :=
  { s with node := s.node.step p base capacity (.call a) }

/-- `prepare_ingress`, with the answer of the transport.  The lifecycle lock is
free when every announcement before it was answered. -/
def prepareIngress (s : Session) (x : Attempt) (outcome : PortResult String) : Session :=
  if s.node.announced ≠ [] then s
  else
    let n := s.node.step p base capacity .prepareIngress
    match outcome with
    | .ok _ =>
      { s with node := n.step p base capacity .setIngressGeneration }.hold (x.at' .connectInAttempt)
    | .error e => { s with node := { n with announced := [] } }.hold (x.fail e)

/-- The holder goes on.  Where it waits for a call, `outcome` is the answer. -/
def advance (s : Session) (x : Attempt) (outcome : PortResult String) : Session :=
  match x.stage with
  | .acquired =>
    match x.job with
    | .connect mode =>
      if mode = .retry ∧ s.intentionalDisconnect = true then
        s.finish x (.returned (.error "Reconnect cancelled by intentional disconnect"))
      else s.hold { x with stage := .run, passed := true }
    | .disconnect => s.hold (x.at' .failAudio)
    | .audio => s.hold (x.at' .audio)
  | .run =>
    if s.cancellation ≠ x.seen then
      s.hold (x.fail "Connection attempt cancelled by disconnect")
    else { s with intentionalDisconnect := false }.hold (x.at' .stopAudio)
  | .stopAudio =>
    match outcome with
    | .ok _ => s.hold (x.at' (.stopTasks stopStores))
    | .error e => s.hold (x.fail e)
  | .stopTasks (which :: rest) =>
    (s.serve p base capacity (.store which)).hold (x.at' (.stopTasks rest))
  | .stopTasks [] =>
    let s := s.serve p base capacity .startNewSession
    s.hold { x with stage := .prepareIngress, started := some s.node.sys.service.sessionId }
  | .prepareIngress => s.prepareIngress p base capacity x outcome
  | .connectInAttempt =>
    { s with isConnected := false }.hold
      (x.at' (if x.job = Job.connect .connect then .connectInner else .rollback))
  | .rollback => ({ s with isConnected := false }.call x .close).hold (x.at' .closeFirst)
  | .closeFirst => (s.call x .closed).hold (x.at' .connectInner)
  | .connectInner =>
    match o.targetIp with
    | .ok _ => (s.call x .prepareOffer).hold (x.at' (.prepareOffer false))
    | .error e => s.hold (x.fail e)
  | .prepareOffer _ =>
    match outcome, o.targetIp with
    | .ok sdp, .ok ip =>
      (s.call x (.exchangeSdp ip (o.offerPayload sdp))).hold (x.at' .exchangeSdp)
    | .error e, _ => s.hold (x.fail e)
    -- the address was there before the offer
    | _, .error e => s.hold (x.fail e)
  | .exchangeSdp =>
    match outcome with
    | .ok answer => (s.call x (.applyAnswer answer)).hold (x.at' .applyAnswer)
    | .error e => s.hold (x.fail e)
  | .applyAnswer =>
    match outcome with
    | .ok _ =>
      { s with isConnected := true, connectedBy := some x.id }.hold (x.at' .waitDatachannelOpen)
    | .error e => s.hold (x.fail e)
  | .waitDatachannelOpen =>
    match Service.validatedTimeout o.fits o.validationTimeout with
    | .ok _ => s.hold (x.at' .sleep)
    | .error e => s.hold (x.fail e)
  | .sleep => s
  | .opened => s.finish x (.returned x.result)
  | .failAudio => s.hold (x.at' (.failStop stopStores))
  | .failStop (which :: rest) =>
    (s.serve p base capacity (.store which)).hold (x.at' (.failStop rest))
  | .failStop [] => (s.serve p base capacity .startNewSession).hold (x.at' .failRollback)
  | .failRollback => ({ s with isConnected := false }.call x .close).hold (x.at' .failClose)
  | .failClose => (s.call x .closed).hold (x.at' .failDone)
  | .failDone => s.finish x (.returned x.result)
  | .dropStop (which :: rest) =>
    (s.serve p base capacity (.store which)).hold (x.at' (.dropStop rest))
  | .dropStop [] => (s.serve p base capacity .startNewSession).hold (x.at' .dropAudio)
  | .dropAudio => s.hold (x.at' .dropConnection)
  | .dropConnection => { s with isConnected := false }.hold (x.at' .dropRollback)
  | .dropRollback => (s.call x .close).hold (x.at' .dropClose)
  | .dropClose => (s.call x .closed).finish x .dropped
  | .audio => s.finish x (.returned (outcome.map fun _ => ()))
  | .audioCleanup => s.finish x .dropped

end

/-- One turn of the loop in `wait_datachannel_open`. -/
def poll (s : Session) (x : Attempt) (ready elapsed : Bool) : Session :=
  match x.stage with
  | .sleep =>
    if ready ∧ s.node.sys.service.dataChannelOpened = true then
      s.hold { x with stage := .opened, result := .ok () }
    else if elapsed then s.hold (x.fail "Data channel did not open in time")
    else s
  | _ => s

/-- The `select!` of `run` sees a disconnect that came after the subscription. -/
def cancel (s : Session) (x : Attempt) : Session :=
  if x.stage.inRun ∧ s.cancellation ≠ x.seen then
    s.hold (x.fail "Connection attempt cancelled by disconnect")
  else s

def timeout (s : Session) (x : Attempt) (diagnostic : Option String) : Session :=
  if x.stage.timed then
    s.hold (x.fail (match diagnostic with
      | some detail => "Connection attempt timed out: " ++ detail
      | none => "Connection attempt timed out"))
  else s

/-- The future of the attempt is dropped. -/
def dropFuture (s : Session) (x : Attempt) : Session :=
  if x.stage.awaits then s.hold (x.at' (.dropStop stopStores))
  else
    match x.stage with
    | .audio => s.hold (x.at' .audioCleanup)
    | _ => s

/-! ### The system -/

inductive Action where
  /-- A connect, reconnect, retry, disconnect or audio operation queues for the
  gate. -/
  | begin (job : Job)
  /-- A queued future is dropped. -/
  | abandon (i : ℕ)
  | acquire (i : ℕ)
  | advance (outcome : PortResult String)
  /-- `prepare_offer` creates its peer. -/
  | createPeer
  | poll (ready elapsed : Bool)
  | cancel
  | timeout (diagnostic : Option String)
  | dropFuture
  /-- A peer hands in a message, however old it is. -/
  | deliver (peer : ℕ) (payload : DcMessage)
  /-- A peer's fault is kept for `take_transport_error`. -/
  | retainFault (peer : ℕ) (error : String)
  /-- The transport refuses the generation it was asked to set. -/
  | refuseGeneration
  /-- Anyone else: the router, the calls, the heartbeat, the workers. -/
  | node (a : Node.Action)
  /-- The session is dropped, which takes that no future borrows from it. -/
  | dropSession
  | dropSessionNext
  /-- The router leaves its loop. -/
  | routerExit
  | routerExitNext

/-- The steps that the router makes. -/
def byRouter : Node.Action → Bool
  | .takeFault _ | .route _ | .call (.expireChunks _) => true
  | _ => false

def enqueue (s : Session) (job : Job) : Session :=
  { s with
    queue := s.queue ++ [{ id := s.nextId, job, seen := s.cancellation }]
    nextId := s.nextId + 1 }

/-- No future that borrows from the session is left. -/
def unborrowed (s : Session) : Bool :=
  s.queue.isEmpty && match s.holder with
    | none => true
    | some x => x.stage.spawned

section

variable (p : Platform) (base capacity : ℕ) (o : SessionOptions)

/-- The last of `UnitreeSession::drop` spawns a disconnect. -/
def spawnDisconnect (s : Session) : Session :=
  if s.cleanupRuntime then s.requestDisconnect.enqueue .disconnect else s

def withHolder (s : Session) (f : Attempt → Session) : Session :=
  match s.holder with
  | none => s
  | some x => f x

def step (s : Session) : Action → Session
  | .begin job =>
    match s.owner with
    | .running =>
      let s := { s with cleanupRuntime := true }
      if job = .disconnect then s.requestDisconnect.enqueue job else s.enqueue job
    | _ => s
  | .abandon i => { s with queue := s.queue.eraseIdx i }
  | .acquire i =>
    match s.holder, s.queue[i]? with
    | none, some t => { s with queue := s.queue.eraseIdx i }.hold (.take t)
    | _, _ => s
  | .advance outcome => s.withHolder fun x => s.advance p base capacity o x outcome
  | .createPeer =>
    s.withHolder fun x =>
      match x.stage with
      | .prepareOffer false =>
        { s with node := s.node.step p base capacity .createPeer }.hold (x.at' (.prepareOffer true))
      | _ => s
  | .poll ready elapsed => s.withHolder fun x => s.poll x ready elapsed
  | .cancel => s.withHolder fun x => s.cancel x
  | .timeout diagnostic => s.withHolder fun x => s.timeout x diagnostic
  | .dropFuture => s.withHolder fun x => s.dropFuture x
  | .deliver peer payload =>
    match s.node.peers[peer]? with
    | none => s
    | some generation =>
      { s with node := s.node.push capacity (.peer peer, { generation, payload }) }
  | .retainFault peer error =>
    match s.node.peers[peer]? with
    | none => s
    | some generation =>
      { s with node := { s.node with
          fault := some (.peer peer, { generation, payload := .transportFault error }) } }
  | .refuseGeneration => { s with node := { s.node with announced := s.node.announced.tail } }
  | .node a =>
    if a.outside ∧ (byRouter a → s.router.isRunning) then
      { s with
        node := s.node.step p base capacity a
        processed := s.processed ++
          (s.node.routed a).toList.map fun m => (s.node.sys.service.sessionId, m) }
    else s
  | .dropSession =>
    match s.owner with
    | .running => if s.unborrowed then { s with owner := .stopping stopStores } else s
    | _ => s
  | .dropSessionNext =>
    match s.owner with
    | .stopping [] =>
        { (s.serve p base capacity .startNewSession).spawnDisconnect with owner := .gone }
    | .stopping (which :: rest) =>
      { s.serve p base capacity (.store which) with owner := .stopping rest }
    | _ => s
  | .routerExit =>
    match s.router with
    | .running => { s with router := .stopping stopStores }
    | _ => s
  | .routerExitNext =>
    match s.router with
    | .stopping [] => { s.serve p base capacity .startNewSession with router := .gone }
    | .stopping (which :: rest) =>
      { s.serve p base capacity (.store which) with router := .stopping rest }
    | _ => s

end

/-- What `with_adapters` assembles. -/
def init (channel : Channel Tagged) (sessionId requestSequence : ℕ) : Session where
  node := Node.init channel sessionId requestSequence
  isConnected := false
  connectedBy := none
  intentionalDisconnect := false
  cancellation := 0
  queue := []
  holder := none
  nextId := 0
  cleanupRuntime := false
  owner := .running
  router := .running
  calls := []
  processed := []
  ended := []

end Session

end Unitree
