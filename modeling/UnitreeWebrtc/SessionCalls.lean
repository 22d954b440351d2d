/-
The calls of a session (`connection/service.rs`, `connection/lifecycle.rs`).

Any number of calls run at a time, each by its own future, and the gate lets one
operation through.  A call goes from one point where it can be interrupted to the
next; a future can be dropped where it awaits, and what `Drop` spawns then goes on
with the gate.  Two more kinds of tasks run on their own: the shutdown of an audio
sender, whose handle is kept with the playback, and the engine's close, whose handle
is kept with the engine.

`connect`, `reconnect`, `auto_reconnect` and `disconnect` are there twice, for the
connection alone and for the validated session.

* `SessionCalls.step` — one step of a call or of a task;
* `SessionCalls.turn` — the same with every poll of `ConnectionAttempt::run` in one
  step, the look at the cancellation first.
-/
import UnitreeWebrtc.Lifecycle
import UnitreeWebrtc.Engine

namespace Unitree

/-- Whose method it is. -/
inductive Layer where
  | service
  | session
deriving DecidableEq

/-- What takes the gate. -/
inductive Operation where
  | connect (layer : Layer) (mode : SessionConnect)
  | disconnect (layer : Layer)
  | playAudio
  | stopAudio
deriving DecidableEq

def Operation.layer : Operation → Layer
  | .connect layer _ | .disconnect layer => layer
  | .playAudio | .stopAudio => .session

/-- The audio operations take the gate without an attempt. -/
def Operation.subscribes : Operation → Bool
  | .connect .. | .disconnect _ => true
  | .playAudio | .stopAudio => false

inductive Method where
  | connect (layer : Layer)
  | reconnect (layer : Layer)
  | autoReconnect (layer : Layer) (maxRetries : ℕ)
  | disconnect (layer : Layer)
  | playAudio
  | stopAudio
deriving DecidableEq

def Method.operation : Method → Operation
  | .connect layer => .connect layer .connect
  | .reconnect layer => .connect layer .reconnect
  | .autoReconnect layer _ => .connect layer .retry
  | .disconnect layer => .disconnect layer
  | .playAudio => .playAudio
  | .stopAudio => .stopAudio

/-- An operation of a call.  Only `auto_reconnect` makes more than one. -/
structure Op where
  call : ℕ
  index : ℕ
  operation : Operation
deriving DecidableEq

/-- An explicit connect or reconnect. -/
def Op.explicit (op : Op) : Bool :=
  match op.operation with
  | .connect _ mode => mode ≠ .retry
  | _ => false

namespace SessionCalls

/-! ### Where a call is -/

/-- `stop_audio_sender`: before the lock, and waiting for the stored handle. -/
inductive AudioStop where
  | lock
  | join (task : ℕ)
deriving DecidableEq

/-- Where the future is that `run` polls. -/
inductive Running where
  | unpolled
  | stopAudio (a : AudioStop)
  /-- The rollback of a reconnect. -/
  | closeFirst (r : Run)
  /-- `prepare_offer`: the close it begins with, the rest, and the close of an error. -/
  | offerClosing (r : Run)
  | offering
  | offerFailing (r : Run) (error : String)
  | exchangeSdp
  | applyAnswer
  | waitDatachannelOpen
deriving DecidableEq

/-- Under the timeout of fifteen seconds. -/
def Running.timed : Running → Bool
  | .offerClosing _ | .offering | .offerFailing .. | .exchangeSdp | .applyAnswer => true
  | _ => false

/-- Where an operation is that has the gate. -/
inductive Held where
  | acquired
  /-- `run` starts. -/
  | run
  | running (stage : Running)
  /-- The error path, and a whole disconnect. -/
  | failAudio (a : AudioStop)
  | failStop
  | failRollback
  | failClose (r : Run)
  | playStop (a : AudioStop)
  | playTrack
  | playNew
  | playStart
  | playFail (a : AudioStop)
  | audioStop (a : AudioStop)
  | finish
  /-- A retry that finds the session disconnected. -/
  | giveUp
  /-- The tasks that `SessionAttempt::drop`, `ConnectionAttempt::drop` and
  `AudioOperation::drop` spawn. -/
  | dropAudio (a : AudioStop)
  | dropClose (r : Run)
  | dropOperation (a : AudioStop)
deriving DecidableEq

/-- The points where the future of an operation with the gate awaits. -/
def Held.awaits : Held → Bool
  | .running stage => stage ≠ .unpolled
  | .failAudio _ | .failClose _ | .playStop _ | .playTrack | .playNew | .playFail _
  | .audioStop _ => true
  | _ => false

/-- The audio operations. -/
def Held.plays : Held → Bool
  | .playStop _ | .playTrack | .playNew | .playStart | .playFail _ | .audioStop _ => true
  | _ => false

inductive Answer where
  | unit
  | result (result : PortResult Unit)
  | retried (connected : Bool)
deriving DecidableEq

inductive CallStage where
  | begun
  /-- The head of the retry loop. -/
  | retryLoop
  | subscribe
  | queued
  | held (stage : Held)
  /-- The gate is free again; a retry can go on to the next. -/
  | released (again : Bool)
  | sleeping
  | returned (answer : Answer)
  /-- The future was dropped, and left nothing. -/
  | gone
deriving DecidableEq

structure SessionCall where
  method : Method
  /-- The number of the retry. -/
  index : ℕ
  /-- The version of the cancellation watch at the subscription. -/
  seen : ℕ
  result : PortResult Unit
  stage : CallStage
deriving DecidableEq

namespace SessionCall

def begun (method : Method) : SessionCall :=
  { method, index := 0, seen := 0, result := .ok (), stage := .begun }

def op (c : SessionCall) (n : ℕ) : Op :=
  { call := n, index := c.index, operation := c.method.operation }

def layer (c : SessionCall) : Layer := c.method.operation.layer

def goto (c : SessionCall) (stage : CallStage) : SessionCall := { c with stage }

def at' (c : SessionCall) (stage : Held) : SessionCall := { c with stage := .held stage }

/-- It finishes with this result. -/
def ends (c : SessionCall) (result : PortResult Unit) : SessionCall :=
  { c with result, stage := .held .finish }

/-- What follows an error of `run`, and what a disconnect does. -/
def recovery (c : SessionCall) : Held :=
  match c.layer with
  | .session => .failAudio .lock
  | .service => .failRollback

/-- `run` returned. -/
def ran (c : SessionCall) (result : PortResult Unit) : SessionCall :=
  match result with
  | .ok _ => c.ends result
  | .error _ => { c with result, stage := .held c.recovery }

end SessionCall

/-! ### The state -/

/-- What happened, for the statements. -/
inductive CallEvent where
  | requested (n : ℕ)
  | subscribed (op : Op)
  | acquired (op : Op)
  /-- `run` cleared `intentional_disconnect`. -/
  | runStarted (op : Op)
  /-- The first poll of the operation. -/
  | operationStarted (op : Op)
  | ran (op : Op) (ok : Bool)
  | connected (op : Op) (value : Bool)
  | prepareOffer (op : Op)
  | startNewSession (op : Op)
  | closeStarted (op : Op)
  | closeFinished (op : Op)
  | shutdownStarted (op : Op) (task : ℕ)
  | shutdownFinished (op : Op) (task : ℕ)
  | released (op : Op)
  | returned (n : ℕ) (answer : Answer)
deriving DecidableEq

/-- A shutdown of an audio sender, and its result when it is over. -/
structure Shutdown where
  op : Op
  result : Option (PortResult Unit)

/-- The stored close of the engine. -/
structure CloseTask where
  op : Op
  done : Bool

end SessionCalls

open SessionCalls in
structure SessionCalls where
  isConnected : Bool
  intentionalDisconnect : Bool
  /-- The version of the watch. -/
  cancellation : ℕ
  /-- The call that locked it last, until it is unlocked. -/
  gate : Option ℕ
  calls : ℕ → Option SessionCall
  nextCall : ℕ
  sender : Bool
  /-- The stored handle of a shutdown. -/
  audioCleanup : Option ℕ
  shutdowns : ℕ → Option Shutdown
  nextShutdown : ℕ
  closeTask : Option CloseTask
  sessionId : ℕ
  log : List CallEvent

namespace SessionCalls

def new (sessionId : ℕ) : SessionCalls where
  isConnected := false
  intentionalDisconnect := false
  cancellation := 0
  gate := none
  calls _ := none
  nextCall := 0
  sender := false
  audioCleanup := none
  shutdowns _ := none
  nextShutdown := 0
  closeTask := none
  sessionId
  log := []

def record (s : SessionCalls) (event : CallEvent) : SessionCalls :=
  { s with log := s.log ++ [event] }

def put (s : SessionCalls) (n : ℕ) (c : SessionCall) : SessionCalls :=
  { s with calls := Function.update s.calls n (some c) }

theorem put_calls (s : SessionCalls) (n m : ℕ) (c : SessionCall) :
    (s.put n c).calls m = if m = n then some c else s.calls m := by
  rw [put]
  exact Function.update_apply ..

def setConnected (s : SessionCalls) (op : Op) (value : Bool) : SessionCalls :=
  { s with isConnected := value }.record (.connected op value)

/-- `stop_background_tasks` of an operation. -/
def startNewSession (s : SessionCalls) (op : Op) : SessionCalls :=
  { s with sessionId := s.sessionId + 1 }.record (.startNewSession op)

def setShutdown (s : SessionCalls) (k : ℕ) (task : Shutdown) : SessionCalls :=
  { s with shutdowns := Function.update s.shutdowns k (some task) }

/-- The guard is dropped. -/
def release (s : SessionCalls) (op : Op) : SessionCalls :=
  { s with gate := none }.record (.released op)

/-! ### The parts of an operation -/

/-- `stop_audio_sender`.  Its lock is not in the model: whoever comes here has the
gate, and a cancelled wait leaves the handle where it is. -/
def stopAudioSender (s : SessionCalls) (op : Op) :
    AudioStop → SessionCalls × (AudioStop ⊕ PortResult Unit)
  | .lock =>
    match s.audioCleanup, s.sender with
    | some k, _ => (s, .inl (.join k))
    | none, true =>
      (({ s with
          sender := false
          audioCleanup := some s.nextShutdown
          nextShutdown := s.nextShutdown + 1 }.setShutdown s.nextShutdown
        { op, result := none }).record (.shutdownStarted op s.nextShutdown),
        .inl (.join s.nextShutdown))
    | none, false => (s, .inr (.ok ()))
  | .join k =>
    match s.shutdowns k with
    | some { result := some result, .. } => ({ s with audioCleanup := none }, .inr result)
    | _ => (s, .inl (.join k))

/-- `close` of the engine. -/
def close (s : SessionCalls) (op : Op) : Run → SessionCalls × Option Run
  | .enter =>
    match s.closeTask with
    -- a handle that is already there is adopted
    | some _ => (s, some .wait)
    | none =>
        ({ s with closeTask := some { op, done := false } }.record (.closeStarted op), some .wait)
  | .wait =>
    match s.closeTask with
    | some { done := true, .. } => ({ s with closeTask := none }, none)
    | _ => (s, some .wait)

inductive Progress where
  | at (stage : Running)
  | done (result : PortResult Unit)

section

variable (o : SessionOptions)

def connectInner (s : SessionCalls) (op : Op) : SessionCalls × Progress :=
  match o.targetIp with
  | .ok _ => (s.record (.prepareOffer op), .at (.offerClosing .enter))
  | .error e => (s, .done (.error e))

def connectInAttempt (s : SessionCalls) (op : Op) : SessionCalls × Progress :=
  let s := s.setConnected op false
  match op.operation with
  | .connect _ .connect => s.connectInner o op
  | _ => (s.setConnected op false, .at (.closeFirst .enter))

/-- The first poll of the operation, up to where it awaits. -/
def firstPoll (s : SessionCalls) (op : Op) : SessionCalls × Progress :=
  let s := s.record (.operationStarted op)
  match op.operation.layer with
  | .session => (s, .at (.stopAudio .lock))
  | .service => s.connectInAttempt o op

/-- The operation goes on where it awaits, with the answer of the port.  Where it
waits for the audio, `outcome` is the answer of the `prepare_ingress` after it. -/
def running (s : SessionCalls) (op : Op) (outcome : PortResult String) (isOpen : Bool) :
    Running → SessionCalls × Progress
  | .unpolled => (s, .at .unpolled)
  | .stopAudio a =>
    match s.stopAudioSender op a with
    | (s, .inl a) => (s, .at (.stopAudio a))
    | (s, .inr (.error e)) => (s, .done (.error e))
    | (s, .inr (.ok _)) =>
      match outcome with
      | .ok _ => (s.startNewSession op).connectInAttempt o op
      | .error e => (s.startNewSession op, .done (.error e))
  | .closeFirst r =>
    match s.close op r with
    | (s, some r) => (s, .at (.closeFirst r))
    | (s, none) => s.connectInner o op
  | .offerClosing r =>
    match s.close op r with
    | (s, some r) => (s, .at (.offerClosing r))
    | (s, none) => (s, .at .offering)
  | .offering =>
    match outcome with
    | .ok _ => (s, .at .exchangeSdp)
    | .error e => (s, .at (.offerFailing .enter e))
  | .offerFailing r e =>
    match s.close op r with
    | (s, some r) => (s, .at (.offerFailing r e))
    | (s, none) => (s, .done (.error e))
  | .exchangeSdp =>
    match outcome with
    | .ok _ => (s, .at .applyAnswer)
    | .error e => (s, .done (.error e))
  | .applyAnswer =>
    match outcome with
    | .ok _ =>
      (s.setConnected op true,
        match op.operation.layer with
        | .service => .done (.ok ())
        | .session => .at .waitDatachannelOpen)
    | .error e => (s, .done (.error e))
  | .waitDatachannelOpen =>
    match Service.validatedTimeout o.fits o.validationTimeout with
    | .error e => (s, .done (.error e))
    | .ok _ => (s, if isOpen then .done (.ok ()) else .at .waitDatachannelOpen)

/-- A deadline passes, of the connection or of the wait for the validation. -/
def elapsed (diagnostic : Option String) (stage : Running) : Progress :=
  if stage.timed then
    .done (.error (match diagnostic with
      | some detail => "Connection attempt timed out: " ++ detail
      | none => "Connection attempt timed out"))
  else if stage = .waitDatachannelOpen then .done (.error "Data channel did not open in time")
  else .at stage

/-- What becomes of the call, of the poll of its operation. -/
def progress (s : SessionCalls) (n : ℕ) (c : SessionCall) : Progress → SessionCalls
  | .at stage => s.put n (c.at' (.running stage))
  | .done result => (s.record (.ran (c.op n) result.toOption.isSome)).put n (c.ran result)

/-- An operation with the gate goes on. -/
def held (s : SessionCalls) (n : ℕ) (c : SessionCall) (outcome : PortResult String)
    (isOpen : Bool) :
    Held → SessionCalls
  | .acquired =>
    match c.method.operation with
    | .connect layer mode =>
      if mode = .retry ∧ s.intentionalDisconnect = true then
        s.put n (match layer with
          | .session => c.ends (.error "Reconnect cancelled by intentional disconnect")
          | .service => c.at' .giveUp)
      else s.put n (c.at' .run)
    | .disconnect _ => s.put n (c.at' c.recovery)
    | .playAudio => s.put n (c.at' (.playStop .lock))
    | .stopAudio => s.put n (c.at' (.audioStop .lock))
  | .run =>
    if s.cancellation ≠ c.seen then
      s.progress n c (.done (.error "Connection attempt cancelled by disconnect"))
    else
      ({ s with intentionalDisconnect := false }.record (.runStarted (c.op n))).put n
        (c.at' (.running .unpolled))
  | .running stage =>
    let (s, p) := s.running o (c.op n) outcome isOpen stage
    s.progress n c p
  | .failAudio a =>
    match s.stopAudioSender (c.op n) a with
    | (s, .inl a) => s.put n (c.at' (.failAudio a))
    | (s, .inr _) => s.put n (c.at' .failStop)
  | .failStop => (s.startNewSession (c.op n)).put n (c.at' .failRollback)
  | .failRollback => (s.setConnected (c.op n) false).put n (c.at' (.failClose .enter))
  | .failClose r =>
    match s.close (c.op n) r with
    | (s, some r) => s.put n (c.at' (.failClose r))
    | (s, none) => s.put n (c.at' .finish)
  | .playStop a =>
    match s.stopAudioSender (c.op n) a with
    | (s, .inl a) => s.put n (c.at' (.playStop a))
    | (s, .inr (.error e)) => s.put n (c.ends (.error e))
    | (s, .inr (.ok _)) =>
      if s.isConnected ∧ isOpen then s.put n (c.at' .playTrack)
      else s.put n (c.ends (.error "Audio track not initialized. Call connect() first."))
  | .playTrack =>
    match outcome with
    | .ok _ => s.put n (c.at' .playNew)
    | .error _ => s.put n (c.ends (.error "Audio track not initialized. Call connect() first."))
  | .playNew =>
    match outcome with
    | .ok _ => s.put n (c.at' .playStart)
    | .error e => s.put n (c.ends (.error e))
  -- the sender is kept before it plays
  | .playStart =>
    match outcome with
    | .ok _ => { s with sender := true }.put n (c.ends (.ok ()))
    | .error e =>
        { s with sender := true }.put n { c.at' (.playFail .lock) with result := .error e }
  | .playFail a =>
    match s.stopAudioSender (c.op n) a with
    | (s, .inl a) => s.put n (c.at' (.playFail a))
    | (s, .inr _) => s.put n (c.at' .finish)
  | .audioStop a =>
    match s.stopAudioSender (c.op n) a with
    | (s, .inl a) => s.put n (c.at' (.audioStop a))
    | (s, .inr result) => s.put n (c.ends result)
  | .finish => (s.release (c.op n)).put n (c.goto (.released true))
  | .giveUp => (s.release (c.op n)).put n (c.goto (.released false))
  | .dropAudio a =>
    match s.stopAudioSender (c.op n) a with
    | (s, .inl a) => s.put n (c.at' (.dropAudio a))
    -- the attempt is dropped with its connection
    | (s, .inr _) => (s.setConnected (c.op n) false).put n (c.at' (.dropClose .enter))
  | .dropClose r =>
    match s.close (c.op n) r with
    | (s, some r) => s.put n (c.at' (.dropClose r))
    | (s, none) => (s.release (c.op n)).put n (c.goto .gone)
  | .dropOperation a =>
    match s.stopAudioSender (c.op n) a with
    | (s, .inl a) => s.put n (c.at' (.dropOperation a))
    | (s, .inr _) => (s.release (c.op n)).put n (c.goto .gone)

/-! ### The calls -/

def return' (s : SessionCalls) (n : ℕ) (c : SessionCall) (answer : Answer) : SessionCalls :=
  (s.record (.returned n answer)).put n (c.goto (.returned answer))

/-- What a call does once its operation released the gate. -/
def afterwards (s : SessionCalls) (n : ℕ) (c : SessionCall) (again : Bool) : SessionCalls :=
  match c.method with
  | .autoReconnect layer maxRetries =>
    match c.result with
    | .ok _ => s.return' n c (.retried again)
    | .error _ =>
      if layer = .session ∧ ¬ c.index + 1 < maxRetries then
        s.put n { c with index := c.index + 1, stage := .retryLoop }
      else s.put n (c.goto .sleeping)
  | .disconnect _ => s.return' n c .unit
  | _ => s.return' n c (.result c.result)

def resume (s : SessionCalls) (n : ℕ) (c : SessionCall) (outcome : PortResult String)
    (isOpen : Bool) :
    SessionCalls :=
  match c.stage with
  | .begun =>
    match c.method with
    -- `request_disconnect`
    | .disconnect _ =>
      ({ s with intentionalDisconnect := true, cancellation := s.cancellation + 1 }.record
        (.requested n)).put n (c.goto .subscribe)
    | .autoReconnect layer _ =>
      if layer = .service ∧ s.intentionalDisconnect = true then s.return' n c (.retried false)
      else s.put n (c.goto .retryLoop)
    | _ => s.put n (c.goto .subscribe)
  | .retryLoop =>
    match c.method with
    | .autoReconnect _ maxRetries =>
      if c.index < maxRetries ∧ s.intentionalDisconnect = false then s.put n (c.goto .subscribe)
      else s.return' n c (.retried false)
    | _ => s
  | .subscribe =>
    (if c.method.operation.subscribes then s.record (.subscribed (c.op n)) else s).put n
      { c with seen := s.cancellation, result := .ok (), stage := .queued }
  | .held stage => s.held o n c outcome isOpen stage
  | .released again => s.afterwards n c again
  | .sleeping => s.put n { c with index := c.index + 1, stage := .retryLoop }
  | .queued | .returned _ | .gone => s

/-- The future of the call is dropped. -/
def dropFuture (s : SessionCalls) (n : ℕ) (c : SessionCall) : SessionCalls :=
  match c.stage with
  | .queued | .sleeping => s.put n (c.goto .gone)
  | .held stage =>
    if stage.awaits then
      if stage.plays then s.put n (c.at' (.dropOperation .lock))
      else
        match c.layer with
        | .session => (s.startNewSession (c.op n)).put n (c.at' (.dropAudio .lock))
        | .service => (s.setConnected (c.op n) false).put n (c.at' (.dropClose .enter))
    else s
  | _ => s

inductive Action where
  | call (method : Method)
  /-- A call goes on; where it waits for a port, with the answer. -/
  | resume (n : ℕ) (outcome : PortResult String) (isOpen : Bool)
  | acquire (n : ℕ)
  | firstPoll (n : ℕ)
  /-- `run` sees that the watch has changed. -/
  | cancel (n : ℕ)
  | elapse (n : ℕ) (diagnostic : Option String)
  | dropFuture (n : ℕ)
  | shutdownDone (k : ℕ) (result : PortResult Unit)
  | closeDone
  /-- A new session that no operation starts: after a fault, or when the owner or
  the router ends. -/
  | newSession

def withCall (s : SessionCalls) (n : ℕ) (f : SessionCall → SessionCalls) : SessionCalls :=
  match s.calls n with
  | none => s
  | some c => f c

def withRunning (s : SessionCalls) (n : ℕ) (f : SessionCall → Running → SessionCalls) :
    SessionCalls :=
  s.withCall n fun c =>
    match c.stage with
    | .held (.running stage) => f c stage
    | _ => s

def step (s : SessionCalls) : Action → SessionCalls
  | .call method => { s.put s.nextCall (.begun method) with nextCall := s.nextCall + 1 }
  | .resume n outcome isOpen => s.withCall n fun c => s.resume o n c outcome isOpen
  | .acquire n =>
    s.withCall n fun c =>
      if s.gate = none ∧ c.stage = .queued then
        ({ s with gate := some n }.record (.acquired (c.op n))).put n (c.at' .acquired)
      else s
  | .firstPoll n =>
    s.withRunning n fun c stage =>
      if stage = .unpolled then
        let (s, p) := s.firstPoll o (c.op n)
        s.progress n c p
      else s
  | .cancel n =>
    s.withRunning n fun c _ =>
      if s.cancellation ≠ c.seen then
        s.progress n c (.done (.error "Connection attempt cancelled by disconnect"))
      else s
  | .elapse n diagnostic => s.withRunning n fun c stage => s.progress n c (elapsed diagnostic stage)
  | .dropFuture n => s.withCall n fun c => s.dropFuture n c
  | .shutdownDone k result =>
    match s.shutdowns k with
    | some { op, result := none } =>
      (s.setShutdown k { op, result := some result }).record (.shutdownFinished op k)
    | _ => s
  | .closeDone =>
    match s.closeTask with
    | some { op, done := false } =>
      { s with closeTask := some { op, done := true } }.record (.closeFinished op)
    | _ => s
  | .newSession => { s with sessionId := s.sessionId + 1 }

/-! ### Polls -/

def inRun (s : SessionCalls) (n : ℕ) : Bool :=
  match s.calls n with
  | some { stage := .held (.running _), .. } => true
  | _ => false

/-- The call that an action resumes inside `run`. -/
def Action.polls : Action → Option ℕ
  | .resume n _ _ | .firstPoll n | .cancel n | .elapse n _ => some n
  | _ => none

/-- The parts of a poll that find the call still in `run`. -/
def polled (s : SessionCalls) (n : ℕ) : List Action → SessionCalls
  | [] => s
  | a :: rest => if s.inRun n then (s.step o a).polled n rest else s

/-- A poll of `run`: the cancellation first, and then the operation as far as it
gets with these answers, and the deadline last. -/
def poll (s : SessionCalls) (n : ℕ) (answers : List (PortResult String × Bool))
    (deadline : Option (Option String)) : SessionCalls :=
  s.withRunning n fun c _ =>
    if s.cancellation ≠ c.seen then s.step o (.cancel n)
    else
      s.polled o n (.firstPoll n :: answers.map (fun a => .resume n a.1 a.2) ++
        (deadline.map (Action.elapse n)).toList)

inductive Turn where
  | poll (n : ℕ) (answers : List (PortResult String × Bool)) (deadline : Option (Option String))
  /-- A step outside of `run`. -/
  | step (a : Action)

def turn (s : SessionCalls) : Turn → SessionCalls
  | .poll n answers deadline => s.poll o n answers deadline
  | .step a => if a.polls.any s.inRun then s else s.step o a

end

end SessionCalls

end Unitree
