/-
The WebRTC engine (`infrastructure/rtc_engine`).

An engine has one peer at a time, and makes a new one for every offer.  What a peer
consists of is kept in six slots, which a cleanup empties; the cleanup is a task of
its own, so that it goes on when the call that waits for it is cancelled.  The ready
state is a cell that the callbacks of the peer write to.  Every offer starts with a
new cell, and the old peers keep theirs.

Everything that belongs to an offer has the number of its cell: the peer, its
command worker, what it put into the slots.  The steps are those of the source
between two points where another thread can come in, and the answers of the WebRTC
library are part of the action.

* `RtcEngine.step` — one step of a call, of the cleanup, of a callback or of a
  command worker;
* `Cleanup` — where `close_inner` is;
* `Call` — where a call is, and at which points it can be cancelled.
-/
import UnitreeWebrtc.Runs

namespace Unitree

/-! ### The ready state -/

inductive RtcReadyState where
  | closed
  | connecting
  | opened
  | disconnected
  | failed
deriving DecidableEq

inductive RtcStateEvent where
  | channelOpened
  | channelClosed
  | peerConnected
  | peerDisconnected
  | peerFailed
  | peerClosed
deriving DecidableEq

def applyEvent (current : RtcReadyState) (event : RtcStateEvent) : RtcReadyState :=
  if current = .closed ∨ current = .failed then current
  else
    match event with
    | .channelClosed | .peerClosed => .closed
    | .peerFailed => .failed
    | .channelOpened => if current = .connecting then .opened else current
    | .peerDisconnected => if current = .opened then .disconnected else current
    | .peerConnected => if current = .disconnected then .opened else current

/-! ### Commands -/

inductive EngineCommand where
  | text (message : String)
  | binary (bytes : List UInt8)
deriving DecidableEq

def commandQueueCapacity : ℕ := 128

/-- Where `send_commands` is, and what follows it in the worker. -/
inductive WorkerStage where
  /-- In `commands.recv()`. -/
  | waiting
  | received (command : EngineCommand)
  /-- The generation was checked, and was this. -/
  | current (command : EngineCommand) (generation : ℕ)
  /-- In the send of the data channel. -/
  | sending
  /-- It returned an error, and `record_transport_fault` comes next. -/
  | failed
  | stopped
deriving DecidableEq

/-- A command worker with its queue.  The last two fields are for the statements:
what was put into the queue, and what was handed to the data channel, with the
generation and the state that the worker had seen. -/
structure Worker where
  stage : WorkerStage
  queue : List EngineCommand
  aborted : Bool
  accepted : List EngineCommand
  handed : List (EngineCommand × ℕ × RtcReadyState)

def Worker.spawned : Worker :=
  { stage := .waiting, queue := [], aborted := false, accepted := [], handed := [] }

/-- The receiver of the queue is dropped when `send_commands` returns. -/
def WorkerStage.receives : WorkerStage → Bool
  | .failed | .stopped => false
  | _ => true

/-! ### Calls and cleanup -/

/-- What a peer consists of. -/
inductive Slot where
  | peerResources
  | peerConnection
  | dataChannel
  | audioTrack
  | commandTx
  | commandTask
deriving DecidableEq

/-- `close_inner`, from one point where it can be interrupted to the next. -/
inductive Cleanup where
  | start
  | dropSender
  | takeTask
  | join (n : ℕ)
  | dropAudio
  | takeResources
  | closeResources (n : ℕ)
  /-- The resources were those of this peer, if there were any: `peer_owned`. -/
  | takeChannel (owned : Option ℕ)
  | closeChannel (n : ℕ)
  | takeConnection (owned : Option ℕ)
  | closeConnection (n : ℕ)
  | finish
  | done
deriving DecidableEq

/-- `CloseTask::run`: before the lock, and waiting for the stored handle. -/
inductive Run where
  | enter
  | wait
deriving DecidableEq

inductive PrepareStage where
  | closing (r : Run)
  | resetState
  | setConnecting
  | loadGeneration
  | createPeer
  /-- `create_peer_connection` once the resources are registered. -/
  | setup
  | storeConnection
  | storeChannel
  | storeAudio
  | installCommands
  | offering
  | failing (r : Run)
deriving DecidableEq

inductive Call where
  | prepareOffer (stage : PrepareStage)
  /-- `apply_answer`, before and after the remote description is set. -/
  | applyAnswer (described : Bool)
  | close (r : Run)
deriving DecidableEq

/-- The points where a call awaits, so that it can be dropped there. -/
def Call.awaits : Call → Bool
  | .prepareOffer stage =>
    match stage with
    | .resetState | .setConnecting | .loadGeneration | .installCommands => false
    | _ => true
  | _ => true

/-- The first stage of a call. -/
def Call.isFirst : Call → Bool
  | .prepareOffer stage => stage = .closing .enter
  | .applyAnswer described => !described
  | .close r => r = .enter

/-! ### The engine -/

/-- What happened, for the statements. -/
inductive Event where
  /-- `prepare_offer` set `Connecting` in this cell. -/
  | connecting (n : ℕ)
  /-- A callback of this peer ran. -/
  | callback (n : ℕ) (event : RtcStateEvent)
  | engineClosed
  | generationChanged
  | fault (generation : ℕ)
  /-- A `close` returned, on its own or in `prepare_offer`. -/
  | closeReturned
deriving DecidableEq

structure RtcEngine where
  ingressGeneration : ℕ
  /-- The cell of the ready state. -/
  current : ℕ
  cell : ℕ → RtcReadyState
  /-- The generation that the peer captured. -/
  captured : ℕ → Option ℕ
  /-- The generation of the retained fault. -/
  transportError : Option ℕ
  /-- The faults that found room in the ingress queue. -/
  incoming : List ℕ
  slot : Slot → Option ℕ
  worker : ℕ → Option Worker
  /-- Callbacks that have checked the generation and not yet written. -/
  callbacks : List (ℕ × RtcStateEvent)
  closeTask : Option Cleanup
  call : Option Call
  /-- Peers with a remote description. -/
  answered : ℕ → Bool
  /-- What was put into the slots, and what was closed or joined after it was taken
  out of them. -/
  stored : List (Slot × ℕ)
  released : List (Slot × ℕ)
  log : List Event

namespace RtcEngine

def new : RtcEngine where
  ingressGeneration := 0
  current := 0
  cell _ := .closed
  captured _ := none
  transportError := none
  incoming := []
  slot _ := none
  worker _ := none
  callbacks := []
  closeTask := none
  call := none
  answered _ := false
  stored := []
  released := []
  log := []

def readyState (e : RtcEngine) : RtcReadyState := e.cell e.current

def record (e : RtcEngine) (event : Event) : RtcEngine := { e with log := e.log ++ [event] }

/-- `ReadyStateHolder::set`. -/
def set (e : RtcEngine) (state : RtcReadyState) : RtcEngine :=
  { e with cell := Function.update e.cell e.current state }

/-- Put a part of the current peer into its slot. -/
def store (e : RtcEngine) (k : Slot) : RtcEngine :=
  { e with
    slot := Function.update e.slot k (some e.current)
    stored := e.stored ++ [(k, e.current)] }

def empty (e : RtcEngine) (k : Slot) : RtcEngine := { e with slot := Function.update e.slot k none }

def release (e : RtcEngine) (k : Slot) (n : ℕ) : RtcEngine :=
  { e with released := e.released ++ [(k, n)] }

theorem store_slot (e : RtcEngine) (k k' : Slot) :
    (e.store k).slot k' = if k' = k then some e.current else e.slot k' := by
  rw [store]
  exact Function.update_apply ..

theorem empty_slot (e : RtcEngine) (k k' : Slot) :
    (e.empty k).slot k' = if k' = k then none else e.slot k' := by
  rw [empty]
  exact Function.update_apply ..

/-- Drop what is in a slot. -/
def vacate (e : RtcEngine) (k : Slot) : RtcEngine :=
  match e.slot k with
  | none => e
  | some n => (e.empty k).release k n

def setWorker (e : RtcEngine) (n : ℕ) (w : Worker) : RtcEngine :=
  { e with worker := Function.update e.worker n (some w) }

theorem setWorker_worker (e : RtcEngine) (n m : ℕ) (w : Worker) :
    (e.setWorker n w).worker m = if m = n then some w else e.worker m := by
  rw [setWorker]
  exact Function.update_apply ..

def abort (e : RtcEngine) (n : ℕ) : RtcEngine :=
  match e.worker n with
  | none => e
  | some w => e.setWorker n { w with aborted := true }

/-- The task of the worker has ended. -/
def joined (e : RtcEngine) (n : ℕ) : Bool := (e.worker n).all (·.stage = .stopped)

/-! ### The port -/

def setIngressGeneration (e : RtcEngine) (generation : ℕ) : RtcEngine :=
  let e := { e with transportError := none }
  if e.ingressGeneration ≠ generation then
    (set { e with ingressGeneration := generation } .closed).record .generationChanged
  else e

def takeTransportError (e : RtcEngine) : RtcEngine := { e with transportError := none }

/-- `record_transport_fault` of a worker, with its last step. -/
def recordTransportFault (e : RtcEngine) (n : ℕ) (room : Bool) : RtcEngine :=
  match e.captured n with
  | none => e
  | some generation =>
    if generation ≠ e.ingressGeneration then e
    else
      record { e with
        cell := Function.update e.cell n .closed
        transportError := some generation
        -- the retained fault does not depend on this
        incoming := if room then e.incoming ++ [generation] else e.incoming } (.fault generation)

/-- `try_send` into the queue of a worker. -/
def trySend (e : RtcEngine) (n : ℕ) (command : EngineCommand) : RtcEngine :=
  match e.worker n with
  | none => e
  | some w =>
    if w.stage.receives ∧ w.queue.length < commandQueueCapacity then
      e.setWorker n
        { w with queue := w.queue ++ [command], accepted := w.accepted ++ [command] }
    else e

/-! ### The command worker -/

/-- The worker goes on; one that was aborted can end where it awaits. -/
def workerStep (e : RtcEngine) (n : ℕ) (ok room ends : Bool) : RtcEngine :=
  match e.worker n with
  | none => e
  | some w =>
    match w.stage with
    | .waiting =>
      if w.aborted ∧ ends then e.setWorker n { w with stage := .stopped }
      else
        match w.queue with
        | command :: rest => e.setWorker n { w with stage := .received command, queue := rest }
        -- without senders `recv` returns `None`
        | [] =>
          if e.slot .commandTx ≠ some n then e.setWorker n { w with stage := .stopped } else e
    | .received command =>
      if e.captured n = some e.ingressGeneration then
        e.setWorker n { w with stage := .current command e.ingressGeneration }
      else e.setWorker n { w with stage := .stopped }
    | .current command generation =>
      if e.cell n = .opened then
        e.setWorker n
          { w with stage := .sending, handed := w.handed ++ [(command, generation, e.cell n)] }
      else e.setWorker n { w with stage := .failed }
    | .sending =>
      if w.aborted ∧ ends then e.setWorker n { w with stage := .stopped }
      else e.setWorker n { w with stage := if ok then .waiting else .failed }
    | .failed => (e.recordTransportFault n room).setWorker n { w with stage := .stopped }
    | .stopped => e

/-! ### The cleanup -/

/-- One step of `close_inner`: the engine after it, and where it is then. -/
def closeInner (e : RtcEngine) : Cleanup → RtcEngine × Cleanup
  | .start => ((e.set .closed).record .engineClosed, .dropSender)
  | .dropSender => (e.vacate .commandTx, .takeTask)
  | .takeTask =>
    match e.slot .commandTask with
    | none => (e, .dropAudio)
    | some n => ((e.empty .commandTask).abort n, .join n)
  | .join n => if e.joined n then (e.release .commandTask n, .dropAudio) else (e, .join n)
  | .dropAudio => (e.vacate .audioTrack, .takeResources)
  | .takeResources =>
    match e.slot .peerResources with
    | none => (e, .takeChannel none)
    | some n => (e.empty .peerResources, .closeResources n)
  -- the media tasks are joined and the peer is closed
  | .closeResources n => (e.release .peerResources n, .takeChannel (some n))
  | .takeChannel owned =>
    match e.slot .dataChannel, owned with
    | none, _ => (e, .takeConnection owned)
    | some n, none => (e.empty .dataChannel, .closeChannel n)
    -- the channel of a peer is closed with the peer
    | some n, some m =>
      (if n = m then (e.empty .dataChannel).release .dataChannel n else e.empty .dataChannel,
        .takeConnection owned)
  | .closeChannel n => (e.release .dataChannel n, .takeConnection none)
  | .takeConnection owned =>
    match e.slot .peerConnection, owned with
    | none, _ => (e, .finish)
    | some n, none => (e.empty .peerConnection, .closeConnection n)
    | some n, some m =>
      (if n = m then (e.empty .peerConnection).release .peerConnection n
        else e.empty .peerConnection, .finish)
  | .closeConnection n => (e.release .peerConnection n, .finish)
  | .finish => ((e.set .closed).record .engineClosed, .done)
  | .done => (e, .done)

/-- The spawned task goes on. -/
def cleanup (e : RtcEngine) : RtcEngine :=
  match e.closeTask with
  | none => e
  | some stage =>
    let (e, stage) := e.closeInner stage
    { e with closeTask := some stage }

/-! ### The calls -/

/-- `CloseTask::run`: where it is then, or `none` when it returned. -/
def run (e : RtcEngine) : Run → RtcEngine × Option Run
  -- a handle that is already there is adopted
  | .enter => ({ e with closeTask := some (e.closeTask.getD .start) }, some .wait)
  | .wait =>
    if e.closeTask = some .done then
      (record { e with closeTask := none } .closeReturned, none)
    else (e, some .wait)

/-- `prepare_offer`, with what the library answers: where it is then, or `none`
when it returned. -/
def prepareOffer (e : RtcEngine) (ok : Bool) : PrepareStage → RtcEngine × Option PrepareStage
  | .closing r =>
    match e.run r with
    | (e, some r) => (e, some (.closing r))
    | (e, none) => (e, some .resetState)
  | .resetState =>
    ({ e with
      current := e.current + 1
      cell := Function.update e.cell (e.current + 1) .closed }, some .setConnecting)
  | .setConnecting => ((e.set .connecting).record (.connecting e.current), some .loadGeneration)
  | .loadGeneration =>
    ({ e with captured := Function.update e.captured e.current (some e.ingressGeneration) },
      some .createPeer)
  | .createPeer => if ok then (e.store .peerResources, some .setup) else (e, some (.failing .enter))
  | .setup => (e, some (if ok then .storeConnection else .failing .enter))
  | .storeConnection => (e.store .peerConnection, some .storeChannel)
  | .storeChannel => (e.store .dataChannel, some .storeAudio)
  | .storeAudio => (e.store .audioTrack, some .installCommands)
  | .installCommands =>
    let e := (e.store .commandTx).setWorker e.current .spawned
    if e.slot .peerResources = none then (e.abort e.current, some (.failing .enter))
    else (e.store .commandTask, some .offering)
  | .offering => (e, if ok then none else some (.failing .enter))
  | .failing r =>
    match e.run r with
    | (e, some r) => (e, some (.failing r))
    | (e, none) => (e, none)

theorem prepareOffer_closing (e : RtcEngine) (ok : Bool) (r : Run) :
    e.prepareOffer ok (.closing r) =
      ((e.run r).1, some ((e.run r).2.elim .resetState .closing)) := by
  rw [prepareOffer]
  rcases e.run r with ⟨e', _ | r'⟩
  · rfl
  · rfl

theorem prepareOffer_failing (e : RtcEngine) (ok : Bool) (r : Run) :
    e.prepareOffer ok (.failing r) = ((e.run r).1, (e.run r).2.map .failing) := by
  rw [prepareOffer]
  rcases e.run r with ⟨e', _ | r'⟩
  · rfl
  · rfl

/-- The running call goes on, up to the next point where it can be interrupted. -/
def advance (e : RtcEngine) (ok : Bool) : RtcEngine :=
  match e.call with
  | none => e
  | some (.prepareOffer stage) =>
    let (e, stage) := e.prepareOffer ok stage
    { e with call := stage.map .prepareOffer }
  | some (.applyAnswer false) =>
    match e.slot .peerConnection with
    | none => { e with call := none }
    | some n =>
      if ok then
        { e with
          call := some (.applyAnswer true)
          answered := Function.update e.answered n true }
      else { e with call := none }
  -- it looks at the ready state until that is decided, or until a deadline
  | some (.applyAnswer true) =>
    if e.readyState = .opened ∨ e.readyState = .closed ∨ e.readyState = .failed ∨ ¬ ok then
      { e with call := none }
    else e
  | some (.close r) =>
    let (e, r) := e.run r
    { e with call := r.map .close }

theorem advance_prepareOffer {e : RtcEngine} {stage : PrepareStage}
    (hcall : e.call = some (.prepareOffer stage)) (ok : Bool) :
    e.advance ok = { (e.prepareOffer ok stage).1 with
      call := (e.prepareOffer ok stage).2.map .prepareOffer } := by
  rw [advance.eq_def, hcall]

theorem advance_close {e : RtcEngine} {r : Run} (hcall : e.call = some (.close r)) (ok : Bool) :
    e.advance ok = { (e.run r).1 with call := (e.run r).2.map .close } := by
  rw [advance.eq_def, hcall]

/-- The future of the running call is dropped. -/
def cancel (e : RtcEngine) : RtcEngine :=
  match e.call with
  | none => e
  | some call => if call.awaits then { e with call := none } else e

inductive Action where
  | setIngressGeneration (generation : ℕ)
  | takeTransportError
  /-- A callback of a peer starts, and checks the generation. -/
  | fire (n : ℕ) (event : RtcStateEvent)
  /-- A callback that checked it writes. -/
  | apply (i : ℕ)
  | trySend (n : ℕ) (command : EngineCommand)
  | worker (n : ℕ) (ok room ends : Bool)
  | begin (call : Call)
  | advance (ok : Bool)
  | cancel
  | cleanup

/-- The handlers of a peer are there once it captured its generation. -/
def fire (e : RtcEngine) (n : ℕ) (event : RtcStateEvent) : RtcEngine :=
  match e.captured n with
  | none => e
  | some generation =>
    if generation ≠ e.ingressGeneration then e.record (.callback n event)
    else { e with callbacks := e.callbacks ++ [(n, event)] }

def apply (e : RtcEngine) (i : ℕ) : RtcEngine :=
  match e.callbacks[i]? with
  | none => e
  | some (n, event) =>
    record { e with
      callbacks := e.callbacks.eraseIdx i
      cell := Function.update e.cell n (applyEvent (e.cell n) event) } (.callback n event)

/-- A call starts when no other one runs: this is what the session gate gives. -/
def begin (e : RtcEngine) (call : Call) : RtcEngine :=
  if e.call = none ∧ call.isFirst then { e with call := some call } else e

def step (e : RtcEngine) : Action → RtcEngine
  | .setIngressGeneration generation => e.setIngressGeneration generation
  | .takeTransportError => e.takeTransportError
  | .fire n event => e.fire n event
  | .apply i => e.apply i
  | .trySend n command => e.trySend n command
  | .worker n ok room ends => e.workerStep n ok room ends
  | .begin call => e.begin call
  | .advance ok => e.advance ok
  | .cancel => e.cancel
  | .cleanup => e.cleanup

end RtcEngine

end Unitree
