/-
Python callbacks (`interface/callbacks.rs`, `interface/bridges/pubsub.rs`).

One thread takes the events out of the callback channel and calls what Python has
registered under their key.  Python registers, replaces and removes callbacks at any
time, also from within a callback or a finalizer, and the session generation can move
while the thread waits for the interpreter.  So the thread looks three times: at the
generation when it has the interpreter, at the registry, and at the generation again
when the argument has been built.

The system is a `Node` whose channel only this thread receives from, with the registry
beside it (`Host`).  It keeps three histories for the statements: what was registered, what
was called, and what became of each event.

* `CallbackEvent.argument` — what an event converts to;
* `errorClass?_safe` — every exception has its place among the logs;
* `Host.step` — the steps of Python, of the dispatcher and of the rest of the program.
-/
import UnitreeWebrtc.Tally
import UnitreeWebrtc.Outbound

namespace Unitree

/-! ### The argument of a callback -/

/-- What `as_f64` is asked of: every number has a nearest double, which Python is then given;
here it is the number that is kept, since nothing looks at the double. -/
def Value.asNumber : Value → Option Number
  | .number n => some n
  | _ => none

/-- The `data` of a point cloud message, its doubles by the numbers that they are nearest to
(`Value.asNumber`); the points are rows of three. -/
structure ScanData where
  stamp : Option Number
  frameId : Option String
  resolution : Option Number
  srcSize : Option ℕ
  width : Option ℕ
  origin : Option (List Number)
  points : List UInt32

structure ScanMessage where
  topic : String
  data : Option ScanData
  type : Option String

/-- What a callback is called with. -/
inductive Argument where
  /-- What `json_value_to_py` makes of a value. -/
  | json (value : Value)
  | scan (message : ScanMessage)
  /-- An array of shape `(height, width, 3)`. -/
  | frame (height width : ℕ) (data : List UInt8)
  | samples (data : List UInt16)

/-- `reshape`; `none` is a `ValueError`. -/
def reshape {α : Type} (data : List α) (shape : List ℕ) : Option (List α) :=
  if data.length = shape.prod then some data else none

namespace CallbackEvent

/-- The registry key and the kind of the events that are dispatched. -/
def target : CallbackEvent → Option (String × String)
  | topicCallback topic _ => some (topic.data, "topic")
  | lidarCallback topic _ _ => some (topic.data, "lidar")
  | videoFrame _ _ _ => some ("video", "video")
  | audioFrame _ _ _ => some ("audio", "audio")
  | futureResolve _ _ => none

def scanData (payload : Value) (points : List UInt32) : Option ScanData :=
  match (payload.get "data").bind Value.asObject with
  | none => none
  | some entries =>
    let data := Value.object entries
    some
      { stamp := (data.get "stamp").bind Value.asNumber
        frameId := (data.get "frame_id").bind Value.asStr
        resolution := (data.get "resolution").bind Value.asNumber
        srcSize := (data.get "src_size").bind Value.asU64
        width := (data.get "width").bind Value.asU64
        origin := ((data.get "origin").bind Value.asArray).map fun origin =>
          origin.filterMap Value.asNumber
        points }

/-- The conversions of `dispatch_event_checked`; `none` where a reshape fails. -/
def argument : CallbackEvent → Option Argument
  | topicCallback _ payload => some (.json payload.value)
  | lidarCallback topic payload points =>
    (reshape points.data [points.data.length / 3, 3]).map fun points =>
      .scan
        { topic := topic.data
          data := scanData payload.value points
          type := (payload.value.get "type").bind Value.asStr }
  | videoFrame data width height =>
    (reshape data.data [height.toNat, width.toNat, 3]).map fun data =>
      .frame height.toNat width.toNat data
  | audioFrame data _ _ => some (.samples data.data)
  | futureResolve _ _ => none

end CallbackEvent

/-! ### Failures of callbacks -/

/-- `ERROR_CLASSES`. -/
def errorClasses : List String :=
  ["ValueError", "TypeError", "RuntimeError", "KeyError", "IndexError", "MemoryError",
    "OverflowError", "OSError", "unknown_exception"]

/-- The place of a class in `ERROR_CLASSES`. -/
abbrev ErrorClass := Fin errorClasses.length

/-- `CallbackDiagnostics`: one log for each of these. -/
inductive CallbackFailure where
  | conversion (cls : ErrorClass)
  | invocation (cls : ErrorClass)
  | attachment
deriving DecidableEq

namespace CallbackFailure

def name : CallbackFailure → String × String
  | conversion cls => ("python_callback_conversion_failed", errorClasses.get cls)
  | invocation cls => ("python_callback_invocation_failed", errorClasses.get cls)
  | attachment => ("python_callback_failed", "interpreter_unavailable")

/-- The order of `CallbackDiagnostics::reset`. -/
def order : List CallbackFailure :=
  (List.finRange _).map conversion ++ (List.finRange _).map invocation ++ [attachment]

theorem mem_order (f : CallbackFailure) : f ∈ order := by
  cases f <;> simp [order]

end CallbackFailure

/-- The fields of the line that `CallbackDiagnostics::report` logs, its counts apart; its
event is not that of the log which counts for it. -/
structure FailureReport where
  event : String
  stage : String
  lastCallbackKind : String
  lastCallbackId : ℕ
  errorClass : String
  scope : String
  generation : ℕ

/-- What the model uses of the interpreter: the addresses of the exception types that
`safe_exception_class` knows, in its order, and which objects are callable. -/
structure Interpreter (κ : Type) where
  valueError : ℕ
  others : List ℕ
  callable : κ → Bool

def Interpreter.known {κ : Type} (i : Interpreter κ) : List ℕ := i.valueError :: i.others

/-- `safe_exception_class`, for the type object of an exception. -/
def safeExceptionClass (known : List ℕ) (actual : ℕ) : String :=
  match known.findIdx? (fun expected => expected = actual) with
  | none => "unknown_exception"
  | some i => errorClasses.getD i "unknown_exception"

/-- The `position(..).unwrap()` of `report`. -/
def errorClass? (cls : String) : Option ErrorClass :=
  (List.finRange errorClasses.length).find? fun i => errorClasses.get i = cls

/-- The `unwrap` of `report` is safe, whatever was raised. -/
theorem errorClass?_safe (known : List ℕ) (actual : ℕ) :
    ∃ i, errorClass? (safeExceptionClass known actual) = some i ∧
      errorClasses.get i = safeExceptionClass known actual := by
  have hfind : ∀ cls ∈ errorClasses, ∃ i, errorClass? cls = some i ∧ errorClasses.get i = cls := by
    decide
  refine hfind _ ?_
  rw [safeExceptionClass]
  split
  · decide
  next i _ =>
    rw [List.getD_eq_getElem?_getD]
    rcases h : errorClasses[i]? with _ | cls
    · decide
    · exact List.mem_of_getElem? h

/-! ### The system -/

/-- `RegisteredCallback`; `κ` is the type of Python callables. -/
structure RegisteredCallback (κ : Type) where
  id : ℕ
  callback : κ

/-- How far the dispatcher is with a delivery, whose event it has extracted. -/
inductive DispatchStage (κ : Type) where
  | waiting
  | received (d : Delivery Tagged) (e : Tagged)
  /-- In the interpreter. -/
  | attached (d : Delivery Tagged) (e : Tagged)
  /-- The generation was current. -/
  | checked (d : Delivery Tagged) (e : Tagged)
  /-- The callback was copied out of the registry. -/
  | copied (d : Delivery Tagged) (e : Tagged) (r : RegisteredCallback κ)
  | converted (d : Delivery Tagged) (e : Tagged) (r : RegisteredCallback κ) (argument : Argument)
  /-- The callback runs. -/
  | calling (d : Delivery Tagged) (e : Tagged) (r : RegisteredCallback κ)
  /-- Done, and the permit still held. -/
  | done (d : Delivery Tagged)
  /-- The channel is disconnected and the thread has ended. -/
  | ended

/-- What became of a delivery. -/
inductive Outcome where
  | unattached
  | stale
  | unregistered
  | conversionFailed (cls : ErrorClass)
  | staleAfterConversion
  | returned
  | raised (cls : ErrorClass)
  /-- A `FutureResolve`. -/
  | ignored

/-- An invocation of a callback, with the session at the check before it. -/
structure Invocation (κ : Type) where
  session : ℕ
  delivery : Delivery Tagged
  registration : RegisteredCallback κ
  argument : Argument

structure Host (κ : Type) where
  node : Node
  registry : Table String (RegisteredCallback κ)
  /-- `NEXT_ID`. -/
  nextId : ℕ
  stage : DispatchStage κ
  /-- The generation the dispatcher has seen last. -/
  generation : Option ℕ
  failures : Tally CallbackFailure FailureReport
  /-- Every registration that was made. -/
  registered : List (String × RegisteredCallback κ)
  calls : List (Invocation κ)
  outcomes : List (Delivery Tagged × Outcome)

namespace Host

variable {κ : Type}

inductive Action (κ : Type) where
  /-- A step of the rest of the program. -/
  | node (a : Node.Action)
  | subscribe (env : Env) (topic : String) (callback : κ)
  | unsubscribe (env : Env) (topic : String)
  | onFrame (callback : κ)
  | onAudio (callback : κ)
  | clearCallbacks
  /-- `NEXT_ID` is shared by all connections of the process. -/
  | otherConnection
  | recvDelivery (blocked : Bool)
  /-- `Python::try_attach`, which fails while the interpreter shuts down. -/
  | tryAttach (available : Bool) (now : ℕ)
  | checkCurrent
  | copyCallback
  /-- The conversion, and the type of what Python raises in it. -/
  | convertArgument (raised : Option ℕ) (now : ℕ)
  | recheckCurrent
  | callReturns (raised : Option ℕ) (now : ℕ)
  | dropDelivery
  /-- The session is dropped, and all senders with it. -/
  | dropSenders

/-- The steps of a node that are not the dispatcher's or a bridge's own. -/
def foreign : Node.Action → Bool
  | .receive _ _ => false
  | .takeEvent _ => false
  | .dropHeld _ => false
  | .dropReceiver => false
  | .call (.subscribe _ _) => false
  | .call (.unsubscribe _ _) => false
  | _ => true

/-- `registry.insert(key, callback.into())`. -/
def register (h : Host κ) (key : String) (callback : κ) : Host κ :=
  let r : RegisteredCallback κ := { id := h.nextId, callback }
  { h with
    registry := h.registry.insert key r
    nextId := h.nextId + 1
    registered := h.registered ++ [(key, r)] }

def settle (h : Host κ) (d : Delivery Tagged) (outcome : Outcome) : Host κ :=
  { h with outcomes := h.outcomes ++ [(d, outcome)], stage := .done d }

/-- `CallbackDiagnostics::report`, for a log of one of the two stages. -/
def report (i : Interpreter κ) (h : Host κ) (log : ErrorClass → CallbackFailure) (stage : String)
    (kind : String) (id raised now : ℕ) : Host κ × Option ErrorClass :=
  let errorClass := safeExceptionClass i.known raised
  match errorClass? errorClass with
  | none => (h, none)
  | some cls =>
    ({ h with
        failures := h.failures.record (log cls) now (some
          { event := "python_callback_failed", stage, lastCallbackKind := kind,
            lastCallbackId := id, errorClass, scope := "dispatcher",
            generation := h.failures.label }) },
      some cls)

/-- The conversion of an event, or the type of the exception. -/
def convert (i : Interpreter κ) (event : CallbackEvent) (raised : Option ℕ) :
    Except ℕ Argument :=
  match raised with
  | some raised => .error raised
  | none =>
    match event.argument with
    | none => .error i.valueError
    | some argument => .ok argument

/-- A step of the service from a bridge. -/
def call (p : Platform) (base capacity : ℕ) (h : Host κ) (a : Unitree.Action) : Host κ :=
  { h with node := h.node.step p base capacity (.call a) }

/-- `recv_delivery`, and the start of `dispatch_delivery`. -/
def recvDelivery (p : Platform) (base capacity : ℕ) (h : Host κ) (blocked : Bool) : Host κ :=
  match Traffic.serve blocked h.node.events.channel with
  | some (_, _, .ok d) =>
    match d.event with
    | none => h
    | some e =>
      let node := h.node.step p base capacity (.receive blocked true)
      { h with
        node := node.step p base capacity (.takeEvent 0)
        failures :=
          if h.generation = some d.generation then h.failures
          else h.failures.reset CallbackFailure.order d.generation
        generation := some d.generation
        stage := .received d e }
  | some (_, _, .error .disconnected) =>
    -- the loop ends, and with it the receiver and the logs
    let node := h.node.step p base capacity (.receive blocked true)
    { h with
      node := node.step p base capacity .dropReceiver
      failures := h.failures.drop CallbackFailure.order
      stage := .ended }
  | _ => { h with node := h.node.step p base capacity (.receive blocked true) }

def step (i : Interpreter κ) (p : Platform) (base capacity : ℕ) (h : Host κ) : Action κ → Host κ
  | .node a => if foreign a then { h with node := h.node.step p base capacity a } else h
  | .subscribe env topic callback =>
    if i.callable callback then
      match (h.node.sys.service.subscribe env topic).1 with
      | .error _ => h.call p base capacity (.subscribe env topic)
      | .ok () => (h.call p base capacity (.subscribe env topic)).register topic callback
    else h
  | .unsubscribe env topic =>
    match (h.node.sys.service.unsubscribe env topic).1 with
    | .error _ => h.call p base capacity (.unsubscribe env topic)
    | .ok () =>
      let h := h.call p base capacity (.unsubscribe env topic)
      { h with registry := h.registry.erase topic }
  | .onFrame callback => if i.callable callback then h.register "video" callback else h
  | .onAudio callback => if i.callable callback then h.register "audio" callback else h
  | .clearCallbacks => { h with registry := ∅ }
  | .otherConnection => { h with nextId := h.nextId + 1 }
  | .recvDelivery blocked =>
    match h.stage with
    | .waiting => h.recvDelivery p base capacity blocked
    | _ => h
  | .tryAttach available now =>
    match h.stage with
    | .received d e =>
      if e.event.target = none then h.settle d .ignored
      else if available then { h with stage := .attached d e }
      else { h with failures := h.failures.record .attachment now none }.settle d .unattached
    | _ => h
  | .checkCurrent =>
    match h.stage with
    | .attached d e =>
      if h.node.sys.service.sessionId = d.generation then { h with stage := .checked d e }
      else h.settle d .stale
    | _ => h
  | .copyCallback =>
    match h.stage with
    | .checked d e =>
      match e.event.target.bind fun target => h.registry.lookup target.1 with
      | none => h.settle d .unregistered
      | some r => { h with stage := .copied d e r }
    | _ => h
  | .convertArgument raised now =>
    match h.stage with
    | .copied d e r =>
      match convert i e.event raised with
      | .ok argument => { h with stage := .converted d e r argument }
      | .error raised =>
        match h.report i .conversion "conversion" (e.event.target.elim "" Prod.snd) r.id raised now
        with
        | (h, some cls) => h.settle d (.conversionFailed cls)
        | (h, none) => h
    | _ => h
  | .recheckCurrent =>
    match h.stage with
    -- the last check and the call are one step: what a reset between them does to a call
    -- is what it does to one that is under way
    | .converted d e r argument =>
      if h.node.sys.service.sessionId = d.generation then
        { h with
          stage := .calling d e r
          calls := h.calls ++
            [{ session := h.node.sys.service.sessionId, delivery := d, registration := r,
               argument }] }
      else h.settle d .staleAfterConversion
    | _ => h
  | .callReturns raised now =>
    match h.stage with
    | .calling d e r =>
      match raised with
      | none => h.settle d .returned
      | some raised =>
        match h.report i .invocation "invocation" (e.event.target.elim "" Prod.snd) r.id raised now
        with
        | (h, some cls) => h.settle d (.raised cls)
        | (h, none) => h
    | _ => h
  | .dropDelivery =>
    match h.stage with
    | .done _ =>
      { h with node := h.node.step p base capacity (.dropHeld 0), stage := .waiting }
    | _ => h
  | .dropSenders =>
    { h with node.traffic.channel.senders := 0 }

/-- A new connection, whose dispatcher has just started. -/
def init (channel : Channel Tagged) (sessionId requestSequence nextId : ℕ) : Host κ :=
  { node := Node.init channel sessionId requestSequence
    registry := ∅
    nextId
    stage := .waiting
    generation := none
    failures := Tally.new CallbackFailure.name
    registered := []
    calls := []
    outcomes := [] }

end Host

end Unitree
