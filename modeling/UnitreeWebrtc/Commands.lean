/-
Commands on their way to the data channel.

A command is accepted under the lifecycle lock of the service, put into the queue of
the last peer's worker, taken out on another task, checked against the generation and
the ready state, and sent.  A worker that stops early says nothing when its generation
is over, and raises a fault otherwise.  `Link` is the engine with what the service and
the session do to it, in the order that they do it: a reset comes before a close, and a
close or a reset before the next offer.

* `Link.step` — a send in three steps under the lock, resets, and the steps of the engine;
* `Link.Phased` — peers, generations and calls: when a command can be accepted;
* `Link.Served` — where every accepted command is;
* `Link.commands_in_order` — what is handed over is a prefix of what was accepted, and a
  worker that stops early has raised a fault.
-/
import UnitreeWebrtc.Transport
import UnitreeWebrtc.Supervision

namespace Unitree

def maxCommandBytes : ℕ := 1024 * 1024

def EngineCommand.length : EngineCommand → ℕ
  | .text message => message.utf8ByteSize
  | .binary bytes => bytes.length

/-- There is room in the queue of a worker that receives. -/
def RtcEngine.accepts (e : RtcEngine) (n : ℕ) : Bool :=
  match e.worker n with
  | none => false
  | some w => w.stage.receives ∧ w.queue.length < commandQueueCapacity

/-- The engine behind a service. -/
structure Link where
  engine : RtcEngine
  sessionId : ℕ
  /-- A session was started since the last `prepare_offer`, with no call running. -/
  fresh : Bool
  /-- The last `prepare_offer` returned `Ok`, and `apply_answer` can follow. -/
  offered : Bool
  /-- Peers for which `apply_answer` was called. -/
  answering : ℕ → Bool
  /-- The command of the call that has the lifecycle lock, past the check of the ready
  state, and the sender that it has cloned. -/
  sending : Option (EngineCommand × Option ℕ)
  /-- What was accepted, by the session id at that time. -/
  accepted : ℕ → List EngineCommand
  /-- The generations of the faults that the router took. -/
  taken : List ℕ

namespace Link

inductive Action where
  /-- `send_text` and `send_binary`, up to their check of the ready state. -/
  | send (command : EngineCommand)
  /-- They clone the sender. -/
  | cloneSender
  | trySend
  /-- `start_new_session`, or the handling of a fault. -/
  | bumpSession
  | prepareIngress
  | takeTransportError
  /-- A step of the engine that is none of these. -/
  | engine (a : RtcEngine.Action)

/-- The order of the session, and what the library promises: a data channel does not
open before an answer is applied. -/
def permits (l : Link) : RtcEngine.Action → Bool
  | .setIngressGeneration _ | .takeTransportError | .trySend _ _ => false
  | .fire n .channelOpened => l.answering n
  | .begin (.close _) | .begin (.prepareOffer _) => l.fresh
  | .begin (.applyAnswer _) => l.offered
  | _ => true

/-- A call starts. -/
def begin (l : Link) (call : Call) : Link :=
  if l.engine.call = none ∧ call.isFirst then
    match call with
    | .close _ => { l with offered := false, engine := l.engine.begin call }
    | .prepareOffer _ =>
      { l with fresh := false, offered := false, engine := l.engine.begin call }
    | .applyAnswer _ =>
      { l with
        offered := false
        answering := Function.update l.answering l.engine.current true
        engine := l.engine.begin call }
  else l

/-- The running call goes on. -/
def advance (l : Link) (ok : Bool) : Link :=
  { l with
    offered := l.offered || decide (l.engine.call = some (.prepareOffer .offering) ∧ ok = true)
    engine := l.engine.advance ok }

def engineStep (l : Link) : RtcEngine.Action → Link
  | .begin call => l.begin call
  | .advance ok => l.advance ok
  | a => { l with engine := l.engine.step a }

def step (l : Link) : Action → Link
  | .send command =>
    if l.sending = none ∧ command.length ≤ maxCommandBytes ∧ l.engine.readyState = .opened then
      { l with sending := some (command, none) }
    else l
  | .cloneSender =>
    match l.sending with
    | some (command, none) =>
      { l with sending := (l.engine.slot .commandTx).map fun n => (command, some n) }
    | _ => l
  | .trySend =>
    match l.sending with
    | some (command, some n) =>
      { l with
        sending := none
        engine := l.engine.trySend n command
        accepted :=
          if l.engine.accepts n then
            Function.update l.accepted l.sessionId (l.accepted l.sessionId ++ [command])
          else l.accepted }
    | _ => l
  | .bumpSession =>
    if l.sending = none then
      { l with
        sessionId := l.sessionId + 1
        engine := l.engine.setIngressGeneration (l.sessionId + 1)
        fresh := l.fresh || l.engine.call.isNone }
    else l
  | .prepareIngress =>
    if l.sending = none ∧ l.fresh = true ∧ l.engine.call = none then
      { l with engine := l.engine.setIngressGeneration l.sessionId }
    else l
  | .takeTransportError =>
    { l with
      taken := l.taken ++ l.engine.transportError.toList
      engine := l.engine.takeTransportError }
  | .engine a => if l.permits a then l.engineStep a else l

def init (sessionId : ℕ) : Link where
  engine := RtcEngine.new.setIngressGeneration sessionId
  sessionId
  fresh := false
  offered := false
  answering _ := false
  sending := none
  accepted _ := []
  taken := []

end Link

/-! ### What the engine leaves alone -/

namespace RtcEngine

variable {e e' : RtcEngine}

/-- The generation stays, a retained fault stays until the next one takes its place,
and no cell is opened. -/
structure Retains (e e' : RtcEngine) : Prop where
  generation : e'.ingressGeneration = e.ingressGeneration
  error : e'.transportError = e.transportError ∨ e'.transportError = some e.ingressGeneration
  cell : ∀ n, e'.cell n = e.cell n ∨ e'.cell n = .closed ∨ e'.cell n = .connecting

theorem Retains.of_same (h : (e'.ingressGeneration, e'.transportError, e'.cell) =
    (e.ingressGeneration, e.transportError, e.cell)) : Retains e e' := by
  simp only [Prod.mk.injEq] at h
  exact ⟨h.1, Or.inl h.2.1, fun n => Or.inl (congrFun h.2.2 n)⟩

theorem Retains.refl (e : RtcEngine) : Retains e e := .of_same rfl

theorem Retains.trans {e₁ e₂ e₃ : RtcEngine} (h : Retains e₁ e₂) (h' : Retains e₂ e₃) :
    Retains e₁ e₃ := by
  refine ⟨h'.generation.trans h.generation, ?_, fun n => ?_⟩
  · rcases h'.error with herror | herror
    · rw [herror]
      exact h.error
    · rw [herror, h.generation]
      exact Or.inr rfl
  · rcases h'.cell n with hcell | hcell
    · rw [hcell]
      exact h.cell n
    · exact Or.inr hcell

/-- A cell is closed, or set to `Connecting`. -/
theorem Retains.of_cell {n : ℕ} {state : RtcReadyState}
    (hstate : state = .closed ∨ state = .connecting)
    (hgeneration : e'.ingressGeneration = e.ingressGeneration)
    (herror : e'.transportError = e.transportError ∨
      e'.transportError = some e.ingressGeneration)
    (hcell : e'.cell = Function.update e.cell n state) : Retains e e' := by
  refine ⟨hgeneration, herror, fun m => ?_⟩
  by_cases hm : m = n
  · rw [hcell, hm, Function.update_self]
    exact Or.inr hstate
  · rw [hcell, Function.update_of_ne hm]
    exact Or.inl rfl

theorem abort_retains (e : RtcEngine) (n : ℕ) : Retains e (e.abort n) := by
  rw [abort]
  split <;> exact .of_same rfl

theorem vacate_retains (e : RtcEngine) (k : Slot) : Retains e (e.vacate k) := by
  rw [vacate]
  split <;> exact .of_same rfl

theorem recordTransportFault_retains (e : RtcEngine) (n : ℕ) (room : Bool) :
    Retains e (e.recordTransportFault n room) := by
  rw [recordTransportFault]
  split
  · exact .refl e
  next generation _ =>
    split
    · exact .refl e
    next hcurrent =>
      rw [not_not] at hcurrent
      exact .of_cell (Or.inl rfl) rfl (Or.inr (congrArg some hcurrent)) rfl

theorem workerStep_retains (e : RtcEngine) (n : ℕ) (ok room ends : Bool) :
    Retains e (e.workerStep n ok room ends) := by
  rw [workerStep]
  split
  · exact .refl e
  · split
    · split
      · exact .of_same rfl
      · split
        · exact .of_same rfl
        · split
          · exact .of_same rfl
          · exact .refl e
    · split <;> exact .of_same rfl
    · split <;> exact .of_same rfl
    · split <;> exact .of_same rfl
    · exact (recordTransportFault_retains e n room).trans (.of_same rfl)
    · exact .refl e

theorem cleanup_retains (e : RtcEngine) : Retains e e.cleanup := by
  rw [cleanup]
  split
  · exact .refl e
  next stage _ =>
    suffices h : Retains e (e.closeInner stage).1 from ⟨h.generation, h.error, h.cell⟩
    cases stage with
    | start | finish => exact .of_cell (Or.inl rfl) rfl (Or.inl rfl) rfl
    | dropSender | dropAudio => exact vacate_retains e _
    | takeTask =>
      rw [closeInner]
      split
      · exact .refl e
      next n _ =>
        have hempty : Retains e (e.empty .commandTask) := .of_same rfl
        exact hempty.trans (abort_retains _ n)
    | join n | takeResources =>
      rw [closeInner]
      split <;> exact .of_same rfl
    | takeChannel owned | takeConnection owned =>
      rw [closeInner.eq_def]
      dsimp only
      split
      · exact .refl e
      · exact .of_same rfl
      · dsimp only
        split <;> exact .of_same rfl
    | closeResources n | closeChannel n | closeConnection n | done => exact .of_same rfl

theorem run_retains (e : RtcEngine) (r : Run) : Retains e (e.run r).1 := by
  cases r with
  | enter => exact .of_same rfl
  | wait =>
    rw [run]
    split <;> exact .of_same rfl

theorem advance_retains (e : RtcEngine) (ok : Bool) : Retains e (e.advance ok) := by
  rw [advance.eq_def]
  split
  · exact .refl e
  next stage _ =>
    suffices h : Retains e (e.prepareOffer ok stage).1 from ⟨h.generation, h.error, h.cell⟩
    cases stage with
    | closing r =>
      rw [prepareOffer_closing]
      exact run_retains e r
    | failing r =>
      rw [prepareOffer_failing]
      exact run_retains e r
    | resetState => exact .of_cell (Or.inl rfl) rfl (Or.inl rfl) rfl
    | setConnecting => exact .of_cell (Or.inr rfl) rfl (Or.inl rfl) rfl
    | createPeer =>
      rw [prepareOffer]
      split <;> exact .of_same rfl
    | installCommands =>
      dsimp only [prepareOffer]
      split
      · have hspawn : Retains e ((e.store .commandTx).setWorker e.current .spawned) := .of_same rfl
        exact hspawn.trans (abort_retains _ e.current)
      · exact .of_same rfl
    | _ => exact .of_same rfl
  next =>
    split
    · exact .of_same rfl
    · split <;> exact .of_same rfl
  next => split <;> exact .of_same rfl
  next r _ =>
    have hrun := run_retains e r
    exact ⟨hrun.generation, hrun.error, hrun.cell⟩

theorem Retains.readyState (h : Retains e e') (hcurrent : e'.current = e.current) :
    e'.readyState = e.readyState ∨ e'.readyState = .closed ∨ e'.readyState = .connecting := by
  rw [RtcEngine.readyState, hcurrent]
  exact h.cell e.current

/-- The steps of the engine that a service does not make for its own reasons. -/
def Action.inner : Action → Bool
  | .setIngressGeneration _ | .takeTransportError | .trySend _ _ | .apply _ => false
  | _ => true

theorem step_retains (e : RtcEngine) {a : Action} (ha : a.inner = true) : Retains e (e.step a) := by
  cases a with
  | setIngressGeneration generation | takeTransportError | trySend n command | apply i =>
    exact absurd ha (by simp [Action.inner])
  | fire n event =>
    rw [step, fire]
    split
    · exact .refl e
    · split <;> exact .of_same rfl
  | worker n ok room ends => exact workerStep_retains e n ok room ends
  | begin call =>
    rw [step, begin]
    split <;> exact .of_same rfl
  | advance ok => exact advance_retains e ok
  | cancel =>
    rw [step, cancel]
    split
    · exact .refl e
    · split <;> exact .of_same rfl
  | cleanup => exact cleanup_retains e

end RtcEngine

/-! ### Peers, generations and calls -/

/-- `prepare_offer` before it makes the cell of its own peer. -/
def PrepareStage.early : PrepareStage → Bool
  | .closing _ | .resetState => true
  | _ => false

/-- Calls that follow a reset. -/
def Call.ends : Call → Bool
  | .close _ => true
  | .prepareOffer stage => stage.early
  | .applyAnswer _ => false

/-- Stages of `prepare_offer` that at most fill a slot or write to the new cell. -/
def PrepareStage.plain : PrepareStage → Bool
  | .setConnecting | .createPeer | .setup | .storeConnection | .storeChannel | .storeAudio => true
  | _ => false

theorem PrepareStage.plain_late {stage : PrepareStage} (h : stage.plain = true) :
    stage.inner = true ∧ stage.early = false ∧ stage ≠ .offering ∧ stage ≠ .loadGeneration := by
  cases stage with
  | setConnecting | createPeer | setup | storeConnection | storeChannel | storeAudio =>
    exact ⟨rfl, rfl, by simp, by simp⟩
  | _ => exact absurd h (by simp [plain])

/-- A plain stage leaves the peers, the workers and the close alone, and is not the last
one. -/
theorem RtcEngine.prepareOffer_plain (e : RtcEngine) (ok : Bool) {stage : PrepareStage}
    (h : stage.plain = true) :
    ((e.prepareOffer ok stage).1.current, (e.prepareOffer ok stage).1.captured,
        (e.prepareOffer ok stage).1.callbacks, (e.prepareOffer ok stage).1.closeTask,
        (e.prepareOffer ok stage).1.worker) =
      (e.current, e.captured, e.callbacks, e.closeTask, e.worker) ∧
    ∃ stage', (e.prepareOffer ok stage).2 = some stage' ∧ stage'.early = false ∧
      stage' ≠ .offering ∧ (stage = .setConnecting → stage' = .loadGeneration) := by
  cases stage with
  | setConnecting => exact ⟨rfl, _, rfl, rfl, by simp, fun _ => rfl⟩
  | storeConnection | storeChannel | storeAudio => exact ⟨rfl, _, rfl, rfl, by simp, by simp⟩
  | createPeer | setup =>
    cases ok with
    | true => exact ⟨rfl, _, rfl, rfl, by simp, by simp⟩
    | false => exact ⟨rfl, _, rfl, rfl, by simp, by simp⟩
  | _ => exact absurd h (by simp [PrepareStage.plain])

namespace Link

variable {l l' : Link}

/-- The last peer is not of the current generation. -/
def Stale (l : Link) : Prop :=
  ∀ g, l.engine.captured l.engine.current = some g → g < l.engine.ingressGeneration

/-- No command can come before the next offer. -/
def Quiet (l : Link) : Prop :=
  l.answering l.engine.current = false ∧ l.offered = false ∧
    l.engine.call ≠ some (.prepareOffer .offering)

structure Phased (l : Link) : Prop where
  session : l.engine.ingressGeneration = l.sessionId
  below : ∀ n g, l.engine.captured n = some g → g ≤ l.engine.ingressGeneration
  rising : ∀ n m g g', n < m → l.engine.captured n = some g → l.engine.captured m = some g' → g < g'
  past : ∀ n g, n < l.engine.current → l.engine.captured n = some g →
    g < l.engine.ingressGeneration
  stale : l.fresh = true ∨ (∃ call, l.engine.call = some call ∧ call.ends = true) → l.Stale
  preparing : ∀ stage, l.engine.call = some (.prepareOffer stage) →
    l.fresh = false ∧ l.offered = false ∧
      (stage.early = false → l.answering l.engine.current = false)
  beyond : ∀ n, l.engine.current < n → l.answering n = false
  callbacks : ∀ n, (n, .channelOpened) ∈ l.engine.callbacks → l.answering n = true
  opened : l.engine.readyState = .opened ∨ l.engine.readyState = .disconnected →
    l.answering l.engine.current = true
  closing : l.engine.closeTask ≠ none → l.Stale ∨ l.Quiet

theorem setIngressGeneration_generation (e : RtcEngine) (generation : ℕ) :
    (e.setIngressGeneration generation).ingressGeneration = generation := by
  rw [RtcEngine.setIngressGeneration]
  dsimp only
  split
  · rfl
  next h => exact not_not.mp h

theorem setIngressGeneration_same (e : RtcEngine) (generation : ℕ) :
    RtcEngine.SamePeers e (e.setIngressGeneration generation) := by
  rw [RtcEngine.setIngressGeneration]
  dsimp only
  split <;> exact ⟨rfl, rfl, rfl, rfl⟩

theorem init_held (sessionId : ℕ) : (init sessionId).engine.Held :=
  RtcEngine.step_held _ (.setIngressGeneration sessionId) RtcEngine.new_held

theorem init_phased (sessionId : ℕ) : (init sessionId).Phased := by
  obtain ⟨-, hcaptured, hcallbacks, hcall⟩ := setIngressGeneration_same .new sessionId
  have hout := RtcEngine.setIngressGeneration_outside .new sessionId
  have hnone : ∀ n, (init sessionId).engine.captured n = none := congrFun hcaptured
  refine ⟨setIngressGeneration_generation .new sessionId, fun n g hg => ?_, fun n m g g' _ hg => ?_,
    fun n g _ hg => ?_, fun _ g hg => ?_, fun stage hs => ?_, fun _ _ => rfl, fun n hn => ?_,
    fun ho => ?_, fun hc => absurd hout.closeTask hc⟩
  · exact absurd ((hnone n).symm.trans hg) (by simp)
  · exact absurd ((hnone n).symm.trans hg) (by simp)
  · exact absurd ((hnone n).symm.trans hg) (by simp)
  · exact absurd ((hnone _).symm.trans hg) (by simp)
  · exact absurd (hcall.symm.trans hs) (by simp [RtcEngine.new])
  · have hmem : (n, RtcStateEvent.channelOpened) ∈ RtcEngine.new.callbacks := hcallbacks ▸ hn
    exact absurd hmem (by simp [RtcEngine.new])
  · exact absurd ((hnone _).symm.trans ((init_held sessionId).sound.opened ho).1) (by simp)

/-- The last peer is the same, and the call may have gone on. -/
theorem Phased.calling (h : l.Phased)
    (hghosts : (l'.sessionId, l'.fresh, l'.answering) = (l.sessionId, l.fresh, l.answering))
    (hgeneration : l'.engine.ingressGeneration = l.engine.ingressGeneration)
    (hpeers : (l'.engine.current, l'.engine.captured) = (l.engine.current, l.engine.captured))
    (hcallbacks : ∀ x ∈ l'.engine.callbacks, x ∈ l.engine.callbacks)
    (hcell : l'.engine.readyState = l.engine.readyState ∨ l'.engine.readyState = .closed ∨
      l'.engine.readyState = .connecting)
    (hends : ∀ call, l'.engine.call = some call → call.ends = true → l.Stale)
    (hpreparing : ∀ stage, l'.engine.call = some (.prepareOffer stage) →
      l.fresh = false ∧ l'.offered = false ∧
        (stage.early = false → l.answering l.engine.current = false))
    (hclosing : l'.engine.closeTask ≠ none → l.Stale ∨ l'.Quiet) : l'.Phased := by
  simp only [Prod.mk.injEq] at hghosts hpeers
  obtain ⟨hsession, hfresh, hanswering⟩ := hghosts
  obtain ⟨hcurrent, hcaptured⟩ := hpeers
  have hstale : l.Stale → l'.Stale := by
    rw [Stale, Stale, hcaptured, hcurrent, hgeneration]
    exact id
  refine ⟨?_, ?_, ?_, ?_, ?_, ?_, ?_, ?_, ?_, fun hc => (hclosing hc).imp_left hstale⟩
  · rw [hgeneration, hsession]
    exact h.session
  · rw [hcaptured, hgeneration]
    exact h.below
  · rw [hcaptured]
    exact h.rising
  · rw [hcaptured, hcurrent, hgeneration]
    exact h.past
  · rw [hfresh]
    rintro (hf | ⟨call, hcall, hend⟩)
    · exact hstale (h.stale (Or.inl hf))
    · exact hstale (hends call hcall hend)
  · rw [hfresh, hanswering, hcurrent]
    exact hpreparing
  · rw [hcurrent, hanswering]
    exact h.beyond
  · rw [hanswering]
    exact fun n hn => h.callbacks n (hcallbacks _ hn)
  · rw [hanswering, hcurrent]
    intro ho
    rcases hcell with hc | hc | hc
    · rw [hc] at ho
      exact h.opened ho
    · rw [hc] at ho
      exact absurd ho (by simp)
    · rw [hc] at ho
      exact absurd ho (by simp)

theorem Quiet.frame (h : l.Quiet) (hghosts : (l'.offered, l'.answering) = (l.offered, l.answering))
    (hsame : RtcEngine.SamePeers l.engine l'.engine) : l'.Quiet := by
  simp only [Prod.mk.injEq] at hghosts
  rw [Quiet, hghosts.1, hghosts.2, hsame.current, hsame.call]
  exact h

/-- Peers and calls are the same. -/
theorem Phased.frame (h : l.Phased)
    (hghosts : (l'.sessionId, l'.fresh, l'.offered, l'.answering) =
      (l.sessionId, l.fresh, l.offered, l.answering))
    (hgeneration : l'.engine.ingressGeneration = l.engine.ingressGeneration)
    (hsame : RtcEngine.SamePeers l.engine l'.engine)
    (hcell : l'.engine.readyState = l.engine.readyState ∨ l'.engine.readyState = .closed ∨
      l'.engine.readyState = .connecting)
    (hclose : l'.engine.closeTask ≠ none → l.engine.closeTask ≠ none) : l'.Phased := by
  simp only [Prod.mk.injEq] at hghosts
  obtain ⟨hsession, hfresh, hoffered, hanswering⟩ := hghosts
  refine h.calling (by rw [hsession, hfresh, hanswering]) hgeneration
    (by rw [hsame.current, hsame.captured]) (by rw [hsame.callbacks]; exact fun x hx => hx) hcell
    (fun call hcall hend => ?_) (fun stage hstage => ?_) (fun hc => ?_)
  · rw [hsame.call] at hcall
    exact h.stale (Or.inr ⟨call, hcall, hend⟩)
  · rw [hsame.call] at hstage
    rw [hoffered]
    exact h.preparing stage hstage
  · exact (h.closing (hclose hc)).imp_right (·.frame (by rw [hoffered, hanswering]) hsame)

/-- A command worker. -/
theorem Phased.worker (h : l.Phased) (n : ℕ) (ok room ends : Bool) :
    Phased { l with engine := l.engine.workerStep n ok room ends } := by
  have hsame := RtcEngine.workerStep_same l.engine n ok room ends
  have hretains := RtcEngine.workerStep_retains l.engine n ok room ends
  have hout := RtcEngine.workerStep_outside l.engine n ok room ends
  exact h.frame rfl hretains.generation hsame (hretains.readyState hsame.current)
    (fun hc => hout.closeTask ▸ hc)

theorem cleanup_closeTask {e : RtcEngine} (h : e.cleanup.closeTask ≠ none) :
    e.closeTask ≠ none := by
  intro hnone
  refine h ?_
  rw [RtcEngine.cleanup.eq_def, hnone]
  exact hnone

theorem Phased.cleanup (h : l.Phased) : Phased { l with engine := l.engine.cleanup } := by
  have hsame := RtcEngine.cleanup_same l.engine
  have hretains := RtcEngine.cleanup_retains l.engine
  exact h.frame rfl hretains.generation hsame (hretains.readyState hsame.current) cleanup_closeTask

theorem Phased.cancel (h : l.Phased) : Phased { l with engine := l.engine.cancel } := by
  rw [RtcEngine.cancel.eq_def]
  split
  · exact h
  · split
    · refine h.calling rfl rfl rfl (fun x hx => hx) (Or.inl rfl) (fun call hcall => ?_)
        (fun stage hstage => ?_) (fun hc => ?_)
      · exact absurd hcall (by simp)
      · exact absurd hstage (by simp)
      · exact (h.closing hc).imp_right fun hq => ⟨hq.1, hq.2.1, by simp⟩
    · exact h

/-- A callback starts.  The channel of a peer opens after its answer. -/
theorem Phased.fire (h : l.Phased) {n : ℕ} {event : RtcStateEvent}
    (hpermits : l.permits (.fire n event) = true) :
    Phased { l with engine := l.engine.fire n event } := by
  rw [RtcEngine.fire.eq_def]
  split
  · exact h
  · split
    · exact h.frame rfl rfl ⟨rfl, rfl, rfl, rfl⟩ (Or.inl rfl) id
    · refine ⟨h.session, h.below, h.rising, h.past, h.stale, h.preparing, h.beyond, fun m hm => ?_,
        h.opened, h.closing⟩
      rcases List.mem_append.mp hm with hm | hm
      · exact h.callbacks m hm
      · obtain ⟨rfl, rfl⟩ := Prod.mk.inj (List.mem_singleton.mp hm)
        exact hpermits

/-- A callback writes. -/
theorem Phased.apply (h : l.Phased) (i : ℕ) : Phased { l with engine := l.engine.apply i } := by
  rw [RtcEngine.apply.eq_def]
  split
  · exact h
  next n event hi =>
    have hmem := List.mem_of_getElem? hi
    refine ⟨h.session, h.below, h.rising, h.past, h.stale, h.preparing, h.beyond,
      fun m hm => h.callbacks m (List.mem_of_mem_eraseIdx hm), fun ho => ?_, h.closing⟩
    change Function.update l.engine.cell n _ l.engine.current = _ ∨
      Function.update l.engine.cell n _ l.engine.current = _ at ho
    show l.answering l.engine.current = true
    by_cases hn : n = l.engine.current
    · subst hn
      rw [Function.update_self] at ho
      rcases Transport.applyEvent_opened ho with ⟨-, rfl⟩ | ⟨hopen, -⟩
      · exact h.callbacks _ hmem
      · exact h.opened hopen
    · rw [Function.update_of_ne (Ne.symm hn)] at ho
      exact h.opened ho

/-- A call starts, after a reset or after an offer. -/
theorem Phased.begin (h : l.Phased) {call : Call} (hpermits : l.permits (.begin call) = true) :
    (l.begin call).Phased := by
  rw [Link.begin.eq_def]
  split
  next hfirst =>
    have hbegin : l.engine.begin call = { l.engine with call := some call } := if_pos hfirst
    cases call with
    | close r =>
      rw [hbegin]
      have hstale := h.stale (Or.inl hpermits)
      refine h.calling rfl rfl rfl (fun x hx => hx) (Or.inl rfl) (fun _ _ _ => hstale)
        (fun stage hstage => ?_) (fun _ => Or.inl hstale)
      exact absurd (Option.some_inj.mp hstage) (by simp)
    | prepareOffer stage =>
      rw [hbegin]
      have hstale := h.stale (Or.inl hpermits)
      refine ⟨h.session, h.below, h.rising, h.past, fun _ => hstale, fun stage' hstage => ?_,
        h.beyond, h.callbacks, h.opened, fun _ => Or.inl hstale⟩
      obtain rfl : stage = stage' := by simpa using hstage
      refine ⟨rfl, rfl, fun hearly => ?_⟩
      have hclosing : stage = .closing .enter := by simpa [Call.isFirst] using hfirst.2
      rw [hclosing] at hearly
      exact absurd hearly (by simp [PrepareStage.early])
    | applyAnswer described =>
      rw [hbegin]
      have hanswers : ∀ n, l.answering n = true →
          Function.update l.answering l.engine.current true n = true := by
        intro n hn
        rw [Function.update_apply]
        split
        · rfl
        · exact hn
      refine ⟨h.session, h.below, h.rising, h.past, fun hs => ?_, fun stage hstage => ?_,
        fun n hn => ?_, fun n hn => hanswers n (h.callbacks n hn), fun _ => ?_, fun hc => ?_⟩
      · rcases hs with hf | ⟨call, hcall, hend⟩
        · exact h.stale (Or.inl hf)
        · rw [← Option.some_inj.mp hcall] at hend
          exact absurd hend (by simp [Call.ends])
      · exact absurd (Option.some_inj.mp hstage) (by simp)
      · exact (Function.update_of_ne (Nat.ne_of_gt hn) ..).trans (h.beyond n hn)
      · exact Function.update_self ..
      · rcases h.closing hc with hstale | hquiet
        · exact Or.inl hstale
        · exact absurd (hquiet.2.1.symm.trans hpermits) (by simp)
  next => exact h

/-- `prepare_offer` goes on, past its first two stages. -/
theorem Phased.inner (h : l.Phased) (hheld : l.engine.Held) {stage : PrepareStage}
    (hcall : l.engine.call = some (.prepareOffer stage)) (hin : stage.inner = true)
    (hearly : stage.early = false) (e' : RtcEngine) (offered : Bool) (call : Option Call)
    (hgeneration : e'.ingressGeneration = l.engine.ingressGeneration)
    (hpeers : (e'.current, e'.captured, e'.callbacks, e'.closeTask) =
      (l.engine.current, l.engine.captured, l.engine.callbacks, l.engine.closeTask))
    (hcell : e'.readyState = l.engine.readyState ∨ e'.readyState = .closed ∨
      e'.readyState = .connecting)
    (hnext : call = none ∨ offered = false ∧
      ∃ stage', call = some (.prepareOffer stage') ∧ stage'.early = false) :
    Phased { l with offered, engine := { e' with call } } := by
  simp only [Prod.mk.injEq] at hpeers
  obtain ⟨hcurrent, hcaptured, hcallbacks, hclose⟩ := hpeers
  obtain ⟨hfresh, hoffered, hanswering⟩ := h.preparing stage hcall
  refine h.calling rfl hgeneration (congrArg₂ Prod.mk hcurrent hcaptured)
    (fun x hx => hcallbacks ▸ hx) hcell (fun call' hcall' hend => ?_) (fun stage' hstage' => ?_)
    (fun hc => ?_)
  · change call = some call' at hcall'
    rcases hnext with hnone | ⟨-, stage', hsome, hlate⟩
    · exact absurd (hnone.symm.trans hcall') (by simp)
    · rw [← Option.some_inj.mp (hsome.symm.trans hcall')] at hend
      exact absurd (hlate.symm.trans hend) (by simp)
  · change call = some _ at hstage'
    rcases hnext with hnone | ⟨hnot, -, -, -⟩
    · exact absurd (hnone.symm.trans hstage') (by simp)
    · exact ⟨hfresh, hnot, fun _ => hanswering hearly⟩
  · change e'.closeTask ≠ none at hc
    rw [hclose, hheld.tidy.inner stage hcall hin] at hc
    exact absurd rfl hc

/-- The cell of the next peer. -/
theorem Phased.resetState (h : l.Phased) (hheld : l.engine.Held)
    (hcall : l.engine.call = some (.prepareOffer .resetState)) :
    Phased { l with engine := { l.engine with
      current := l.engine.current + 1
      cell := Function.update l.engine.cell (l.engine.current + 1) .closed
      call := some (.prepareOffer .setConnecting) } } := by
  have hstale := h.stale (Or.inr ⟨_, hcall, rfl⟩)
  have hnone := hheld.armed.fresh _ (Nat.lt_succ_self l.engine.current)
  obtain ⟨hfresh, hoffered, -⟩ := h.preparing _ hcall
  refine ⟨h.session, h.below, h.rising, fun n g hn hg => ?_, fun _ g hg => ?_,
    fun stage hstage => ?_,
    fun n hn => h.beyond n (Nat.lt_of_succ_lt hn), h.callbacks, fun ho => ?_, fun hc => ?_⟩
  · rcases Nat.lt_succ_iff_lt_or_eq.mp hn with hn | rfl
    · exact h.past n g hn hg
    · exact hstale g hg
  · exact absurd (hnone.symm.trans hg) (by simp)
  · exact ⟨hfresh, hoffered, fun _ => h.beyond _ (Nat.lt_succ_self _)⟩
  · change Function.update l.engine.cell (l.engine.current + 1) _ (l.engine.current + 1) = _ ∨
      Function.update l.engine.cell (l.engine.current + 1) _ (l.engine.current + 1) = _ at ho
    rw [Function.update_self] at ho
    exact absurd ho (by simp)
  · exact absurd (hheld.tidy.inner _ hcall rfl) hc

/-- The peer captures the generation. -/
theorem Phased.loadGeneration (h : l.Phased) (hheld : l.engine.Held)
    (hcall : l.engine.call = some (.prepareOffer .loadGeneration)) :
    Phased { l with engine := { l.engine with
      captured := Function.update l.engine.captured l.engine.current
        (some l.engine.ingressGeneration)
      call := some (.prepareOffer .createPeer) } } := by
  obtain ⟨hfresh, hoffered, hanswering⟩ := h.preparing _ hcall
  have hat : ∀ n g, Function.update l.engine.captured l.engine.current
      (some l.engine.ingressGeneration) n = some g →
        n = l.engine.current ∧ g = l.engine.ingressGeneration ∨
        n < l.engine.current ∧ l.engine.captured n = some g := by
    intro n g hg
    rcases Table.of_update hg with hnew | ⟨hne, hold⟩
    · exact Or.inl hnew
    · rcases lt_or_gt_of_ne hne with hn | hn
      · exact Or.inr ⟨hn, hold⟩
      · exact absurd ((hheld.armed.fresh n hn).symm.trans hold) (by simp)
  refine ⟨h.session, fun n g hg => ?_, fun n m g g' hnm hg hg' => ?_, fun n g hn hg => ?_,
    fun hs => ?_, fun stage hstage => ⟨hfresh, hoffered, fun _ => hanswering rfl⟩, h.beyond,
    h.callbacks, h.opened, fun hc => absurd (hheld.tidy.inner _ hcall rfl) hc⟩
  · rcases hat n g hg with ⟨-, rfl⟩ | ⟨-, hg⟩
    · exact le_refl _
    · exact h.below n g hg
  · rcases hat m g' hg' with ⟨rfl, rfl⟩ | ⟨hm, hg'⟩
    · rcases hat n g hg with ⟨rfl, -⟩ | ⟨hn, hg⟩
      · exact absurd hnm (lt_irrefl _)
      · exact h.past n g hn hg
    · rcases hat n g hg with ⟨rfl, -⟩ | ⟨-, hg⟩
      · exact absurd hnm hm.le.not_gt
      · exact h.rising n m g g' hnm hg hg'
  · rcases hat n g hg with ⟨rfl, -⟩ | ⟨hn, hg⟩
    · exact absurd hn (lt_irrefl _)
    · exact h.past n g hn hg
  · rcases hs with hf | ⟨call, hcreate, hend⟩
    · exact absurd (hfresh.symm.trans hf) (by simp)
    · rw [← Option.some_inj.mp hcreate] at hend
      exact absurd hend (by simp [Call.ends, PrepareStage.early])

/-- Waiting for a close, in `close` or at the start of `prepare_offer`. -/
theorem Phased.waiting (h : l.Phased) (hstale : l.Stale) (r : Run) (call : Option Call)
    (hends : ∀ c, call = some c → c.ends = true)
    (hpreparing : ∀ stage, call = some (.prepareOffer stage) →
      l.fresh = false ∧ l.offered = false) :
    Phased { l with engine := { (l.engine.run r).1 with call } } := by
  have hsame := RtcEngine.run_same l.engine r
  have hretains := RtcEngine.run_retains l.engine r
  refine h.calling rfl hretains.generation (congrArg₂ Prod.mk hsame.current hsame.captured)
    (fun x hx => hsame.callbacks ▸ hx) (hretains.readyState hsame.current) (fun _ _ _ => hstale)
    (fun stage hstage => ?_) (fun _ => Or.inl hstale)
  obtain ⟨hfresh, hoffered⟩ := hpreparing stage hstage
  refine ⟨hfresh, hoffered, fun hlate => ?_⟩
  exact absurd (hlate.symm.trans (hends _ hstage)) (by simp)

/-- Waiting for the close after a failure. -/
theorem Phased.failing (h : l.Phased) {r : Run}
    (hcall : l.engine.call = some (.prepareOffer (.failing r))) (call : Option Call)
    (hnext : call = none ∨ ∃ r', call = some (.prepareOffer (.failing r'))) :
    Phased { l with engine := { (l.engine.run r).1 with call } } := by
  have hsame := RtcEngine.run_same l.engine r
  have hretains := RtcEngine.run_retains l.engine r
  obtain ⟨hfresh, hoffered, hanswering⟩ := h.preparing _ hcall
  refine h.calling rfl hretains.generation (congrArg₂ Prod.mk hsame.current hsame.captured)
    (fun x hx => hsame.callbacks ▸ hx) (hretains.readyState hsame.current) (fun c hc hend => ?_)
    (fun stage hstage => ⟨hfresh, hoffered, fun _ => hanswering rfl⟩)
    (fun _ => Or.inr ⟨?_, hoffered, ?_⟩)
  · change call = some c at hc
    rcases hnext with hnone | ⟨r', hsome⟩
    · exact absurd (hnone.symm.trans hc) (by simp)
    · rw [← Option.some_inj.mp (hsome.symm.trans hc)] at hend
      exact absurd hend (by simp [Call.ends, PrepareStage.early])
  · show l.answering (l.engine.run r).1.current = false
    rw [hsame.current]
    exact hanswering rfl
  · show call ≠ some (.prepareOffer .offering)
    rcases hnext with hnone | ⟨r', hsome⟩
    · rw [hnone]
      simp
    · rw [hsome]
      simp

theorem advance_offered {ok : Bool} (h : l.engine.call ≠ some (.prepareOffer .offering)) :
    l.advance ok = { l with engine := l.engine.advance ok } := by
  rw [Link.advance, decide_eq_false fun hc => h hc.1, Bool.or_false]

theorem advance_next {stage : PrepareStage} (hcall : l.engine.call = some (.prepareOffer stage))
    (hne : stage ≠ .offering) (ok : Bool) :
    l.advance ok = { l with engine := { (l.engine.prepareOffer ok stage).1 with
      call := (l.engine.prepareOffer ok stage).2.map .prepareOffer } } := by
  rw [advance_offered (by simp [hcall, hne]), RtcEngine.advance_prepareOffer hcall]

/-- `prepare_offer` goes on from a plain stage. -/
theorem Phased.plain (h : l.Phased) (hheld : l.engine.Held) {stage : PrepareStage}
    (hcall : l.engine.call = some (.prepareOffer stage)) (hplain : stage.plain = true)
    (ok : Bool) : (l.advance ok).Phased := by
  obtain ⟨hin, hearly, hne, -⟩ := PrepareStage.plain_late hplain
  obtain ⟨hsame, stage', hnext, hlate, -⟩ := l.engine.prepareOffer_plain ok hplain
  have hretains := RtcEngine.advance_retains l.engine ok
  rw [RtcEngine.advance_prepareOffer hcall] at hretains
  simp only [Prod.mk.injEq] at hsame
  obtain ⟨hcurrent, hcaptured, hcallbacks, hclose, -⟩ := hsame
  rw [advance_next hcall hne, hnext]
  exact h.inner hheld hcall hin hearly (l.engine.prepareOffer ok stage).1 l.offered _
    hretains.generation (by rw [hcurrent, hcaptured, hcallbacks, hclose])
    (hretains.readyState hcurrent)
    (Or.inr ⟨(h.preparing stage hcall).2.1, stage', rfl, hlate⟩)

/-- The running call goes on. -/
theorem Phased.advance (h : l.Phased) (hheld : l.engine.Held) (ok : Bool) :
    (l.advance ok).Phased := by
  rcases hcall : l.engine.call with _ | call
  · rw [advance_offered (by simp [hcall]), RtcEngine.advance.eq_def, hcall]
    exact h
  cases call with
  | prepareOffer stage =>
    -- While the offer is prepared it has not been handed out.
    obtain ⟨hfresh, hoffered, -⟩ := h.preparing stage hcall
    cases stage with
    | offering =>
      rw [Link.advance, RtcEngine.advance_prepareOffer hcall]
      cases ok with
      | true =>
        -- The offer is handed out: from here on an answer can come.
        exact h.inner hheld hcall rfl rfl l.engine _ none rfl rfl (Or.inl rfl) (Or.inl rfl)
      | false =>
        rw [decide_eq_false (by simp), Bool.or_false]
        exact h.inner hheld hcall rfl rfl l.engine l.offered _ rfl rfl (Or.inl rfl)
          (Or.inr ⟨hoffered, .failing .enter, rfl, rfl⟩)
    | closing r =>
      rw [advance_next hcall (by simp), RtcEngine.prepareOffer_closing]
      have hstale := h.stale (Or.inr ⟨_, hcall, rfl⟩)
      refine h.waiting hstale r _ (fun c hc => ?_) fun _ _ => ⟨hfresh, hoffered⟩
      rw [← Option.some_inj.mp hc]
      cases (l.engine.run r).2 with
      | none => rfl
      | some r' => rfl
    | failing r =>
      rw [advance_next hcall (by simp), RtcEngine.prepareOffer_failing]
      refine h.failing hcall _ ?_
      cases (l.engine.run r).2 with
      | none => exact Or.inl rfl
      | some r' => exact Or.inr ⟨r', rfl⟩
    | resetState =>
      rw [advance_next hcall (by simp)]
      exact h.resetState hheld hcall
    | loadGeneration =>
      rw [advance_next hcall (by simp)]
      exact h.loadGeneration hheld hcall
    | installCommands =>
      rw [advance_next hcall (by simp), RtcEngine.prepareOffer_installCommands hheld.tidy hcall]
      exact h.inner hheld hcall rfl rfl _ l.offered _ rfl rfl (Or.inl rfl)
        (Or.inr ⟨hoffered, .offering, rfl, rfl⟩)
    | setConnecting | createPeer | setup | storeConnection | storeChannel | storeAudio =>
      exact h.plain hheld hcall rfl ok
  | applyAnswer described =>
    rw [advance_offered (by simp [hcall])]
    -- No stage of the answer changes who the current peer is.
    have hanswers : ∀ (call : Option Call) (answered : ℕ → Bool),
        (call = none ∨ call = some (.applyAnswer true)) →
        Phased { l with engine := { l.engine with call, answered } } := by
      intro call answered hnext
      refine h.calling rfl rfl rfl (fun x hx => hx) (Or.inl rfl) (fun c hc hend => ?_)
        (fun stage hstage => ?_) (fun hc => ?_)
      · rcases hnext with rfl | rfl
        · exact absurd hc (by simp)
        · rw [← Option.some_inj.mp hc] at hend
          exact absurd hend (by simp [Call.ends])
      · rcases hnext with rfl | rfl
        · exact absurd hstage (by simp)
        · exact absurd (Option.some_inj.mp hstage) (by simp)
      · refine (h.closing hc).imp_right fun hq => ⟨hq.1, hq.2.1, ?_⟩
        show call ≠ some (.prepareOffer .offering)
        rcases hnext with rfl | rfl <;> simp
    rw [RtcEngine.advance.eq_def, hcall]
    cases described with
    | false =>
      dsimp only
      split
      · exact hanswers none _ (Or.inl rfl)
      · split
        · exact hanswers _ _ (Or.inr rfl)
        · exact hanswers none _ (Or.inl rfl)
    | true =>
      dsimp only
      split
      · exact hanswers none _ (Or.inl rfl)
      · exact h
  | close r =>
    rw [advance_offered (by simp [hcall]), RtcEngine.advance_close hcall]
    have hstale := h.stale (Or.inr ⟨_, hcall, rfl⟩)
    refine h.waiting hstale r _ (fun c hc => ?_) (fun stage hstage => ?_)
    · obtain ⟨r', -, rfl⟩ := Option.map_eq_some_iff.mp hc
      rfl
    · obtain ⟨r', -, hc⟩ := Option.map_eq_some_iff.mp hstage
      exact absurd hc (by simp)

/-- A reset leaves the last peer behind. -/
theorem Phased.bumpSession (h : l.Phased) (hheld : l.engine.Held) :
    Phased { l with
      sessionId := l.sessionId + 1
      engine := l.engine.setIngressGeneration (l.sessionId + 1)
      fresh := l.fresh || l.engine.call.isNone } := by
  obtain ⟨hcurrent, hcaptured, hcallbacks, hcall⟩ :=
    setIngressGeneration_same l.engine (l.sessionId + 1)
  have hgeneration := setIngressGeneration_generation l.engine (l.sessionId + 1)
  have hbelow : ∀ n g, (l.engine.setIngressGeneration (l.sessionId + 1)).captured n = some g →
      g < (l.engine.setIngressGeneration (l.sessionId + 1)).ingressGeneration := by
    rw [hcaptured, hgeneration, ← h.session]
    exact fun n g hg => Nat.lt_succ_of_le (h.below n g hg)
  have hheld' := RtcEngine.step_held l.engine (.setIngressGeneration (l.sessionId + 1)) hheld
  refine ⟨hgeneration, fun n g hg => (hbelow n g hg).le, ?_, fun n g _ => hbelow n g,
    fun _ => hbelow _, fun stage hstage => ?_, ?_, ?_, fun ho => ?_, fun _ => Or.inl (hbelow _)⟩
  · show ∀ n m g g', n < m → (l.engine.setIngressGeneration (l.sessionId + 1)).captured n = some g →
      (l.engine.setIngressGeneration (l.sessionId + 1)).captured m = some g' → g < g'
    rw [hcaptured]
    exact h.rising
  · change (l.engine.setIngressGeneration (l.sessionId + 1)).call = _ at hstage
    rw [hcall] at hstage
    show (l.fresh || l.engine.call.isNone) = false ∧ l.offered = false ∧ (stage.early = false →
      l.answering (l.engine.setIngressGeneration (l.sessionId + 1)).current = false)
    rw [hstage, hcurrent]
    obtain ⟨hfresh, hrest⟩ := h.preparing stage hstage
    exact ⟨by simp [hfresh], hrest⟩
  · show ∀ n, (l.engine.setIngressGeneration (l.sessionId + 1)).current < n → l.answering n = false
    rw [hcurrent]
    exact h.beyond
  · show ∀ n, (n, .channelOpened) ∈ (l.engine.setIngressGeneration (l.sessionId + 1)).callbacks →
      l.answering n = true
    rw [hcallbacks]
    exact h.callbacks
  · -- an open cell would be of the new generation
    have hopen := (hheld'.sound.opened ho).1
    exact absurd rfl (hbelow _ _ hopen).ne

theorem engineStep_engine (l : Link) (a : RtcEngine.Action) :
    (l.engineStep a).engine = l.engine.step a := by
  cases a with
  | begin call =>
    rw [engineStep, Link.begin.eq_def]
    split
    · cases call <;> rfl
    next hfirst => exact (if_neg hfirst).symm
  | _ => rfl

theorem step_engine (l : Link) (a : Action) :
    (l.step a).engine = l.engine ∨ ∃ b, (l.step a).engine = l.engine.step b := by
  cases a with
  | send command =>
    rw [step]
    split <;> exact Or.inl rfl
  | cloneSender =>
    rw [step.eq_def]
    dsimp only
    split <;> exact Or.inl rfl
  | trySend =>
    rw [step.eq_def]
    dsimp only
    split
    next command n _ => exact Or.inr ⟨.trySend n command, rfl⟩
    next => exact Or.inl rfl
  | bumpSession =>
    rw [step]
    split
    · exact Or.inr ⟨.setIngressGeneration _, rfl⟩
    · exact Or.inl rfl
  | prepareIngress =>
    rw [step]
    split
    · exact Or.inr ⟨.setIngressGeneration _, rfl⟩
    · exact Or.inl rfl
  | takeTransportError => exact Or.inr ⟨.takeTransportError, rfl⟩
  | engine a =>
    rw [step]
    split
    · exact Or.inr ⟨a, engineStep_engine l a⟩
    · exact Or.inl rfl

theorem step_held (h : l.engine.Held) (a : Action) : (l.step a).engine.Held := by
  rcases step_engine l a with hsame | ⟨b, hb⟩
  · rw [hsame]
    exact h
  · rw [hb]
    exact RtcEngine.step_held l.engine b h

theorem trySend_same (e : RtcEngine) (n : ℕ) (command : EngineCommand) :
    RtcEngine.SamePeers e (e.trySend n command) ∧ RtcEngine.Retains e (e.trySend n command) := by
  rw [RtcEngine.trySend]
  split
  · exact ⟨.refl e, .refl e⟩
  · split
    · exact ⟨RtcEngine.setWorker_same e n _, .of_same rfl⟩
    · exact ⟨.refl e, .refl e⟩

theorem step_phased (h : l.Phased) (hheld : l.engine.Held) (a : Action) : (l.step a).Phased := by
  have hquiet : ∀ sending, Phased { l with sending } := fun sending =>
    h.frame rfl rfl (RtcEngine.SamePeers.refl _) (Or.inl rfl) id
  cases a with
  | send command =>
    rw [step]
    split
    · exact hquiet _
    · exact h
  | cloneSender =>
    rw [step.eq_def]
    dsimp only
    split
    · exact hquiet _
    · exact h
  | trySend =>
    rw [step.eq_def]
    dsimp only
    split
    next command n _ =>
      obtain ⟨hsame, hretains⟩ := trySend_same l.engine n command
      have hclose := (RtcEngine.trySend_outside l.engine n command).closeTask
      exact h.frame rfl hretains.generation hsame (hretains.readyState hsame.current)
        (fun hc => hclose ▸ hc)
    next => exact h
  | bumpSession =>
    rw [step]
    split
    · exact h.bumpSession hheld
    · exact h
  | prepareIngress =>
    rw [step]
    split
    -- The generation has followed the session id, so that the engine only clears the fault.
    · have hsame : l.engine.setIngressGeneration l.sessionId =
          { l.engine with transportError := none } := by
        rw [RtcEngine.setIngressGeneration]
        exact if_neg (not_not.mpr h.session)
      rw [hsame]
      exact h.frame rfl rfl ⟨rfl, rfl, rfl, rfl⟩ (Or.inl rfl) id
    · exact h
  | takeTransportError =>
    exact h.frame rfl rfl ⟨rfl, rfl, rfl, rfl⟩ (Or.inl rfl) id
  | engine a =>
    rw [step]
    split
    next hpermits =>
      cases a with
      | setIngressGeneration generation | takeTransportError | trySend n command =>
        exact absurd hpermits (by simp [permits])
      | fire n event => exact h.fire hpermits
      | apply i => exact h.apply i
      | worker n ok room ends => exact h.worker n ok room ends
      | begin call => exact h.begin hpermits
      | advance ok => exact h.advance hheld ok
      | cancel => exact h.cancel
      | cleanup => exact h.cleanup
    next => exact h

end Link

/-! ### Workers -/

/-- What a worker took out of its queue and has not handed over. -/
def WorkerStage.inHand : WorkerStage → List EngineCommand
  | .received command | .current command _ => [command]
  | _ => []

/-- The commands that were handed to the data channel. -/
def Worker.sent (w : Worker) : List EngineCommand := w.handed.map Prod.fst

/-- Where the commands of a worker are. -/
structure Worker.Accounts (w : Worker) (captured : Option ℕ) : Prop where
  kept : w.stage.receives = true → w.accepted = w.sent ++ w.stage.inHand ++ w.queue
  sent : w.sent <+: w.accepted
  checked : ∀ command g, w.stage = .current command g → captured = some g
  seen : ∀ h ∈ w.handed, captured = some h.2.1 ∧ h.2.2 = .opened

namespace RtcEngine

variable {e : RtcEngine} {n : ℕ} {w w' : Worker}

/-- What a step does to a worker. -/
inductive Goes (e : RtcEngine) (n : ℕ) : Worker → Worker → Prop where
  | stays (w : Worker) : Goes e n w w
  | aborts (w : Worker) (h : w.aborted = true) : Goes e n w { w with stage := .stopped }
  | takes (w : Worker) (command rest) (hs : w.stage = .waiting) (hq : w.queue = command :: rest) :
      Goes e n w { w with stage := .received command, queue := rest }
  | drained (w : Worker) (hs : w.stage = .waiting) (hq : w.queue = []) :
      Goes e n w { w with stage := .stopped }
  | checks (w : Worker) (command) (hs : w.stage = .received command)
      (hc : e.captured n = some e.ingressGeneration) :
      Goes e n w { w with stage := .current command e.ingressGeneration }
  | overtaken (w : Worker) (command) (hs : w.stage = .received command)
      (hc : e.captured n ≠ some e.ingressGeneration) : Goes e n w { w with stage := .stopped }
  | hands (w : Worker) (command g) (hs : w.stage = .current command g) (hc : e.cell n = .opened) :
      Goes e n w { w with stage := .sending, handed := w.handed ++ [(command, g, e.cell n)] }
  | refuses (w : Worker) (command g) (hs : w.stage = .current command g) :
      Goes e n w { w with stage := .failed }
  | sends (w : Worker) (hs : w.stage = .sending) : Goes e n w { w with stage := .waiting }
  | errs (w : Worker) (hs : w.stage = .sending) : Goes e n w { w with stage := .failed }
  | faults (w : Worker) (hs : w.stage = .failed) : Goes e n w { w with stage := .stopped }

theorem update_worker_self (h : e.worker n = some w) :
    Function.update e.worker n (some w) = e.worker := by
  rw [← h, Function.update_eq_self]

theorem workerStep_goes (h : e.worker n = some w) (ok room ends : Bool) :
    ∃ w', Goes e n w w' ∧
      (e.workerStep n ok room ends).worker = Function.update e.worker n (some w') := by
  have hstays : ∃ w', Goes e n w w' ∧ e.worker = Function.update e.worker n (some w') :=
    ⟨w, .stays w, (update_worker_self h).symm⟩
  rw [workerStep, h]
  dsimp only
  cases hs : w.stage with
  | waiting =>
    dsimp only
    split
    next ha => exact ⟨_, .aborts w ha.1, rfl⟩
    next =>
      split
      next command rest hq => exact ⟨_, .takes w command rest hs hq, rfl⟩
      next hq =>
        split
        · exact ⟨_, .drained w hs hq, rfl⟩
        · exact hstays
  | received command =>
    dsimp only
    split
    next hc => exact ⟨_, .checks w command hs hc, rfl⟩
    next hc => exact ⟨_, .overtaken w command hs hc, rfl⟩
  | current command g =>
    dsimp only
    split
    next hc => exact ⟨_, .hands w command g hs hc, rfl⟩
    next => exact ⟨_, .refuses w command g hs, rfl⟩
  | sending =>
    dsimp only
    split
    next ha => exact ⟨_, .aborts w ha.1, rfl⟩
    next =>
      cases ok with
      | true => exact ⟨_, .sends w hs, rfl⟩
      | false => exact ⟨_, .errs w hs, rfl⟩
  | failed =>
    refine ⟨_, .faults w hs, ?_⟩
    show Function.update (e.recordTransportFault n room).worker n _ = _
    rw [recordTransportFault_worker]
  | stopped => exact hstays

theorem workerStep_none (h : e.worker n = none) (ok room ends : Bool) :
    e.workerStep n ok room ends = e := by
  rw [workerStep, h]

/-- A worker of the current generation ends with a fault, whether the ingress queue
has room or not. -/
theorem workerStep_faults (h : e.worker n = some w) (hs : w.stage = .failed)
    (hcaptured : e.captured n = some e.ingressGeneration) (ok room ends : Bool) :
    .fault e.ingressGeneration ∈ (e.workerStep n ok room ends).log ∧
      (e.workerStep n ok room ends).cell n = .closed ∧
      (e.workerStep n ok room ends).transportError = some e.ingressGeneration := by
  rw [workerStep, h]
  dsimp only
  rw [hs, recordTransportFault, hcaptured]
  dsimp only
  rw [if_neg (not_not.mpr rfl)]
  exact ⟨List.mem_append_right _ (List.mem_singleton_self _), Function.update_self .., rfl⟩

theorem Goes.accepted (h : Goes e n w w') : w'.accepted = w.accepted ∧ w'.aborted = w.aborted := by
  cases h <;> exact ⟨rfl, rfl⟩

theorem Goes.accounts (h : Goes e n w w') (ha : w.Accounts (e.captured n)) :
    w'.Accounts (e.captured n) := by
  -- a worker that does not receive any more
  have hends : ∀ stage : WorkerStage, stage.receives = false →
      Worker.Accounts { w with stage } (e.captured n) := fun stage hstage =>
    ⟨fun hr => absurd (hstage.symm.trans hr) (by simp), ha.sent,
      fun command g (hs : stage = _) => absurd hstage (by rw [hs]; simp [WorkerStage.receives]),
      ha.seen⟩
  have hkept := ha.kept
  cases h with
  | stays => exact ha
  | aborts h => exact hends _ rfl
  | takes command rest hs hq =>
    refine ⟨fun _ => ?_, ha.sent, fun _ _ h => absurd h (by simp), ha.seen⟩
    rw [hs, hq] at hkept
    show w.accepted = w.sent ++ [command] ++ rest
    rw [hkept rfl]
    simp [WorkerStage.inHand]
  | drained hs hq => exact hends _ rfl
  | checks command hs hc =>
    refine ⟨fun _ => ?_, ha.sent, fun _ g h => ?_, ha.seen⟩
    · rw [hs] at hkept
      exact hkept rfl
    · rw [← (WorkerStage.current.inj h).2]
      exact hc
  | overtaken command hs hc => exact hends _ rfl
  | hands command g hs hc =>
    rw [hs] at hkept
    have hsent : Worker.sent
        { w with stage := .sending, handed := w.handed ++ [(command, g, e.cell n)] } =
        w.sent ++ [command] := List.map_append
    have haccepted : w.accepted = w.sent ++ [command] ++ w.queue := hkept rfl
    refine ⟨fun _ => ?_, ?_, fun _ _ h => absurd h (by simp), fun x hx => ?_⟩
    · rw [hsent]
      show w.accepted = w.sent ++ [command] ++ [] ++ w.queue
      rw [List.append_nil]
      exact haccepted
    · rw [hsent]
      exact ⟨w.queue, haccepted.symm⟩
    · rcases List.mem_append.mp hx with hx | hx
      · exact ha.seen x hx
      · rw [List.mem_singleton.mp hx]
        exact ⟨ha.checked command g hs, hc⟩
  | refuses command g hs => exact hends _ rfl
  | sends hs =>
    rw [hs] at hkept
    exact ⟨fun _ => hkept rfl, ha.sent, fun _ _ h => absurd h (by simp), ha.seen⟩
  | errs hs => exact hends _ rfl
  | faults hs => exact hends _ rfl

end RtcEngine

/-- The closed cell of a peer that captured its generation stays closed. -/
theorem Transport.step_closed {t t' : Transport} (hstep : Step t t')
    (hcaptured : t.captured t.current ≠ none) (hcurrent : t'.current = t.current)
    (hclosed : t.cell t.current = .closed) : t'.cell t'.current = .closed := by
  rw [hcurrent]
  cases hstep with
  | idle | takeTransportError | closeReturned | capture | refused => exact hclosed
  | setIngressGeneration | close | fault => exact Function.update_self ..
  | reset => exact absurd hcurrent (Nat.succ_ne_self _)
  | connecting hnone => exact absurd hnone hcaptured
  | callback n event _ =>
    show Function.update t.cell n (applyEvent (t.cell n) event) t.current = .closed
    rw [Function.update_apply]
    split
    next hn => rw [← hn, hclosed, applyEvent.eq_def, if_pos (Or.inl rfl)]
    next => exact hclosed

/-! ### Where the commands are -/

/-- `prepare_offer` between the cell of its peer and the worker of its peer. -/
def PrepareStage.arming : PrepareStage → Bool
  | .setConnecting | .loadGeneration | .createPeer | .setup | .storeConnection | .storeChannel
  | .storeAudio | .installCommands => true
  | _ => false

theorem PrepareStage.plain_arming {stage : PrepareStage} (h : stage.plain = true) :
    stage.arming = true := by
  cases stage with
  | setConnecting | createPeer | setup | storeConnection | storeChannel | storeAudio => rfl
  | _ => exact absurd h (by simp [plain])

namespace Link

variable {l l' : Link}

/-- The fault of the current generation was recorded, and the router has it or will
find it. -/
structure Faulted (l : Link) : Prop where
  fault : .fault l.engine.ingressGeneration ∈ l.engine.log
  closed : l.engine.readyState = .closed
  retained : l.engine.transportError = some l.engine.ingressGeneration ∨
    l.engine.ingressGeneration ∈ l.taken

structure Served (l : Link) : Prop where
  spawned : ∀ n w, l.engine.worker n = some w →
    n ≤ l.engine.current ∧ l.engine.captured n ≠ none
  arming : ∀ stage, l.engine.call = some (.prepareOffer stage) → stage.arming = true →
    l.engine.worker l.engine.current = none ∧
      (stage = .setConnecting ∨ stage = .loadGeneration ∨
        l.engine.captured l.engine.current ≠ none)
  accounts : ∀ n w, l.engine.worker n = some w → w.Accounts (l.engine.captured n)
  accepted : ∀ n w g, l.engine.worker n = some w → l.engine.captured n = some g →
    l.accepted g = w.accepted
  unused : ∀ g, (∀ n w, l.engine.worker n = some w → l.engine.captured n ≠ some g) →
    l.accepted g = []
  silent : l.answering l.engine.current = false →
    ∀ w, l.engine.worker l.engine.current = some w → w.accepted = []
  aborted : ∀ w, l.engine.worker l.engine.current = some w → w.aborted = true → l.Stale ∨ l.Quiet
  ended : l.engine.captured l.engine.current = some l.engine.ingressGeneration →
    ∀ w, l.engine.worker l.engine.current = some w → w.stage = .stopped →
      w.sent = w.accepted ∨ l.Faulted
  sending : ∀ x, l.sending = some x →
    l.engine.captured l.engine.current = some l.engine.ingressGeneration ∧
      l.answering l.engine.current = true ∧ ∀ n, x.2 = some n → n = l.engine.current

theorem init_served (sessionId : ℕ) : (init sessionId).Served := by
  obtain ⟨-, hcaptured, -, hcall⟩ := setIngressGeneration_same .new sessionId
  have hworker : (init sessionId).engine.worker = fun _ => none := by
    rw [init, RtcEngine.setIngressGeneration]
    dsimp only
    split <;> rfl
  have hnone : ∀ n w, (init sessionId).engine.worker n ≠ some w := by
    rw [hworker]
    simp
  refine ⟨fun n w hw => absurd hw (hnone n w), fun stage hs => ?_,
    fun n w hw => absurd hw (hnone n w), fun n w _ hw => absurd hw (hnone n w), fun _ _ => rfl,
    fun _ w hw => absurd hw (hnone _ w), fun w hw => absurd hw (hnone _ w),
    fun _ w hw => absurd hw (hnone _ w), fun _ hs => absurd hs (by simp [init])⟩
  exact absurd (hcall.symm.trans hs) (by simp [RtcEngine.new])

/-- A step of the engine within the generation. -/
theorem Faulted.keep (h : l.Faulted)
    (hstep : Transport.Step l.engine.transport l'.engine.transport)
    (hcurrent : l'.engine.current = l.engine.current)
    (hcaptured : l.engine.captured l.engine.current ≠ none)
    (hgeneration : l'.engine.ingressGeneration = l.engine.ingressGeneration)
    (herror : l'.engine.transportError = l.engine.transportError ∨
      l'.engine.transportError = some l.engine.ingressGeneration)
    (htaken : l'.taken = l.taken) : l'.Faulted := by
  obtain ⟨new, hlog⟩ := Transport.step_log hstep
  change l'.engine.log = l.engine.log ++ new at hlog
  refine ⟨?_, Transport.step_closed hstep hcaptured hcurrent h.closed, ?_⟩
  · rw [hlog, hgeneration]
    exact List.mem_append_left _ h.fault
  · rw [hgeneration, htaken]
    rcases h.retained with hretained | hmem
    · exact Or.inl (herror.elim (fun heq => heq.trans hretained) id)
    · exact Or.inr hmem

/-- The workers are the same, and the call has gone on. -/
theorem Served.calling (h : l.Served)
    (hworker : l'.engine.worker = l.engine.worker)
    (hpeers : (l'.engine.current, l'.engine.captured, l'.engine.ingressGeneration) =
      (l.engine.current, l.engine.captured, l.engine.ingressGeneration))
    (hghosts : (l'.accepted, l'.answering, l'.sending) = (l.accepted, l.answering, l.sending))
    (harming : ∀ stage, l'.engine.call = some (.prepareOffer stage) → stage.arming = true →
      l.engine.worker l.engine.current = none ∧
        (stage = .setConnecting ∨ stage = .loadGeneration ∨
          l.engine.captured l.engine.current ≠ none))
    (hquiet : l.Quiet → l.Stale ∨ l'.Quiet)
    (hfaulted : l.engine.captured l.engine.current = some l.engine.ingressGeneration →
      l.Faulted → l'.Faulted) : l'.Served := by
  simp only [Prod.mk.injEq] at hpeers hghosts
  obtain ⟨hcurrent, hcaptured, hgeneration⟩ := hpeers
  obtain ⟨haccepted, hanswering, hsending⟩ := hghosts
  have hstale : l.Stale → l'.Stale := by
    rw [Stale, Stale, hcaptured, hcurrent, hgeneration]
    exact id
  refine ⟨?_, ?_, ?_, ?_, ?_, ?_, ?_, ?_, ?_⟩
  · rw [hworker, hcurrent, hcaptured]
    exact h.spawned
  · rw [hworker, hcurrent, hcaptured]
    exact harming
  · rw [hworker, hcaptured]
    exact h.accounts
  · rw [hworker, hcaptured, haccepted]
    exact h.accepted
  · rw [hworker, hcaptured, haccepted]
    exact h.unused
  · rw [hworker, hcurrent, hanswering]
    exact h.silent
  · rw [hworker, hcurrent]
    intro w hw ha
    rcases h.aborted w hw ha with hs | hq
    · exact Or.inl (hstale hs)
    · exact (hquiet hq).imp_left hstale
  · rw [hworker, hcurrent, hcaptured, hgeneration]
    exact fun hc w hw hs => (h.ended hc w hw hs).imp_right (hfaulted hc)
  · rw [hsending, hcurrent, hcaptured, hgeneration, hanswering]
    exact h.sending

theorem captured_ne {g : ℕ} (h : l.engine.captured l.engine.current = some g) :
    l.engine.captured l.engine.current ≠ none := by
  rw [h]
  simp

/-- The last peer is of the current generation, or not. -/
theorem Stale.not_current (h : l.Stale) :
    l.engine.captured l.engine.current ≠ some l.engine.ingressGeneration :=
  fun hc => absurd rfl (h _ hc).ne

/-- Only the lock moves. -/
theorem Served.locking (h : l.Served) (sending : Option (EngineCommand × Option ℕ))
    (hsending : ∀ x, sending = some x →
      l.engine.captured l.engine.current = some l.engine.ingressGeneration ∧
        l.answering l.engine.current = true ∧ ∀ n, x.2 = some n → n = l.engine.current) :
    Served { l with sending } :=
  ⟨h.spawned, h.arming, h.accounts, h.accepted, h.unused, h.silent, h.aborted,
    fun hc w hw hs => (h.ended hc w hw hs).imp_right fun hf => ⟨hf.fault, hf.closed, hf.retained⟩,
    hsending⟩

/-- The ready state is open: the last peer is of the current generation, and its
answer was applied. -/
theorem Served.send (h : l.Served) (hp : l.Phased) (hheld : l.engine.Held)
    (hopen : l.engine.readyState = .opened) (command : EngineCommand) :
    Served { l with sending := some (command, none) } := by
  refine h.locking _ fun x hx => ?_
  rw [← Option.some_inj.mp hx]
  exact ⟨(hheld.sound.opened (Or.inl hopen)).1, hp.opened (Or.inl hopen), by simp⟩

theorem Served.cloneSender (h : l.Served) (hheld : l.engine.Held) {command : EngineCommand}
    (hsending : l.sending = some (command, none)) :
    Served { l with sending := (l.engine.slot .commandTx).map fun n => (command, some n) } := by
  obtain ⟨hcaptured, hanswering, -⟩ := h.sending _ hsending
  refine h.locking _ fun x hx => ⟨hcaptured, hanswering, fun n hn => ?_⟩
  obtain ⟨m, hm, rfl⟩ := Option.map_eq_some_iff.mp hx
  rw [← Option.some_inj.mp hn]
  exact hheld.tidy.slots _ m hm

/-- A command is accepted: it goes to the worker of the last peer, and to the account of
the session. -/
theorem Served.accept (h : l.Served) (hp : l.Phased)
    {command : EngineCommand} {n : ℕ} (hsending : l.sending = some (command, some n))
    {w : Worker} (hw : l.engine.worker n = some w) (hreceives : w.stage.receives = true) :
    Served { l with
      sending := none
      engine := l.engine.setWorker n
        { w with queue := w.queue ++ [command], accepted := w.accepted ++ [command] }
      accepted :=
        Function.update l.accepted l.sessionId (l.accepted l.sessionId ++ [command]) } := by
  -- The sender that `send` has cloned is the current peer's, in the current session.
  obtain ⟨hcaptured, hanswering, hn⟩ := h.sending _ hsending
  obtain rfl := hn n rfl
  rw [hp.session] at hcaptured
  have ha := h.accounts _ w hw
  -- A worker afterwards is the current one with the command, or an older one as it was.
  have hat : ∀ m v, Function.update l.engine.worker l.engine.current (some
      { w with queue := w.queue ++ [command], accepted := w.accepted ++ [command] }) m = some v →
        m = l.engine.current ∧
          v = { w with queue := w.queue ++ [command], accepted := w.accepted ++ [command] } ∨
        m < l.engine.current ∧ l.engine.worker m = some v := by
    intro m v hv
    exact (Table.of_update hv).imp_right fun hold =>
      ⟨lt_of_le_of_ne (h.spawned m v hold.2).1 hold.1, hold.2⟩
  have hself : ∀ v, Function.update l.engine.worker l.engine.current (some
      { w with queue := w.queue ++ [command], accepted := w.accepted ++ [command] })
        l.engine.current = some v →
      v = { w with queue := w.queue ++ [command], accepted := w.accepted ++ [command] } := by
    intro v hv
    exact (hat _ v hv).elim And.right fun hold => absurd hold.1 (lt_irrefl _)
  refine ⟨fun m v hv => ?_, fun stage hstage harming => ?_, fun m v hv => ?_,
    fun m v g hv hg => ?_, fun g hg => ?_, fun hsilent => ?_, fun v hv hab => ?_,
    fun _ v hv hs => ?_, fun x hx => absurd hx (by simp)⟩
  · rcases hat m v hv with ⟨rfl, -⟩ | ⟨-, hv⟩
    · exact ⟨le_refl _, captured_ne hcaptured⟩
    · exact h.spawned m v hv
  · rw [(h.arming stage hstage harming).1] at hw
    exact absurd hw (by simp)
  · rcases hat m v hv with ⟨rfl, rfl⟩ | ⟨-, hv⟩
    · refine ⟨fun hr => ?_, ha.sent.trans (List.prefix_append _ _), ha.checked, ha.seen⟩
      -- What is accepted is what is sent, in hand and queued: both sides get the command.
      show w.accepted ++ [command] = w.sent ++ w.stage.inHand ++ (w.queue ++ [command])
      rw [ha.kept hr, List.append_assoc]
    · exact h.accounts m v hv
  · rcases hat m v hv with ⟨rfl, rfl⟩ | ⟨hm, hv⟩
    · obtain rfl : g = l.sessionId := Option.some_inj.mp (hg.symm.trans hcaptured)
      show Function.update l.accepted l.sessionId _ l.sessionId = w.accepted ++ [command]
      rw [Function.update_self, h.accepted _ w _ hw hg]
    -- An older peer has an older generation, whose list is not touched.
    · have hlt := hp.past m g hm hg
      rw [hp.session] at hlt
      show Function.update l.accepted l.sessionId _ g = v.accepted
      rw [Function.update_of_ne hlt.ne]
      exact h.accepted m v g hv hg
  · have hne : g ≠ l.sessionId := by
      rintro rfl
      exact hg l.engine.current _ (Function.update_self ..) hcaptured
    show Function.update l.accepted l.sessionId _ g = []
    rw [Function.update_of_ne hne]
    refine h.unused g fun m v hv hcap => ?_
    by_cases hm : m = l.engine.current
    · exact hne (Option.some_inj.mp ((hm ▸ hcap).symm.trans hcaptured))
    · exact hg m v ((Function.update_of_ne hm ..).trans hv) hcap
  · exact absurd (hanswering.symm.trans hsilent) (by simp)
  · rw [hself v hv] at hab
    exact h.aborted w hw hab
  · rw [hself v hv] at hs
    change w.stage = .stopped at hs
    rw [hs] at hreceives
    exact absurd hreceives (by simp [WorkerStage.receives])

theorem Served.trySend (h : l.Served) (hp : l.Phased) {command : EngineCommand} {n : ℕ}
    (hsending : l.sending = some (command, some n)) :
    Served { l with
      sending := none
      engine := l.engine.trySend n command
      accepted :=
        if l.engine.accepts n then
          Function.update l.accepted l.sessionId (l.accepted l.sessionId ++ [command])
        else l.accepted } := by
  rw [RtcEngine.trySend, RtcEngine.accepts]
  cases hw : l.engine.worker n with
  | none => exact h.locking none (by simp)
  | some w =>
    dsimp only
    by_cases hroom : w.stage.receives = true ∧ w.queue.length < commandQueueCapacity
    · rw [if_pos hroom, if_pos (by simpa using hroom)]
      exact h.accept hp hsending hw hroom.1
    · rw [if_neg hroom, if_neg (by simpa using hroom)]
      exact h.locking none (by simp)

theorem setIngressGeneration_worker (e : RtcEngine) (generation : ℕ) :
    (e.setIngressGeneration generation).worker = e.worker := by
  rw [RtcEngine.setIngressGeneration]
  dsimp only
  split <;> rfl

/-- A reset, with the lock free. -/
theorem Served.bumpSession (h : l.Served) (hp : l.Phased) (hfree : l.sending = none) :
    Served { l with
      sessionId := l.sessionId + 1
      engine := l.engine.setIngressGeneration (l.sessionId + 1)
      fresh := l.fresh || l.engine.call.isNone } := by
  obtain ⟨hcurrent, hcaptured, -, hcall⟩ :=
    setIngressGeneration_same l.engine (l.sessionId + 1)
  have hgeneration := setIngressGeneration_generation l.engine (l.sessionId + 1)
  have hworker := setIngressGeneration_worker l.engine (l.sessionId + 1)
  have hstale : Stale { l with
      sessionId := l.sessionId + 1
      engine := l.engine.setIngressGeneration (l.sessionId + 1)
      fresh := l.fresh || l.engine.call.isNone } := by
    rw [Stale, hcaptured, hcurrent, hgeneration, ← hp.session]
    exact fun g hg => Nat.lt_succ_of_le (hp.below _ g hg)
  refine ⟨?_, ?_, ?_, ?_, ?_, ?_, fun _ _ _ => Or.inl hstale,
    fun hc => absurd hc hstale.not_current, fun x hx => absurd (hfree.symm.trans hx) (by simp)⟩
  · rw [hworker, hcurrent, hcaptured]
    exact h.spawned
  · rw [hworker, hcurrent, hcaptured, hcall]
    exact h.arming
  · rw [hworker, hcaptured]
    exact h.accounts
  · rw [hworker, hcaptured]
    exact h.accepted
  · rw [hworker, hcaptured]
    exact h.unused
  · rw [hworker, hcurrent]
    exact h.silent

/-- The announcement of a session that was just started. -/
theorem Served.prepareIngress (h : l.Served) (hstale : l.Stale) :
    Served { l with engine := { l.engine with transportError := none } } :=
  h.calling rfl rfl rfl h.arming (fun hq => Or.inr hq) fun hc => absurd hc hstale.not_current

theorem Served.takeTransportError (h : l.Served) :
    Served { l with
      taken := l.taken ++ l.engine.transportError.toList
      engine := l.engine.takeTransportError } := by
  refine h.calling rfl rfl rfl h.arming (fun hq => Or.inr hq) fun _ hf =>
    ⟨hf.fault, hf.closed, Or.inr (List.mem_append.mpr ?_)⟩
  rcases hf.retained with herror | hmem
  · refine Or.inr ?_
    rw [herror]
    exact List.mem_singleton_self _
  · exact Or.inl hmem

/-- The steps of the engine that stay away from the workers. -/
theorem Served.passes (h : l.Served) (hheld : l.engine.Held) {b : RtcEngine.Action}
    (hworker : (l.engine.step b).worker = l.engine.worker)
    (hsame : RtcEngine.SamePeers l.engine { l.engine.step b with
      callbacks := l.engine.callbacks, call := l.engine.call })
    (hgeneration : (l.engine.step b).ingressGeneration = l.engine.ingressGeneration)
    (herror : (l.engine.step b).transportError = l.engine.transportError ∨
      (l.engine.step b).transportError = some l.engine.ingressGeneration)
    (fresh offered : Bool)
    (harming : ∀ stage, (l.engine.step b).call = some (.prepareOffer stage) → stage.arming = true →
      l.engine.worker l.engine.current = none ∧
        (stage = .setConnecting ∨ stage = .loadGeneration ∨
          l.engine.captured l.engine.current ≠ none))
    (hquiet : l.Quiet → l.Stale ∨
      Quiet { l with fresh, offered, engine := l.engine.step b }) :
    Served { l with fresh, offered, engine := l.engine.step b } := by
  have hcurrent : (l.engine.step b).current = l.engine.current := hsame.current
  have hcaptured : (l.engine.step b).captured = l.engine.captured := hsame.captured
  refine h.calling hworker (by rw [hcurrent, hcaptured, hgeneration]) rfl harming hquiet
    fun hc hf => ?_
  exact hf.keep (RtcEngine.step_transport hheld.tidy hheld.armed b) hcurrent (captured_ne hc)
    hgeneration herror rfl

theorem Served.fire (h : l.Served) (hheld : l.engine.Held) (n : ℕ) (event : RtcStateEvent) :
    Served { l with engine := l.engine.fire n event } := by
  have hfire : (l.engine.fire n event).worker = l.engine.worker ∧
      (l.engine.fire n event).current = l.engine.current ∧
      (l.engine.fire n event).captured = l.engine.captured ∧
      (l.engine.fire n event).call = l.engine.call := by
    rw [RtcEngine.fire]
    split
    · exact ⟨rfl, rfl, rfl, rfl⟩
    · split <;> exact ⟨rfl, rfl, rfl, rfl⟩
  obtain ⟨hworker, hcurrent, hcaptured, hcall⟩ := hfire
  have hretains := RtcEngine.step_retains l.engine (a := .fire n event) rfl
  refine h.passes hheld (b := .fire n event) hworker ⟨hcurrent, hcaptured, rfl, rfl⟩
    hretains.generation hretains.error l.fresh l.offered ?_ fun hq => Or.inr ?_
  · show ∀ stage, (l.engine.fire n event).call = _ → _
    rw [hcall]
    exact h.arming
  · refine ⟨?_, hq.2.1, ?_⟩
    · show l.answering (l.engine.fire n event).current = false
      rw [hcurrent]
      exact hq.1
    · show (l.engine.fire n event).call ≠ _
      rw [hcall]
      exact hq.2.2

theorem Served.apply (h : l.Served) (hheld : l.engine.Held) (i : ℕ) :
    Served { l with engine := l.engine.apply i } := by
  have happly : (l.engine.apply i).worker = l.engine.worker ∧
      (l.engine.apply i).current = l.engine.current ∧
      (l.engine.apply i).captured = l.engine.captured ∧
      (l.engine.apply i).call = l.engine.call ∧
      (l.engine.apply i).ingressGeneration = l.engine.ingressGeneration ∧
      (l.engine.apply i).transportError = l.engine.transportError := by
    rw [RtcEngine.apply]
    split <;> exact ⟨rfl, rfl, rfl, rfl, rfl, rfl⟩
  obtain ⟨hworker, hcurrent, hcaptured, hcall, hgeneration, herror⟩ := happly
  refine h.passes hheld (b := .apply i) hworker ⟨hcurrent, hcaptured, rfl, rfl⟩
    hgeneration (Or.inl herror) l.fresh l.offered ?_ fun hq => Or.inr ?_
  · show ∀ stage, (l.engine.apply i).call = _ → _
    rw [hcall]
    exact h.arming
  · refine ⟨?_, hq.2.1, ?_⟩
    · show l.answering (l.engine.apply i).current = false
      rw [hcurrent]
      exact hq.1
    · show (l.engine.apply i).call ≠ _
      rw [hcall]
      exact hq.2.2

theorem Served.cancel (h : l.Served) (hheld : l.engine.Held) :
    Served { l with engine := l.engine.cancel } := by
  have hcancel : l.engine.cancel = { l.engine with call := l.engine.cancel.call } ∧
      (l.engine.cancel.call = l.engine.call ∨ l.engine.cancel.call = none) := by
    rw [RtcEngine.cancel.eq_def]
    split
    · exact ⟨rfl, Or.inl rfl⟩
    · split
      · exact ⟨rfl, Or.inr rfl⟩
      · exact ⟨rfl, Or.inl rfl⟩
  obtain ⟨hengine, hcall⟩ := hcancel
  have hretains := RtcEngine.step_retains l.engine (a := .cancel) rfl
  refine h.passes hheld (b := .cancel) ?_ ?_ hretains.generation hretains.error l.fresh l.offered
    (fun stage hstage => ?_) fun hq => Or.inr ⟨?_, hq.2.1, ?_⟩
  · show l.engine.cancel.worker = _
    rw [hengine]
  · show RtcEngine.SamePeers _ { l.engine.cancel with
      callbacks := l.engine.callbacks, call := l.engine.call }
    rw [hengine]
    exact ⟨rfl, rfl, rfl, rfl⟩
  · rcases hcall with hcall | hcall
    · exact h.arming stage (hcall.symm.trans hstage)
    · exact absurd (hcall.symm.trans hstage) (by simp)
  · show l.answering l.engine.cancel.current = false
    rw [hengine]
    exact hq.1
  · show l.engine.cancel.call ≠ _
    rcases hcall with hcall | hcall
    · rw [hcall]
      exact hq.2.2
    · rw [hcall]
      simp

theorem Served.begin (h : l.Served) (hp : l.Phased) (hheld : l.engine.Held) {call : Call}
    (hpermits : l.permits (.begin call) = true) : (l.begin call).Served := by
  rw [Link.begin.eq_def]
  split
  next hfirst =>
    have hbegin : l.engine.begin call = { l.engine with call := some call } := if_pos hfirst
    -- a close and an offer follow a reset
    have hreset : l.fresh = true → ∀ fresh offered, Served { l with
        fresh, offered, engine := l.engine.begin call } := by
      intro hfresh fresh offered
      have hstale := hp.stale (Or.inl hfresh)
      have hretains := RtcEngine.step_retains l.engine (a := .begin call) rfl
      refine h.passes hheld (b := .begin call) ?_ ?_ hretains.generation hretains.error fresh
        offered (fun stage hstage harming => ?_) fun _ => Or.inl hstale
      · show (l.engine.begin call).worker = _
        rw [hbegin]
      · show RtcEngine.SamePeers _ { l.engine.begin call with
          callbacks := l.engine.callbacks, call := l.engine.call }
        rw [hbegin]
        exact ⟨rfl, rfl, rfl, rfl⟩
      · change (l.engine.begin call).call = _ at hstage
        rw [hbegin] at hstage
        obtain rfl : call = .prepareOffer stage := Option.some_inj.mp hstage
        have hclosing : stage = .closing .enter := by simpa [Call.isFirst] using hfirst.2
        rw [hclosing] at harming
        exact absurd harming (by simp [PrepareStage.arming])
    cases call with
    | close r => exact hreset hpermits l.fresh false
    | prepareOffer stage => exact hreset hpermits false false
    | applyAnswer described =>
      rw [hbegin]
      have hoffered : l.offered = true := hpermits
      have hanswers : Function.update l.answering l.engine.current true l.engine.current = true :=
        Function.update_self ..
      refine ⟨h.spawned, fun stage hstage => ?_, h.accounts, h.accepted, h.unused,
        fun hs => absurd (hanswers.symm.trans hs) (by simp), fun w hw hab => ?_,
        fun hc w hw hs => (h.ended hc w hw hs).imp_right fun hf =>
          ⟨hf.fault, hf.closed, hf.retained⟩,
        fun x hx => ?_⟩
      · exact absurd (Option.some_inj.mp hstage) (by simp)
      · rcases h.aborted w hw hab with hstale | hquiet
        · exact Or.inl hstale
        · exact absurd (hquiet.2.1.symm.trans hoffered) (by simp)
      · obtain ⟨hcaptured, -, hn⟩ := h.sending x hx
        exact ⟨hcaptured, hanswers, hn⟩
  next => exact h

/-- The cleanup aborts a worker, and does nothing else to one. -/
theorem cleanup_worker (e : RtcEngine) : e.cleanup.worker = e.worker ∨
    ∃ n w, e.slot .commandTask = some n ∧ e.worker n = some w ∧ e.closeTask ≠ none ∧
      e.cleanup.worker = Function.update e.worker n (some { w with aborted := true }) := by
  rw [RtcEngine.cleanup.eq_def]
  split
  · exact Or.inl rfl
  next stage hstage =>
    have hsome : e.closeTask ≠ none := by
      rw [hstage]
      simp
    have hvacate : ∀ k, (e.vacate k).worker = e.worker := by
      intro k
      rw [RtcEngine.vacate]
      split <;> rfl
    suffices h : (e.closeInner stage).1.worker = e.worker ∨
        ∃ n w, e.slot .commandTask = some n ∧ e.worker n = some w ∧
          (e.closeInner stage).1.worker =
            Function.update e.worker n (some { w with aborted := true }) by
      rcases h with h | ⟨n, w, hn, hw, h⟩
      · exact Or.inl h
      · exact Or.inr ⟨n, w, hn, hw, hsome, h⟩
    cases stage with
    | dropSender | dropAudio => exact Or.inl (hvacate _)
    | takeTask =>
      rw [RtcEngine.closeInner]
      split
      · exact Or.inl rfl
      next n hn =>
        cases hw : e.worker n with
        | none =>
          refine Or.inl ?_
          show ((e.empty .commandTask).abort n).worker = _
          rw [RtcEngine.abort, show (e.empty .commandTask).worker n = none from hw]
          rfl
        | some w =>
          refine Or.inr ⟨n, w, hn, hw, ?_⟩
          show ((e.empty .commandTask).abort n).worker = _
          rw [RtcEngine.abort, show (e.empty .commandTask).worker n = some w from hw]
          rfl
    | join n | takeResources =>
      rw [RtcEngine.closeInner]
      split <;> exact Or.inl rfl
    | takeChannel owned | takeConnection owned =>
      rw [RtcEngine.closeInner.eq_def]
      dsimp only
      split
      · exact Or.inl rfl
      · exact Or.inl rfl
      · dsimp only
        split <;> exact Or.inl rfl
    | _ => exact Or.inl rfl

/-- A worker of the last peer moves, and nothing is accepted. -/
theorem Served.moving (h : l.Served) (hheld : l.engine.Held) {b : RtcEngine.Action}
    (hsame : RtcEngine.SamePeers l.engine (l.engine.step b))
    (hretains : RtcEngine.Retains l.engine (l.engine.step b)) {n : ℕ} {w w' : Worker}
    (hw : l.engine.worker n = some w)
    (hworker : (l.engine.step b).worker = Function.update l.engine.worker n (some w'))
    (haccepted : w'.accepted = w.accepted)
    (haccounts : w'.Accounts (l.engine.captured n))
    (haborted : n = l.engine.current → w'.aborted = true → l.Stale ∨ l.Quiet)
    (hended : n = l.engine.current →
      l.engine.captured l.engine.current = some l.engine.ingressGeneration →
      w'.stage = .stopped → w'.sent = w'.accepted ∨ Faulted { l with engine := l.engine.step b }) :
    Served { l with engine := l.engine.step b } := by
  -- Only worker `n` has moved.
  have hat : ∀ m v, (l.engine.step b).worker m = some v →
      m = n ∧ v = w' ∨ m ≠ n ∧ l.engine.worker m = some v := by
    rw [hworker]
    exact fun m v => Table.of_update
  have hstale : l.Stale → Stale { l with engine := l.engine.step b } := by
    rw [Stale, Stale, hsame.captured, hsame.current, hretains.generation]
    exact id
  refine ⟨fun m v hv => ?_, fun stage hstage harming => ?_, fun m v hv => ?_,
    fun m v g hv hg => ?_, fun g hg => ?_, fun hsilent v hv => ?_, fun v hv hab => ?_,
    fun hc v hv hs => ?_, ?_⟩
  · rw [hsame.current, hsame.captured]
    rcases hat m v hv with ⟨rfl, -⟩ | ⟨-, hv⟩
    · exact h.spawned m w hw
    · exact h.spawned m v hv
  · rw [hsame.call] at hstage
    obtain ⟨hnone, hcap⟩ := h.arming stage hstage harming
    rw [hsame.current, hsame.captured, hworker]
    refine ⟨(Function.update_of_ne (fun heq => ?_) ..).trans hnone, hcap⟩
    rw [heq, hw] at hnone
    exact absurd hnone (by simp)
  · rw [hsame.captured]
    rcases hat m v hv with ⟨rfl, rfl⟩ | ⟨-, hv⟩
    · exact haccounts
    · exact h.accounts m v hv
  · rw [hsame.captured] at hg
    rcases hat m v hv with ⟨rfl, rfl⟩ | ⟨-, hv⟩
    · exact (h.accepted m w g hw hg).trans haccepted.symm
    · exact h.accepted m v g hv hg
  · refine h.unused g fun m v hv hcap => ?_
    rw [hsame.captured, hworker] at hg
    by_cases hm : m = n
    · exact hg n w' (Function.update_self ..) (hm ▸ hcap)
    · exact hg m v ((Function.update_of_ne hm ..).trans hv) hcap
  · rw [hsame.current] at hsilent hv
    rcases hat _ v hv with ⟨hn, rfl⟩ | ⟨-, hv⟩
    · exact haccepted.trans (h.silent hsilent w (hn ▸ hw))
    · exact h.silent hsilent v hv
  · rw [hsame.current] at hv
    refine Or.imp hstale (fun hq : l.Quiet => hq.frame rfl hsame) ?_
    rcases hat _ v hv with ⟨hn, rfl⟩ | ⟨-, hv⟩
    · exact haborted hn.symm hab
    · exact h.aborted v hv hab
  · rw [hsame.current, hsame.captured, hretains.generation] at hc
    rw [hsame.current] at hv
    rcases hat _ v hv with ⟨hn, rfl⟩ | ⟨-, hv⟩
    · exact hended hn.symm hc hs
    · refine (h.ended hc v hv hs).imp_right fun hf => ?_
      exact hf.keep (RtcEngine.step_transport hheld.tidy hheld.armed b) hsame.current
        (captured_ne hc) hretains.generation hretains.error rfl
  · rw [hsame.current, hsame.captured, hretains.generation]
    exact h.sending

theorem Served.cleanup (h : l.Served) (hp : l.Phased) (hheld : l.engine.Held) :
    Served { l with engine := l.engine.cleanup } := by
  have hsame := RtcEngine.cleanup_same l.engine
  have hretains := RtcEngine.cleanup_retains l.engine
  rcases cleanup_worker l.engine with hworker | ⟨n, w, hslot, hw, hclose, hworker⟩
  · refine h.passes hheld (b := .cleanup) hworker ⟨hsame.current, hsame.captured, rfl, rfl⟩
      hretains.generation hretains.error l.fresh l.offered ?_ fun hq => Or.inr (hq.frame rfl hsame)
    show ∀ stage, l.engine.cleanup.call = _ → _
    rw [hsame.call]
    exact h.arming
  · have ha := h.accounts n w hw
    have hn := hheld.tidy.slots _ n hslot
    refine h.moving hheld (b := .cleanup) hsame hretains hw hworker rfl
      ⟨ha.kept, ha.sent, ha.checked, ha.seen⟩ (fun _ _ => hp.closing hclose) fun _ hc hs => ?_
    refine (h.ended hc w (hn ▸ hw) hs).imp_right fun hf => ?_
    exact hf.keep (RtcEngine.step_transport hheld.tidy hheld.armed .cleanup) hsame.current
      (captured_ne hc) hretains.generation hretains.error rfl

/-- A worker goes on.  Where it stops with the generation current, it has handed over
everything, or was never given anything, or records a fault. -/
theorem Served.worker (h : l.Served) (hheld : l.engine.Held) (n : ℕ) (ok room ends : Bool) :
    Served { l with engine := l.engine.workerStep n ok room ends } := by
  cases hw : l.engine.worker n with
  | none =>
    rw [RtcEngine.workerStep_none hw]
    exact h
  | some w =>
    have hsame := RtcEngine.workerStep_same l.engine n ok room ends
    have hretains := RtcEngine.workerStep_retains l.engine n ok room ends
    have ha := h.accounts n w hw
    obtain ⟨w', hgoes, hworker⟩ := RtcEngine.workerStep_goes hw ok room ends
    refine h.moving hheld (b := .worker n ok room ends) hsame hretains hw hworker hgoes.accepted.1
      (hgoes.accounts ha) (fun hn hab => ?_) fun hn hc hs => ?_
    · rw [hgoes.accepted.2] at hab
      exact h.aborted w (hn ▸ hw) hab
    · have hkept := ha.kept
      cases hgoes with
      | stays =>
        refine (h.ended hc w (hn ▸ hw) hs).imp_right fun hf => ?_
        exact hf.keep (RtcEngine.step_transport hheld.tidy hheld.armed (.worker n ok room ends))
          hsame.current (captured_ne hc) hretains.generation hretains.error rfl
      | aborts hab =>
        -- the last peer is aborted before it was given anything
        rcases h.aborted w (hn ▸ hw) hab with hstale | hquiet
        · exact absurd hc hstale.not_current
        · have hnone := h.silent hquiet.1 w (hn ▸ hw)
          refine Or.inl (List.IsPrefix.eq_of_length_le ha.sent ?_)
          rw [hnone]
          exact Nat.zero_le _
      | drained hwaits hq =>
        rw [hwaits, hq] at hkept
        have haccepted : w.accepted = w.sent ++ [] ++ [] := hkept rfl
        rw [List.append_nil, List.append_nil] at haccepted
        exact Or.inl haccepted.symm
      | overtaken command hreceived hne =>
        rw [hn] at hne
        exact absurd hc hne
      | faults hfailed =>
        obtain ⟨hlog, hcell, herror⟩ :=
          RtcEngine.workerStep_faults hw hfailed (hn ▸ hc) ok room ends
        refine Or.inr ⟨?_, ?_, Or.inl (herror.trans (congrArg some hretains.generation.symm))⟩
        · show Event.fault (l.engine.workerStep n ok room ends).ingressGeneration ∈
            (l.engine.workerStep n ok room ends).log
          rw [hretains.generation]
          exact hlog
        · show (l.engine.workerStep n ok room ends).cell
            (l.engine.workerStep n ok room ends).current = _
          rw [hsame.current, ← hn]
          exact hcell
      | takes command rest hwaits hq | checks command hreceived hcurrent
      | hands command g hcurrent hopen | refuses command g hcurrent | sends hsends | errs hsends =>
        exact absurd hs (by simp)

/-- While `prepare_offer` runs nobody sends. -/
theorem Served.idle (h : l.Served) (hp : l.Phased) {stage : PrepareStage}
    (hcall : l.engine.call = some (.prepareOffer stage)) : l.sending = none := by
  by_contra hsome
  obtain ⟨x, hx⟩ := Option.ne_none_iff_exists'.mp hsome
  obtain ⟨hcaptured, hanswering, -⟩ := h.sending x hx
  obtain ⟨-, -, hlate⟩ := hp.preparing stage hcall
  cases hearly : stage.early with
  | true => exact (hp.stale (Or.inr ⟨_, hcall, hearly⟩)).not_current hcaptured
  | false => exact absurd (hanswering.symm.trans (hlate hearly)) (by simp)

/-- The running call goes on, and the workers and peers are the same. -/
theorem Served.moves (h : l.Served) (hheld : l.engine.Held) {ok : Bool}
    (hworker : (l.engine.advance ok).worker = l.engine.worker)
    (hpeers : ((l.engine.advance ok).current, (l.engine.advance ok).captured) =
      (l.engine.current, l.engine.captured))
    (hnext : ∀ stage', (l.engine.advance ok).call = some (.prepareOffer stage') →
      stage' ≠ .offering ∧ (stage'.arming = true → ∃ stage,
        l.engine.call = some (.prepareOffer stage) ∧ stage.arming = true ∧
          (stage' = .loadGeneration ∨ stage ≠ .setConnecting ∧ stage ≠ .loadGeneration))) :
    (l.advance ok).Served := by
  simp only [Prod.mk.injEq] at hpeers
  have hretains := RtcEngine.advance_retains l.engine ok
  refine h.passes hheld (b := .advance ok) hworker ⟨hpeers.1, hpeers.2, rfl, rfl⟩
    hretains.generation hretains.error l.fresh _ (fun stage' hstage' harming => ?_) fun hq =>
      Or.inr ⟨?_, ?_, ?_⟩
  · obtain ⟨stage, hcall, hwas, hcap⟩ := (hnext stage' hstage').2 harming
    obtain ⟨hnone, hcap'⟩ := h.arming stage hcall hwas
    refine ⟨hnone, ?_⟩
    rcases hcap with rfl | ⟨hne, hne'⟩
    · exact Or.inr (Or.inl rfl)
    · exact Or.inr (Or.inr ((hcap'.resolve_left hne).resolve_left hne'))
  · show l.answering (l.engine.advance ok).current = false
    rw [hpeers.1]
    exact hq.1
  · show (l.offered || decide (l.engine.call = some (.prepareOffer .offering) ∧ ok = true)) = false
    rw [hq.2.1, decide_eq_false fun hc => hq.2.2 hc.1]
    rfl
  · exact fun hoffering => (hnext _ hoffering).1 rfl

/-- The cell of the next peer. -/
theorem Served.resetState (h : l.Served) (hp : l.Phased)
    (hcall : l.engine.call = some (.prepareOffer .resetState)) :
    Served { l with engine := { l.engine with
      current := l.engine.current + 1
      cell := Function.update l.engine.cell (l.engine.current + 1) .closed
      call := some (.prepareOffer .setConnecting) } } := by
  have hnone : l.engine.worker (l.engine.current + 1) = none := by
    by_contra hsome
    obtain ⟨w, hw⟩ := Option.ne_none_iff_exists'.mp hsome
    exact absurd (h.spawned _ w hw).1 (Nat.not_succ_le_self _)
  have hno : ∀ w, l.engine.worker (l.engine.current + 1) ≠ some w := by
    rw [hnone]
    simp
  refine ⟨fun n w hw => ⟨Nat.le_succ_of_le (h.spawned n w hw).1, (h.spawned n w hw).2⟩,
    fun stage hstage _ => ⟨hnone, Or.inl ?_⟩, h.accounts, h.accepted, h.unused,
    fun _ w hw => absurd hw (hno w), fun w hw => absurd hw (hno w),
    fun _ w hw => absurd hw (hno w), fun x hx => absurd ((h.idle hp hcall).symm.trans hx) (by simp)⟩
  exact (Call.prepareOffer.inj (Option.some_inj.mp hstage)).symm

/-- The peer captures the generation, and has no worker yet. -/
theorem Served.loadGeneration (h : l.Served) (hp : l.Phased)
    (hcall : l.engine.call = some (.prepareOffer .loadGeneration)) :
    Served { l with engine := { l.engine with
      captured := Function.update l.engine.captured l.engine.current
        (some l.engine.ingressGeneration)
      call := some (.prepareOffer .createPeer) } } := by
  have hnone := (h.arming _ hcall rfl).1
  have hne : ∀ n w, l.engine.worker n = some w → n ≠ l.engine.current := by
    rintro n w hw rfl
    exact absurd (hnone.symm.trans hw) (by simp)
  have hcap : ∀ n w, l.engine.worker n = some w → Function.update l.engine.captured
      l.engine.current (some l.engine.ingressGeneration) n = l.engine.captured n :=
    fun n w hw => Function.update_of_ne (hne n w hw) ..
  refine ⟨fun n w hw => ⟨(h.spawned n w hw).1, ?_⟩, fun stage hstage _ =>
    ⟨hnone, Or.inr (Or.inr ?_)⟩, fun n w hw => ?_, fun n w g hw hg => ?_, fun g hg => ?_,
    fun _ w hw => absurd rfl (hne _ w hw), fun w hw => absurd rfl (hne _ w hw),
    fun _ w hw => absurd rfl (hne _ w hw), fun x hx => ?_⟩
  · exact (hcap n w hw).trans_ne (h.spawned n w hw).2
  · show Function.update l.engine.captured l.engine.current _ l.engine.current ≠ none
    rw [Function.update_self]
    simp
  · show w.Accounts (Function.update l.engine.captured l.engine.current _ n)
    rw [hcap n w hw]
    exact h.accounts n w hw
  · exact h.accepted n w g hw ((hcap n w hw).symm.trans hg)
  · exact h.unused g fun n w hw hc => hg n w hw ((hcap n w hw).trans hc)
  · exact absurd ((h.idle hp hcall).symm.trans hx) (by simp)

/-- The worker of the peer, which nothing was accepted for. -/
theorem Served.installs (h : l.Served) (hp : l.Phased)
    (hcall : l.engine.call = some (.prepareOffer .installCommands)) {e' : RtcEngine}
    (hworker : e'.worker = Function.update l.engine.worker l.engine.current (some .spawned))
    (hpeers : (e'.current, e'.captured, e'.ingressGeneration) =
      (l.engine.current, l.engine.captured, l.engine.ingressGeneration))
    (hnext : e'.call = some (.prepareOffer .offering)) : Served { l with engine := e' } := by
  simp only [Prod.mk.injEq] at hpeers
  obtain ⟨hcurrent, hcaptured, hgeneration⟩ := hpeers
  obtain ⟨hnone, hcap⟩ := h.arming _ hcall rfl
  have hcap : l.engine.captured l.engine.current ≠ none :=
    (hcap.resolve_left (by simp)).resolve_left (by simp)
  -- The new worker is the current peer's, and it has accepted nothing.
  have hat : ∀ n w, e'.worker n = some w → n = l.engine.current ∧ w = .spawned ∨
      n ≠ l.engine.current ∧ l.engine.worker n = some w := by
    rw [hworker]
    exact fun n w => Table.of_update
  have hself : ∀ w, e'.worker e'.current = some w → w = .spawned := by
    rw [hcurrent]
    exact fun w hw => (hat _ w hw).elim And.right fun hw => absurd rfl hw.1
  refine ⟨fun n w hw => ?_, fun stage hstage harming => ?_, fun n w hw => ?_,
    fun n w g hw hg => ?_, fun g hg => ?_, fun _ w hw => ?_, fun w hw hab => ?_,
    fun _ w hw hs => ?_, fun x hx => absurd ((h.idle hp hcall).symm.trans hx) (by simp)⟩
  · rw [hcurrent, hcaptured]
    rcases hat n w hw with ⟨rfl, -⟩ | ⟨-, hw⟩
    · exact ⟨le_refl _, hcap⟩
    · exact h.spawned n w hw
  · rw [← Call.prepareOffer.inj (Option.some_inj.mp (hnext.symm.trans hstage))] at harming
    exact absurd harming (by simp [PrepareStage.arming])
  · rcases hat n w hw with ⟨-, rfl⟩ | ⟨-, hw⟩
    · exact ⟨fun _ => rfl, List.prefix_rfl, fun _ _ hs => absurd hs (by simp [Worker.spawned]),
        fun _ hx => absurd hx (by simp [Worker.spawned])⟩
    · rw [hcaptured]
      exact h.accounts n w hw
  · rw [hcaptured] at hg
    rcases hat n w hw with ⟨rfl, rfl⟩ | ⟨-, hw⟩
    · -- no other peer has this generation
      refine h.unused g fun m v hv hcap' => ?_
      rcases lt_or_eq_of_le (h.spawned m v hv).1 with hm | rfl
      · exact absurd (hp.rising m _ g g hm hcap' hg) (lt_irrefl _)
      · exact absurd (hnone.symm.trans hv) (by simp)
    · exact h.accepted n w g hw hg
  · refine h.unused g fun n w hw hcap' => ?_
    have hn : n ≠ l.engine.current := by
      rintro rfl
      exact absurd (hnone.symm.trans hw) (by simp)
    rw [hworker, hcaptured] at hg
    exact hg n w ((Function.update_of_ne hn ..).trans hw) hcap'
  · rw [hself w hw]
    rfl
  · rw [hself w hw] at hab
    exact absurd hab (by simp [Worker.spawned])
  · rw [hself w hw] at hs
    exact absurd hs (by simp [Worker.spawned])

theorem run_worker (e : RtcEngine) (r : Run) : (e.run r).1.worker = e.worker := by
  cases r with
  | enter => rfl
  | wait =>
    rw [RtcEngine.run]
    split <;> rfl

theorem Served.plain (h : l.Served) (hheld : l.engine.Held) {stage : PrepareStage}
    (hcall : l.engine.call = some (.prepareOffer stage)) (hplain : stage.plain = true)
    (ok : Bool) : (l.advance ok).Served := by
  obtain ⟨-, -, -, hload⟩ := PrepareStage.plain_late hplain
  obtain ⟨hsame, stage', hnext, -, hlast, hconnecting⟩ := l.engine.prepareOffer_plain ok hplain
  simp only [Prod.mk.injEq] at hsame
  obtain ⟨hcurrent, hcaptured, -, -, hworker⟩ := hsame
  have hadvance := RtcEngine.advance_prepareOffer hcall ok
  rw [hnext] at hadvance
  refine h.moves hheld (by rw [hadvance]; exact hworker)
    (by rw [hadvance]; exact congrArg₂ Prod.mk hcurrent hcaptured) fun stage₁ hstage₁ => ?_
  rw [hadvance] at hstage₁
  obtain rfl := Call.prepareOffer.inj (Option.some_inj.mp hstage₁)
  refine ⟨hlast, fun _ => ⟨stage, hcall, PrepareStage.plain_arming hplain, ?_⟩⟩
  by_cases hset : stage = .setConnecting
  · exact Or.inl (hconnecting hset)
  · exact Or.inr ⟨hset, hload⟩

/-- `prepare_offer` waits for a close. -/
theorem Served.waiting (h : l.Served) (hheld : l.engine.Held) {ok : Bool} (r : Run)
    (next : Option PrepareStage)
    (hadvance : l.engine.advance ok =
      { (l.engine.run r).1 with call := next.map .prepareOffer })
    (hnext : ∀ stage', next = some stage' → stage' ≠ .offering ∧ stage'.arming = false) :
    (l.advance ok).Served := by
  have hsame := RtcEngine.run_same l.engine r
  refine h.moves hheld (by rw [hadvance]; exact run_worker l.engine r)
    (by rw [hadvance]; exact congrArg₂ Prod.mk hsame.current hsame.captured)
    fun stage' hstage' => ?_
  rw [hadvance] at hstage'
  obtain ⟨stage₁, hsome, heq⟩ := Option.map_eq_some_iff.mp hstage'
  obtain rfl := Call.prepareOffer.inj heq
  obtain ⟨hne, harming⟩ := hnext _ hsome
  exact ⟨hne, fun ha => absurd (harming.symm.trans ha) (by simp)⟩

theorem Served.advance (h : l.Served) (hp : l.Phased) (hheld : l.engine.Held) (ok : Bool) :
    (l.advance ok).Served := by
  rcases hcall : l.engine.call with _ | call
  · have hadvance : l.engine.advance ok = l.engine := by
      rw [RtcEngine.advance.eq_def, hcall]
    refine h.moves hheld (by rw [hadvance]) (by rw [hadvance]) fun stage' hstage' => ?_
    rw [hadvance, hcall] at hstage'
    exact absurd hstage' (by simp)
  cases call with
  | prepareOffer stage =>
    have hadvance := RtcEngine.advance_prepareOffer hcall ok
    cases stage with
    | resetState =>
      rw [advance_next hcall (by simp)]
      exact h.resetState hp hcall
    | loadGeneration =>
      rw [advance_next hcall (by simp)]
      exact h.loadGeneration hp hcall
    | installCommands =>
      rw [advance_next hcall (by simp), RtcEngine.prepareOffer_installCommands hheld.tidy hcall]
      exact h.installs hp hcall rfl rfl rfl
    | closing r =>
      rw [RtcEngine.prepareOffer_closing] at hadvance
      refine h.waiting hheld r _ hadvance fun stage' hstage' => ?_
      rw [← Option.some_inj.mp hstage']
      cases (l.engine.run r).2 with
      | none => exact ⟨by simp, rfl⟩
      | some r' => exact ⟨by simp, rfl⟩
    | failing r =>
      rw [RtcEngine.prepareOffer_failing] at hadvance
      refine h.waiting hheld r _ hadvance fun stage' hstage' => ?_
      obtain ⟨r', -, rfl⟩ := Option.map_eq_some_iff.mp hstage'
      exact ⟨by simp, rfl⟩
    | offering =>
      -- it returns, or waits for its close
      refine h.moves hheld (by rw [hadvance]; rfl) (by rw [hadvance]; rfl) fun stage' hstage' => ?_
      rw [hadvance] at hstage'
      obtain ⟨stage₁, hsome, heq⟩ := Option.map_eq_some_iff.mp hstage'
      obtain rfl := Call.prepareOffer.inj heq
      cases ok with
      | true => exact absurd hsome (by simp [RtcEngine.prepareOffer])
      | false =>
        obtain rfl : PrepareStage.failing .enter = stage₁ := Option.some_inj.mp hsome
        exact ⟨by simp, fun ha => absurd ha (by simp [PrepareStage.arming])⟩
    | setConnecting | createPeer | setup | storeConnection | storeChannel | storeAudio =>
      exact h.plain hheld hcall rfl ok
  | applyAnswer described =>
    have hadvance : ∃ call answered, l.engine.advance ok = { l.engine with call, answered } ∧
        ∀ stage, call ≠ some (.prepareOffer stage) := by
      rw [RtcEngine.advance.eq_def, hcall]
      cases described with
      | false =>
        dsimp only
        split
        · exact ⟨_, _, rfl, by simp⟩
        · split
          · exact ⟨_, _, rfl, by simp⟩
          · exact ⟨_, _, rfl, by simp⟩
      | true =>
        dsimp only
        split
        · exact ⟨_, _, rfl, by simp⟩
        · exact ⟨_, _, rfl, by simp [hcall]⟩
    obtain ⟨call, answered, hadvance, hnot⟩ := hadvance
    refine h.moves hheld (by rw [hadvance]) (by rw [hadvance]) fun stage' hstage' => ?_
    rw [hadvance] at hstage'
    exact absurd hstage' (hnot stage')
  | close r =>
    have hsame := RtcEngine.run_same l.engine r
    have hadvance := RtcEngine.advance_close hcall ok
    refine h.moves hheld ?_ ?_ fun stage' hstage' => ?_
    · rw [hadvance]
      exact run_worker l.engine r
    · rw [hadvance]
      exact congrArg₂ Prod.mk hsame.current hsame.captured
    · rw [hadvance] at hstage'
      obtain ⟨r', -, hc⟩ := Option.map_eq_some_iff.mp hstage'
      exact absurd hc (by simp)

theorem step_served (h : l.Served) (hp : l.Phased) (hheld : l.engine.Held) (a : Action) :
    (l.step a).Served := by
  cases a with
  | send command =>
    rw [step]
    split
    next hopen => exact h.send hp hheld hopen.2.2 command
    next => exact h
  | cloneSender =>
    rw [step.eq_def]
    dsimp only
    split
    next command hsending => exact h.cloneSender hheld hsending
    next => exact h
  | trySend =>
    rw [step.eq_def]
    dsimp only
    split
    next command n hsending => exact h.trySend hp hsending
    next => exact h
  | bumpSession =>
    rw [step]
    split
    next hfree => exact h.bumpSession hp hfree
    next => exact h
  | prepareIngress =>
    rw [step]
    split
    next hready =>
      have hsame : l.engine.setIngressGeneration l.sessionId =
          { l.engine with transportError := none } := by
        rw [RtcEngine.setIngressGeneration]
        exact if_neg (not_not.mpr hp.session)
      rw [hsame]
      exact h.prepareIngress (hp.stale (Or.inl hready.2.1))
    next => exact h
  | takeTransportError => exact h.takeTransportError
  | engine a =>
    rw [step]
    split
    next hpermits =>
      cases a with
      | setIngressGeneration generation | takeTransportError | trySend n command =>
        exact absurd hpermits (by simp [permits])
      | fire n event => exact h.fire hheld n event
      | apply i => exact h.apply hheld i
      | worker n ok room ends => exact h.worker hheld n ok room ends
      | begin call => exact h.begin hp hheld hpermits
      | advance ok => exact h.advance hp hheld ok
      | cancel => exact h.cancel hheld
      | cleanup => exact h.cleanup hp hheld
    next => exact h

/-- What holds in every state of a run. -/
structure Kept (l : Link) : Prop where
  held : l.engine.Held
  phased : l.Phased
  served : l.Served

theorem run_kept (sessionId : ℕ) (as : List Action) : Kept (Runs.run step (init sessionId) as) :=
  Runs.run_invariant (I := Kept)
    (fun _ a h => ⟨step_held h.held a, step_phased h.phased h.held a,
      step_served h.served h.phased h.held a⟩) as
    ⟨init_held sessionId, init_phased sessionId, init_served sessionId⟩

theorem Phased.captured_inj (h : l.Phased) {n m g : ℕ} (hn : l.engine.captured n = some g)
    (hm : l.engine.captured m = some g) : n = m := by
  rcases lt_trichotomy n m with hlt | heq | hlt
  · exact absurd (h.rising n m g g hlt hn hm) (lt_irrefl g)
  · exact heq
  · exact absurd (h.rising m n g g hlt hm hn) (lt_irrefl g)

/-- The peer of the current generation is the last one. -/
theorem Phased.current_of_session (h : l.Phased) (hheld : l.engine.Held) {n : ℕ}
    (hn : l.engine.captured n = some l.sessionId) : n = l.engine.current := by
  rcases lt_trichotomy n l.engine.current with hlt | heq | hgt
  · exact absurd (h.past n _ hlt hn) (h.session ▸ lt_irrefl _)
  · exact heq
  · exact absurd ((hheld.armed.fresh n hgt).symm.trans hn) (by simp)

/-- The router fails every request when it processes the fault of its generation. -/
theorem fault_fails_pending (p : Platform) (env : Env) (s : Service) (error : String) :
    (s.processIngress p env ⟨s.sessionId, .transportFault error⟩).pendingCallbacks = ∅ ∧
    ∀ key callback, s.pendingCallbacks.lookup key = some callback →
      .complete callback.token (.error error) ∈
        s.handed (s.processIngress p env ⟨s.sessionId, .transportFault error⟩) := by
  have hfault : s.processIngress p env ⟨s.sessionId, .transportFault error⟩ =
      s.handleFault error := if_neg (not_not.mpr rfl)
  rw [hfault]
  refine ⟨rfl, fun key callback hkey => ?_⟩
  have heffects : (s.handleFault error).effects = s.effects ++
      ([.setIngressGeneration (s.sessionId + 1)] ++
        s.pendingCallbacks.values.map fun callback => .complete callback.token (.error error)) :=
    List.append_assoc ..
  rw [Service.handed_append heffects]
  refine List.mem_append_right _ (List.mem_map.mpr ⟨callback, ?_, rfl⟩)
  exact Table.mem_values_iff.mpr ⟨key, hkey⟩

/-- No outbound command is reordered, duplicated, sent into another session or lost in
silence.  In every run, with any answer of the data channel: a generation has one peer.
What is handed to its data channel is a prefix of what was accepted in the session of
that number, each command after a check that found this generation current and the
state open, and the rest is in the hands or the queue of the worker as long as that
receives.  A worker that stops early in the current session has recorded a fault, which
is retained or with the router; the ready state is closed; and the router fails every
pending request with it. -/
theorem commands_in_order (sessionId : ℕ) (as : List Action) :
    let l := Runs.run step (init sessionId) as
    (∀ n m g, l.engine.captured n = some g → l.engine.captured m = some g → n = m) ∧
    (∀ g, l.accepted g ≠ [] → ∃ n w, l.engine.worker n = some w ∧ l.engine.captured n = some g) ∧
    (∀ n w g, l.engine.worker n = some w → l.engine.captured n = some g →
      w.sent <+: l.accepted g ∧
      (∀ h ∈ w.handed, h.2.1 = g ∧ h.2.2 = .opened) ∧
      (w.stage.receives = true → l.accepted g = w.sent ++ w.stage.inHand ++ w.queue) ∧
      (w.stage = .stopped → g = l.sessionId → w.sent ≠ l.accepted g →
        .fault g ∈ l.engine.log ∧ l.engine.readyState = .closed ∧
          (l.engine.transportError = some g ∨ g ∈ l.taken))) ∧
    ∀ p env (s : Service) error,
      (s.processIngress p env ⟨s.sessionId, .transportFault error⟩).pendingCallbacks = ∅ ∧
      ∀ key callback, s.pendingCallbacks.lookup key = some callback →
        .complete callback.token (.error error) ∈
          s.handed (s.processIngress p env ⟨s.sessionId, .transportFault error⟩) := by
  intro l
  obtain ⟨hheld, hphased, hserved⟩ := run_kept sessionId as
  refine ⟨fun n m g => hphased.captured_inj, fun g hg => ?_, fun n w g hw hg => ?_,
    fault_fails_pending⟩
  · by_contra hnone
    exact hg (hserved.unused g fun n w hw hc => hnone ⟨n, w, hw, hc⟩)
  · have ha := hserved.accounts n w hw
    have haccepted := hserved.accepted n w g hw hg
    rw [haccepted]
    refine ⟨ha.sent, fun h hh => ?_, ha.kept, fun hstopped hsession hearly => ?_⟩
    · obtain ⟨hcap, hopen⟩ := ha.seen h hh
      exact ⟨Option.some_inj.mp (hcap.symm.trans hg), hopen⟩
    · subst hsession
      obtain rfl := hphased.current_of_session hheld hg
      rw [← hphased.session] at hg ⊢
      have hfaulted := (hserved.ended hg w hw hstopped).resolve_left hearly
      exact ⟨hfaulted.fault, hfaulted.closed, hfaulted.retained⟩

/-- A command of session 4 on its way: reset, offer, answer, opening, and a worker that
hands it over. -/
example :
    let l := Runs.run step (init 3) (List.flatten [
      [.bumpSession, .engine (.begin (.prepareOffer (.closing .enter))), .engine (.advance true)],
      List.replicate 9 (.engine .cleanup), List.replicate 12 (.engine (.advance true)),
      [.engine (.begin (.applyAnswer false)), .engine (.advance true),
        .engine (.fire 1 .channelOpened), .engine (.apply 0),
        .send (.text "stand"), .cloneSender, .trySend],
      List.replicate 4 (.engine (.worker 1 true true false))])
    l.accepted 4 = [.text "stand"] ∧
      (l.engine.worker 1).map Worker.sent = some [.text "stand"] := by
  decide +kernel

end Link

end Unitree
