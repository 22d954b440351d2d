/-
Readiness and faults of the transport.

Readers see the cell of the last `prepare_offer`.  Callbacks of any peer, faults of
its command worker, closes, offers and changes of the generation write to cells in
any order, and a callback checks the generation before it writes.  `Transport` is
what these writes are about, and its steps are all there is; the engine is shown to
make no others.

* `Transport.Step` — the writes;
* `step_transport` — every step of the engine is one of them;
* `Transport.Sound` — the retained fault is of the current generation, and an open
  cell was opened by the last peer, with nothing that ends it since;
* `ready_state_sound` — hence for every run of the engine.
-/
import UnitreeWebrtc.Teardown

namespace Unitree

structure Transport where
  generation : ℕ
  current : ℕ
  cell : ℕ → RtcReadyState
  captured : ℕ → Option ℕ
  transportError : Option ℕ
  log : List Event

namespace Transport

/-- Store a state in the cell that readers see. -/
def set (t : Transport) (state : RtcReadyState) : Transport :=
  { t with cell := Function.update t.cell t.current state }

def record (t : Transport) (event : Event) : Transport := { t with log := t.log ++ [event] }

inductive Step : Transport → Transport → Prop where
  | idle (t) : Step t t
  | takeTransportError (t) : Step t { t with transportError := none }
  | setIngressGeneration (t generation) (h : t.generation ≠ generation) :
      Step t ((set { t with generation, transportError := none } .closed).record .generationChanged)
  | close (t) : Step t ((t.set .closed).record .engineClosed)
  | closeReturned (t) : Step t (t.record .closeReturned)
  | reset (t) : Step t { t with
      current := t.current + 1
      cell := Function.update t.cell (t.current + 1) .closed }
  | connecting (t) (h : t.captured t.current = none) :
      Step t ((t.set .connecting).record (.connecting t.current))
  | capture (t) : Step t { t with
      captured := Function.update t.captured t.current (some t.generation) }
  /-- A callback that finds another generation. -/
  | refused (t n event) (h : t.captured n ≠ some t.generation) :
      Step t (t.record (.callback n event))
  | callback (t n event) (h : t.captured n ≠ none) :
      Step t (record { t with cell := Function.update t.cell n (applyEvent (t.cell n) event) }
        (.callback n event))
  /-- The worker of the peer that readers see. -/
  | fault (t) (h : t.captured t.current = some t.generation) :
      Step t ((set { t with transportError := some t.generation } .closed).record
        (.fault t.generation))

/-! ### What is open -/

/-- Neither closed nor failed. -/
def Alive (state : RtcReadyState) : Prop := state ≠ .closed ∧ state ≠ .failed

/-- What ends the readiness of a peer with this cell and generation. -/
def Ends (n generation : ℕ) : Event → Prop
  | .callback m event =>
    m = n ∧ (event = .channelClosed ∨ event = .peerClosed ∨ event = .peerFailed)
  | .engineClosed | .generationChanged | .connecting _ => True
  | .fault g => g = generation
  | .closeReturned => False

/-- `Connecting` was set for the current cell, and for no other one since. -/
def Offered (t : Transport) (since : List Event) : Prop :=
  ∃ before, t.log = before ++ .connecting t.current :: since ∧ ∀ n, .connecting n ∉ since

/-- After that the channel of the peer opened, and nothing has ended it since. -/
def OpenedSince (t : Transport) : Prop :=
  t.captured t.current = some t.generation ∧ ∃ offered since,
    t.Offered (offered ++ .callback t.current .channelOpened :: since) ∧
    ∀ event ∈ since, ¬ Ends t.current t.generation event

structure Sound (t : Transport) : Prop where
  error : ∀ g, t.transportError = some g → g = t.generation
  captured : Alive (t.cell t.current) → ∀ g, t.captured t.current = some g → g = t.generation
  connecting : t.cell t.current = .connecting → ∃ since, t.Offered since
  opened : t.cell t.current = .opened ∨ t.cell t.current = .disconnected → t.OpenedSince

variable {t t' : Transport}

theorem not_alive_closed : ¬ Alive .closed := fun h => h.1 rfl

/-- A closed cell says nothing. -/
theorem Sound.of_closed (herror : ∀ g, t.transportError = some g → g = t.generation)
    (hclosed : t.cell t.current = .closed) : t.Sound where
  error := herror
  captured h := absurd (hclosed ▸ h) not_alive_closed
  connecting h := absurd (hclosed.symm.trans h) (by simp)
  opened h := by
    rcases h with h | h
    · exact absurd (hclosed.symm.trans h) (by simp)
    · exact absurd (hclosed.symm.trans h) (by simp)

theorem Offered.record {since : List Event} (h : t.Offered since) {event : Event}
    (hne : ∀ n, event ≠ .connecting n) : (t.record event).Offered (since ++ [event]) := by
  obtain ⟨before, hlog, hsince⟩ := h
  refine ⟨before, ?_, fun n hn => ?_⟩
  · show t.log ++ [event] = _
    rw [hlog]
    simp [Transport.record]
  · rcases List.mem_append.mp hn with hn | hn
    · exact hsince n hn
    · exact hne n (List.mem_singleton.mp hn).symm

theorem OpenedSince.record (h : t.OpenedSince) {event : Event}
    (hends : ¬ Ends t.current t.generation event) : (t.record event).OpenedSince := by
  obtain ⟨hcaptured, offered, since, hoffered, hsince⟩ := h
  refine ⟨hcaptured, offered, since ++ [event], ?_, fun ev hev => ?_⟩
  · have hrecord : (t.record event).Offered
        ((offered ++ .callback t.current .channelOpened :: since) ++ [event]) :=
      hoffered.record (fun n hn => hends (by rw [hn]; trivial))
    rw [List.append_assoc, List.cons_append] at hrecord
    exact hrecord
  · rcases List.mem_append.mp hev with hev | hev
    · exact hsince ev hev
    · rw [List.mem_singleton.mp hev]
      exact hends

/-- An event that ends nothing, with the same cell. -/
theorem Sound.record (h : t.Sound) {event : Event} (hne : ∀ n, event ≠ .connecting n)
    (hends : t.captured t.current = some t.generation → Alive (t.cell t.current) →
      ¬ Ends t.current t.generation event) : (t.record event).Sound where
  error := h.error
  captured := h.captured
  connecting hc := by
    obtain ⟨since, hsince⟩ := h.connecting hc
    exact ⟨since ++ [event], hsince.record hne⟩
  opened ho := by
    have hopened := h.opened ho
    refine hopened.record (hends hopened.1 ?_)
    rcases ho with ho | ho
    · change t.cell t.current = _ at ho
      rw [ho]
      exact ⟨by simp, by simp⟩
    · change t.cell t.current = _ at ho
      rw [ho]
      exact ⟨by simp, by simp⟩

/-! ### The steps keep it -/

theorem applyEvent_alive {state : RtcReadyState} {event : RtcStateEvent}
    (h : Alive (applyEvent state event)) : Alive state := by
  by_contra hdead
  have hstate : state = .closed ∨ state = .failed := by
    cases state <;>
      first | exact Or.inl rfl | exact Or.inr rfl | exact absurd ⟨by simp, by simp⟩ hdead
  rw [applyEvent.eq_def, if_pos hstate] at h
  exact hdead h

theorem applyEvent_connecting {state : RtcReadyState} {event : RtcStateEvent}
    (h : applyEvent state event = .connecting) : state = .connecting := by
  cases state <;> cases event <;> first | rfl | exact absurd h (by decide)

/-- A cell is open after an event if the event opened it, or it was before and the
event does not end it. -/
theorem applyEvent_opened {state : RtcReadyState} {event : RtcStateEvent}
    (h : applyEvent state event = .opened ∨ applyEvent state event = .disconnected) :
    state = .connecting ∧ event = .channelOpened ∨
      (state = .opened ∨ state = .disconnected) ∧
        ¬ (event = .channelClosed ∨ event = .peerClosed ∨ event = .peerFailed) := by
  cases state <;> cases event <;> first
    | exact absurd h (by decide)
    | exact Or.inl ⟨rfl, rfl⟩
    | exact Or.inr ⟨Or.inl rfl, by simp⟩
    | exact Or.inr ⟨Or.inr rfl, by simp⟩

/-- A callback of the peer that readers see. -/
theorem Sound.callback (h : t.Sound) {event : RtcStateEvent}
    (hcaptured : t.captured t.current ≠ none) :
    (Transport.record { t with
      cell := Function.update t.cell t.current (applyEvent (t.cell t.current) event) }
      (.callback t.current event)).Sound := by
  obtain ⟨g, hg⟩ := Option.ne_none_iff_exists'.mp hcaptured
  have hcell : Function.update t.cell t.current (applyEvent (t.cell t.current) event) t.current =
      applyEvent (t.cell t.current) event := Function.update_self ..
  refine ⟨h.error, fun halive => ?_, fun hc => ?_, fun ho => ?_⟩
  · have halive' : Alive (applyEvent (t.cell t.current) event) := by
      rw [← hcell]
      exact halive
    exact h.captured (applyEvent_alive halive')
  · obtain ⟨since, before, hlog, hsince⟩ :=
      h.connecting (applyEvent_connecting (hcell.symm.trans hc))
    have hoffered : Offered { t with
        cell := Function.update t.cell t.current (applyEvent (t.cell t.current) event) } since :=
      ⟨before, hlog, hsince⟩
    exact ⟨_, hoffered.record (by simp)⟩
  · have ho' := applyEvent_opened (ho.imp hcell.symm.trans hcell.symm.trans)
    rcases ho' with ⟨hconnecting, rfl⟩ | ⟨hopen, hkeeps⟩
    · -- the channel opens
      obtain ⟨since, before, hlog, hsince⟩ := h.connecting hconnecting
      have hgeneration := h.captured (by rw [hconnecting]; exact ⟨by simp, by simp⟩) g hg
      refine ⟨hg.trans (congrArg some hgeneration), since, [], ⟨before, ?_, ?_⟩, by simp⟩
      · show t.log ++ [_] = _
        rw [hlog]
        simp [Transport.record]
      · intro n hn
        rcases List.mem_append.mp hn with hn | hn
        · exact hsince n hn
        · exact absurd (List.mem_singleton.mp hn) (by simp)
    · obtain ⟨hcap, offered, since, ⟨before, hlog, hconn⟩, hsince⟩ := h.opened hopen
      have hopened : OpenedSince { t with
          cell := Function.update t.cell t.current (applyEvent (t.cell t.current) event) } :=
        ⟨hcap, offered, since, ⟨before, hlog, hconn⟩, hsince⟩
      exact hopened.record (fun hends => hkeeps hends.2)

theorem step_sound (hstep : Step t t') (h : t.Sound) : t'.Sound := by
  cases hstep with
  | idle => exact h
  | takeTransportError =>
      exact ⟨fun g hg => absurd hg (by simp), h.captured, h.connecting, h.opened⟩
  | setIngressGeneration generation _ =>
    -- A new generation closes the cell and takes the fault away.
    exact .of_closed (fun g hg => absurd hg (by simp [Transport.set, Transport.record]))
      (Function.update_self ..)
  | close => exact .of_closed h.error (Function.update_self ..)
  | closeReturned => exact h.record (by simp) (fun _ _ hends => hends)
  | reset => exact .of_closed h.error (Function.update_self ..)
  | connecting hnone =>
    have hcell : (t.set .connecting).cell t.current = .connecting := Function.update_self ..
    refine ⟨h.error, fun _ g hg => ?_, fun _ => ⟨[], t.log, rfl, by simp⟩, fun ho => ?_⟩
    · exact absurd (hnone.symm.trans hg) (by simp)
    · rcases ho with ho | ho
      · exact absurd (hcell.symm.trans ho) (by simp)
      · exact absurd (hcell.symm.trans ho) (by simp)
  | capture =>
    refine ⟨h.error, fun _ g hg => ?_, h.connecting, fun ho => ?_⟩
    · change Function.update t.captured t.current (some t.generation) t.current = some g at hg
      rw [Function.update_self, Option.some_inj] at hg
      exact hg.symm
    · obtain ⟨-, offered, since, ⟨before, hlog, hconn⟩, hsince⟩ := h.opened ho
      exact ⟨Function.update_self .., offered, since, ⟨before, hlog, hconn⟩, hsince⟩
  | refused n event hrefused =>
    -- A callback that is refused is of another generation.
    refine h.record (by simp) (fun hcaptured _ hends => ?_)
    rw [← hends.1] at hcaptured
    exact hrefused hcaptured
  | callback n event hcaptured =>
    by_cases hn : n = t.current
    · subst hn
      exact h.callback hcaptured
    · -- another peer's cell
      have hcell : Function.update t.cell n (applyEvent (t.cell n) event) t.current =
          t.cell t.current := Function.update_of_ne (Ne.symm hn) ..
      have hother : Sound { t with
          cell := Function.update t.cell n (applyEvent (t.cell n) event) } := by
        refine ⟨h.error, fun halive => h.captured ?_, fun hc => ?_, fun ho => ?_⟩
        · rw [← hcell]
          exact halive
        · obtain ⟨since, before, hlog, hsince⟩ := h.connecting (hcell.symm.trans hc)
          exact ⟨since, before, hlog, hsince⟩
        · obtain ⟨hcap, offered, since, ⟨before, hlog, hconn⟩, hsince⟩ :=
            h.opened (ho.imp hcell.symm.trans hcell.symm.trans)
          exact ⟨hcap, offered, since, ⟨before, hlog, hconn⟩, hsince⟩
      exact hother.record (by simp) (fun _ _ hends => hn hends.1)
  | fault _ =>
    exact .of_closed (fun g hg => (Option.some_inj.mp hg).symm) (Function.update_self ..)

/-- A cell that is closed or failed stays so until the next offer sets
`Connecting`. -/
theorem step_dead (hstep : Step t t') (hdead : ¬ Alive (t.cell t.current)) :
    ¬ Alive (t'.cell t'.current) ∨ ∃ n, t'.log = t.log ++ [.connecting n] := by
  cases hstep with
  | idle | takeTransportError | closeReturned | capture => exact Or.inl hdead
  | setIngressGeneration generation _ =>
    refine Or.inl ?_
    show ¬ Alive (Function.update t.cell t.current .closed t.current)
    rw [Function.update_self]
    exact not_alive_closed
  | close | fault =>
    refine Or.inl ?_
    show ¬ Alive (Function.update t.cell t.current .closed t.current)
    rw [Function.update_self]
    exact not_alive_closed
  | reset =>
    refine Or.inl ?_
    show ¬ Alive (Function.update t.cell (t.current + 1) .closed (t.current + 1))
    rw [Function.update_self]
    exact not_alive_closed
  | connecting => exact Or.inr ⟨t.current, rfl⟩
  | refused n event _ => exact Or.inl hdead
  | callback n event _ =>
    refine Or.inl fun halive => hdead ?_
    change Alive (Function.update t.cell n (applyEvent (t.cell n) event) t.current) at halive
    by_cases hn : n = t.current
    · subst hn
      rw [Function.update_self] at halive
      exact applyEvent_alive halive
    · rw [Function.update_of_ne (Ne.symm hn)] at halive
      exact halive

theorem step_log (hstep : Step t t') : ∃ new, t'.log = t.log ++ new := by
  cases hstep with
  | idle | takeTransportError | reset | capture => exact ⟨[], by simp⟩
  | _ => exact ⟨[_], rfl⟩

end Transport

namespace RtcEngine

variable {e : RtcEngine}

/-- What the writes of the engine are about. -/
def transport (e : RtcEngine) : Transport where
  generation := e.ingressGeneration
  current := e.current
  cell := e.cell
  captured := e.captured
  transportError := e.transportError
  log := e.log

/-- Peers capture a generation once, and only then have callbacks. -/
structure Armed (e : RtcEngine) : Prop where
  fresh : ∀ n, e.current < n → e.captured n = none
  uncaptured : e.call = some (.prepareOffer .setConnecting) ∨
    e.call = some (.prepareOffer .loadGeneration) → e.captured e.current = none
  callbacks : ∀ c ∈ e.callbacks, e.captured c.1 ≠ none

/-- A worker that has not ended belongs to the peer that readers see. -/
theorem Tidy.worker_current (h : e.Tidy) {n : ℕ} {w : Worker} (hw : e.worker n = some w)
    (hs : w.stage ≠ .stopped) : n = e.current := by
  rcases h.workers n w hw hs with hslot | hjoin
  · exact h.slots _ n hslot
  · exact h.peer _ hjoin n rfl

/-! ### Every step is a write of the transport -/

theorem setWorker_transport (e : RtcEngine) (n : ℕ) (w : Worker) :
    (e.setWorker n w).transport = e.transport := rfl

theorem abort_transport (e : RtcEngine) (n : ℕ) : (e.abort n).transport = e.transport := by
  rw [abort]
  split <;> rfl

theorem vacate_transport (e : RtcEngine) (k : Slot) : (e.vacate k).transport = e.transport := by
  rw [vacate]
  split <;> rfl

theorem workerStep_transport (h : e.Tidy) (n : ℕ) (ok room ends : Bool) :
    Transport.Step e.transport (e.workerStep n ok room ends).transport := by
  have hidle := Transport.Step.idle e.transport
  rw [workerStep]
  split
  · exact hidle
  next w hw =>
    split
    · split
      · exact hidle
      · split
        · exact hidle
        · split
          · exact hidle
          · exact hidle
    · split <;> exact hidle
    · split <;> exact hidle
    · split <;> exact hidle
    next hstage =>
      have hn : n = e.current := h.worker_current hw (by rw [hstage]; simp)
      rw [setWorker_transport, recordTransportFault]
      split
      · exact hidle
      next generation hcaptured =>
        split
        · exact hidle
        next hcurrent =>
          rw [not_not] at hcurrent
          subst hn hcurrent
          exact .fault e.transport hcaptured
    · exact hidle

theorem cleanup_transport (e : RtcEngine) :
    Transport.Step e.transport e.cleanup.transport := by
  have hidle := Transport.Step.idle e.transport
  rw [cleanup]
  split
  · exact hidle
  next stage _ =>
    show Transport.Step e.transport (e.closeInner stage).1.transport
    cases stage with
    | start | finish => exact .close e.transport
    | dropSender | dropAudio =>
      rw [closeInner, vacate_transport]
      exact hidle
    | takeTask =>
      rw [closeInner]
      split
      · exact hidle
      · rw [abort_transport]
        exact hidle
    | join n | takeResources =>
      rw [closeInner]
      split <;> exact hidle
    | takeChannel owned | takeConnection owned =>
      rw [closeInner.eq_def]
      dsimp only
      split
      · exact hidle
      · exact hidle
      · dsimp only
        split <;> exact hidle
    | closeResources n | closeChannel n | closeConnection n | done => exact hidle

theorem run_transport (e : RtcEngine) (r : Run) :
    Transport.Step e.transport (e.run r).1.transport := by
  cases r with
  | enter => exact .idle e.transport
  | wait =>
    rw [run]
    split
    · exact .closeReturned e.transport
    · exact .idle e.transport

theorem advance_transport (ha : e.Armed) (ok : Bool) :
    Transport.Step e.transport (e.advance ok).transport := by
  have hidle := Transport.Step.idle e.transport
  rw [advance.eq_def]
  split
  · exact hidle
  next stage hcall =>
    cases stage with
    | closing r =>
      rw [prepareOffer_closing]
      exact run_transport e r
    | failing r =>
      rw [prepareOffer_failing]
      exact run_transport e r
    | resetState => exact .reset e.transport
    | setConnecting => exact .connecting e.transport (ha.uncaptured (Or.inl hcall))
    | loadGeneration => exact .capture e.transport
    | createPeer =>
      dsimp only [prepareOffer]
      split <;> exact hidle
    | installCommands =>
      dsimp only [prepareOffer]
      split
      · show Transport.Step e.transport (RtcEngine.abort _ _).transport
        rw [abort_transport]
        exact hidle
      · exact hidle
    | _ => exact hidle
  next =>
    split
    · exact hidle
    · split <;> exact hidle
  next => split <;> exact hidle
  next r _ => exact run_transport e r

/-- The engine only makes the steps of the transport. -/
theorem step_transport (h : e.Tidy) (ha : e.Armed) (a : Action) :
    Transport.Step e.transport (e.step a).transport := by
  have hidle := Transport.Step.idle e.transport
  cases a with
  | setIngressGeneration generation =>
    rw [step, setIngressGeneration]
    dsimp only
    split
    next hne => exact .setIngressGeneration e.transport generation hne
    next => exact .takeTransportError e.transport
  | takeTransportError => exact .takeTransportError e.transport
  | fire n event =>
    rw [step, fire]
    split
    · exact hidle
    next generation hcaptured =>
      split
      next hne =>
        refine .refused e.transport n event fun heq => hne ?_
        exact Option.some_inj.mp (hcaptured.symm.trans heq)
      next => exact hidle
  | apply i =>
    rw [step, apply]
    split
    · exact hidle
    next n event hi =>
      exact .callback e.transport n event (ha.callbacks (n, event) (List.mem_of_getElem? hi))
  | trySend n command =>
    rw [step, trySend]
    split
    · exact hidle
    · split <;> exact hidle
  | worker n ok room ends => exact workerStep_transport h n ok room ends
  | begin call =>
    rw [step, begin]
    split <;> exact hidle
  | advance ok => exact advance_transport ha ok
  | cancel =>
    rw [step, cancel]
    split
    · exact hidle
    · split <;> exact hidle
  | cleanup => exact cleanup_transport e

/-! ### Captured generations -/

/-- The peers and the calls are the same. -/
structure SamePeers (e e' : RtcEngine) : Prop where
  current : e'.current = e.current
  captured : e'.captured = e.captured
  callbacks : e'.callbacks = e.callbacks
  call : e'.call = e.call

theorem SamePeers.refl (e : RtcEngine) : SamePeers e e := ⟨rfl, rfl, rfl, rfl⟩

theorem SamePeers.trans {e₁ e₂ e₃ : RtcEngine} (h : SamePeers e₁ e₂) (h' : SamePeers e₂ e₃) :
    SamePeers e₁ e₃ :=
  ⟨h'.current.trans h.current, h'.captured.trans h.captured, h'.callbacks.trans h.callbacks,
    h'.call.trans h.call⟩

theorem Armed.same {e' : RtcEngine} (h : e.Armed) (hs : SamePeers e e') : e'.Armed where
  fresh := by rw [hs.current, hs.captured]; exact h.fresh
  uncaptured := by rw [hs.call, hs.current, hs.captured]; exact h.uncaptured
  callbacks := by rw [hs.callbacks, hs.captured]; exact h.callbacks

/-- The call goes on, but not in the middle of `prepare_offer`. -/
theorem Armed.calling (h : e.Armed) {call : Option Call}
    (hcall : call ≠ some (.prepareOffer .setConnecting) ∧
      call ≠ some (.prepareOffer .loadGeneration)) : Armed { e with call } where
  fresh := h.fresh
  uncaptured hc := absurd hc (by rw [not_or]; exact hcall)
  callbacks := h.callbacks

theorem setWorker_same (e : RtcEngine) (n : ℕ) (w : Worker) : SamePeers e (e.setWorker n w) :=
  ⟨rfl, rfl, rfl, rfl⟩

theorem abort_same (e : RtcEngine) (n : ℕ) : SamePeers e (e.abort n) := by
  rw [abort]
  split
  · exact SamePeers.refl e
  · exact setWorker_same e n _

theorem vacate_same (e : RtcEngine) (k : Slot) : SamePeers e (e.vacate k) := by
  rw [vacate]
  split <;> exact ⟨rfl, rfl, rfl, rfl⟩

theorem recordTransportFault_same (e : RtcEngine) (n : ℕ) (room : Bool) :
    SamePeers e (e.recordTransportFault n room) := by
  rw [recordTransportFault]
  split
  · exact SamePeers.refl e
  · split <;> exact ⟨rfl, rfl, rfl, rfl⟩

theorem workerStep_same (e : RtcEngine) (n : ℕ) (ok room ends : Bool) :
    SamePeers e (e.workerStep n ok room ends) := by
  rw [workerStep]
  split
  · exact SamePeers.refl e
  · split
    · split
      · exact setWorker_same e n _
      · split
        · exact setWorker_same e n _
        · split
          · exact setWorker_same e n _
          · exact SamePeers.refl e
    · split <;> exact setWorker_same e n _
    · split <;> exact setWorker_same e n _
    · split <;> exact setWorker_same e n _
    · exact (recordTransportFault_same e n room).trans (setWorker_same _ n _)
    · exact SamePeers.refl e

theorem cleanup_same (e : RtcEngine) : SamePeers e e.cleanup := by
  rw [cleanup]
  split
  · exact SamePeers.refl e
  next stage _ =>
    suffices h : SamePeers e (e.closeInner stage).1 from
      ⟨h.current, h.captured, h.callbacks, h.call⟩
    cases stage with
    | dropSender | dropAudio => exact vacate_same e _
    | takeTask =>
      rw [closeInner]
      split
      · exact SamePeers.refl e
      next n _ =>
        have hempty : SamePeers e (e.empty .commandTask) := ⟨rfl, rfl, rfl, rfl⟩
        exact hempty.trans (abort_same _ n)
    | join n | takeResources =>
      rw [closeInner]
      split <;> exact ⟨rfl, rfl, rfl, rfl⟩
    | takeChannel owned | takeConnection owned =>
      rw [closeInner.eq_def]
      dsimp only
      split
      · exact SamePeers.refl e
      · exact ⟨rfl, rfl, rfl, rfl⟩
      · dsimp only
        split <;> exact ⟨rfl, rfl, rfl, rfl⟩
    | _ => exact ⟨rfl, rfl, rfl, rfl⟩

theorem run_same (e : RtcEngine) (r : Run) : SamePeers e (e.run r).1 := by
  cases r with
  | enter => exact ⟨rfl, rfl, rfl, rfl⟩
  | wait =>
    rw [run]
    split <;> exact ⟨rfl, rfl, rfl, rfl⟩

theorem advance_armed (h : e.Armed) (ok : Bool) : (e.advance ok).Armed := by
  rw [advance.eq_def]
  split
  · exact h
  next stage hcall =>
    cases stage with
    | closing r =>
      have hrun := h.same (run_same e r)
      rw [prepareOffer_closing]
      cases (e.run r).2 with
      | none => exact hrun.calling ⟨by simp, by simp⟩
      | some r' => exact hrun.calling ⟨by simp, by simp⟩
    | failing r =>
      have hrun := h.same (run_same e r)
      rw [prepareOffer_failing]
      cases (e.run r).2 with
      | none => exact hrun.calling ⟨by simp, by simp⟩
      | some r' => exact hrun.calling ⟨by simp, by simp⟩
    | resetState =>
      exact ⟨fun n hn => h.fresh n (lt_trans (Nat.lt_succ_self _) hn),
        fun _ => h.fresh _ (Nat.lt_succ_self _), h.callbacks⟩
    | setConnecting =>
      exact ⟨h.fresh, fun _ => h.uncaptured (Or.inl hcall), h.callbacks⟩
    | loadGeneration =>
      dsimp only [prepareOffer]
      -- The peer captures the generation here, before any callback of it can fire.
      refine ⟨fun n hn => ?_, fun hc => absurd hc (by simp), fun c hc => ?_⟩
      · change e.current < n at hn
        change Function.update e.captured e.current _ n = none
        rw [Function.update_of_ne (ne_of_gt hn)]
        exact h.fresh n hn
      · change Function.update e.captured e.current _ c.1 ≠ none
        by_cases hn : c.1 = e.current
        · rw [hn, Function.update_self]
          simp
        · rw [Function.update_of_ne hn]
          exact h.callbacks c hc
    | createPeer | setup | offering =>
      dsimp only [prepareOffer]
      split <;> exact ⟨h.fresh, fun hc => absurd hc (by simp), h.callbacks⟩
    | installCommands =>
      dsimp only [prepareOffer]
      split
      · have hspawn : SamePeers e ((e.store .commandTx).setWorker e.current .spawned) :=
          ⟨rfl, rfl, rfl, rfl⟩
        have habort := h.same (hspawn.trans (abort_same _ e.current))
        exact habort.calling ⟨by simp, by simp⟩
      · exact ⟨h.fresh, fun hc => absurd hc (by simp), h.callbacks⟩
    | storeConnection | storeChannel | storeAudio =>
      dsimp only [prepareOffer]
      exact ⟨h.fresh, fun hc => absurd hc (by simp), h.callbacks⟩
  next =>
    split
    · exact h.calling ⟨by simp, by simp⟩
    · split <;> exact ⟨h.fresh, fun hc => absurd hc (by simp), h.callbacks⟩
  next =>
    split
    · exact h.calling ⟨by simp, by simp⟩
    · exact h
  next r _ =>
    refine (h.same (run_same e r)).calling ⟨fun hc => ?_, fun hc => ?_⟩
    · obtain ⟨-, -, hc⟩ := Option.map_eq_some_iff.mp hc
      exact absurd hc (by simp)
    · obtain ⟨-, -, hc⟩ := Option.map_eq_some_iff.mp hc
      exact absurd hc (by simp)

theorem step_armed (e : RtcEngine) (a : Action) (h : e.Armed) : (e.step a).Armed := by
  cases a with
  | setIngressGeneration generation =>
    rw [step, setIngressGeneration]
    dsimp only
    split <;> exact h.same ⟨rfl, rfl, rfl, rfl⟩
  | takeTransportError => exact h.same ⟨rfl, rfl, rfl, rfl⟩
  | fire n event =>
    rw [step, fire]
    split
    · exact h
    next generation hcaptured =>
      split
      · exact h.same ⟨rfl, rfl, rfl, rfl⟩
      -- A callback that fires is of a peer that has captured.
      · refine ⟨h.fresh, h.uncaptured, fun c hc => ?_⟩
        rcases List.mem_append.mp hc with hc | hc
        · exact h.callbacks c hc
        · rw [List.mem_singleton.mp hc]
          show e.captured n ≠ none
          rw [hcaptured]
          simp
  | apply i =>
    rw [step, apply]
    split
    · exact h
    · exact ⟨h.fresh, h.uncaptured, fun c hc => h.callbacks c (List.mem_of_mem_eraseIdx hc)⟩
  | trySend n command =>
    rw [step, trySend]
    split
    · exact h
    · split
      · exact h.same (setWorker_same e n _)
      · exact h
  | worker n ok room ends => exact h.same (workerStep_same e n ok room ends)
  | begin call =>
    rw [step, begin]
    split
    next hfirst =>
      refine h.calling ⟨fun hc => ?_, fun hc => ?_⟩
      · rw [Option.some_inj.mp hc] at hfirst
        exact absurd hfirst.2 (by decide)
      · rw [Option.some_inj.mp hc] at hfirst
        exact absurd hfirst.2 (by decide)
    next => exact h
  | advance ok => exact advance_armed h ok
  | cancel =>
    rw [step, cancel]
    split
    · exact h
    · split
      · exact h.calling ⟨by simp, by simp⟩
      · exact h
  | cleanup => exact h.same (cleanup_same e)

/-! ### Runs -/

/-- What holds in every state of a run. -/
structure Held (e : RtcEngine) : Prop where
  tidy : e.Tidy
  armed : e.Armed
  sound : e.transport.Sound

theorem new_held : new.Held where
  tidy := new_tidy
  armed := ⟨fun _ _ => rfl, fun h => absurd h (by simp [new]), fun _ h => absurd h (by simp [new])⟩
  sound := .of_closed (fun _ h => absurd h (by simp [transport, new])) rfl

theorem step_held (e : RtcEngine) (a : Action) (h : e.Held) : (e.step a).Held where
  tidy := step_tidy e a h.tidy
  armed := step_armed e a h.armed
  sound := Transport.step_sound (step_transport h.tidy h.armed a) h.sound

theorem run_held (as : List Action) : (Runs.run step new as).Held :=
  Runs.run_invariant step_held as new_held

/-- From a closed or failed state on. -/
theorem run_dead (bs : List Action) : ∀ {e : RtcEngine}, e.Held →
    ¬ Transport.Alive e.readyState → ∃ new, (Runs.run step e bs).log = e.log ++ new ∧
      (¬ Transport.Alive (Runs.run step e bs).readyState ∨ ∃ n, .connecting n ∈ new) := by
  induction bs with
  | nil =>
    intro e _ hdead
    exact ⟨[], by simp, Or.inl hdead⟩
  | cons a rest ih =>
    intro e hheld hdead
    have hstep := step_transport hheld.tidy hheld.armed a
    rcases Transport.step_dead hstep hdead with hdead' | ⟨n, hlog⟩
    · obtain ⟨first, hfirst⟩ := Transport.step_log hstep
      obtain ⟨new, hnew, hout⟩ := ih (step_held e a hheld) hdead'
      refine ⟨first ++ new, ?_, hout.imp_right fun ⟨n, hn⟩ => ⟨n, List.mem_append_right _ hn⟩⟩
      rw [Runs.run_cons, hnew, ← List.append_assoc]
      exact congrArg (· ++ new) hfirst
    · -- `Connecting` is set here, and the log only grows
      have hgrows : ∃ new, (Runs.run step (e.step a) rest).log = (e.step a).log ++ new := by
        have hrel := Runs.run_rel (R := fun e e' : RtcEngine => e.Held → e'.Held ∧
          ∃ new, e'.log = e.log ++ new) (fun e h => ⟨h, [], by simp⟩)
          (fun h h' hheld => by
            obtain ⟨h₁, new₁, hn₁⟩ := h hheld
            obtain ⟨h₂, new₂, hn₂⟩ := h' h₁
            exact ⟨h₂, new₁ ++ new₂, by rw [hn₂, hn₁, List.append_assoc]⟩)
          (fun e a h => ⟨step_held e a h, Transport.step_log (step_transport h.tidy h.armed a)⟩)
          rest (e.step a) (step_held e a hheld)
        exact hrel.2
      obtain ⟨new, hnew⟩ := hgrows
      refine ⟨.connecting n :: new, ?_, Or.inr ⟨n, List.mem_cons_self⟩⟩
      rw [Runs.run_cons, hnew]
      show (e.step a).transport.log ++ new = _
      rw [hlog, List.append_assoc]
      rfl

/-- The callbacks and the worker of another peer do not show. -/
theorem readyState_other {n : ℕ} (hn : n ≠ e.current) :
    (∀ event, (e.step (.fire n event)).readyState = e.readyState) ∧
    (∀ i event, e.callbacks[i]? = some (n, event) →
      (e.step (.apply i)).readyState = e.readyState) ∧
    ∀ ok room ends, (e.step (.worker n ok room ends)).readyState = e.readyState := by
  refine ⟨fun event => ?_, fun i event hi => ?_, fun ok room ends => ?_⟩
  · rw [step, fire]
    split
    · rfl
    · split <;> rfl
  · rw [step, apply, hi]
    exact Function.update_of_ne (Ne.symm hn) ..
  · rw [step, workerStep]
    split
    · rfl
    · split
      · split
        · rfl
        · split
          · rfl
          · split <;> rfl
      · split <;> rfl
      · split <;> rfl
      · split <;> rfl
      · show (e.recordTransportFault n room).readyState = e.readyState
        rw [recordTransportFault]
        split
        · rfl
        · split
          · rfl
          · exact Function.update_of_ne (Ne.symm hn) ..
      · rfl

/-- In every run: a retained fault is of the current generation; the transport is
open only if the last peer was opened, of the current generation, with nothing that
ends it since; other peers do not show; and what is closed or failed opens again only
after another offer. -/
theorem ready_state_sound (as : List Action) :
    (∀ g, (Runs.run step new as).transportError = some g →
      g = (Runs.run step new as).ingressGeneration) ∧
    ((Runs.run step new as).readyState = .opened →
      (Runs.run step new as).transport.OpenedSince) ∧
    (∀ n, n ≠ (Runs.run step new as).current →
      (∀ event, (Runs.run step new (as ++ [.fire n event])).readyState =
        (Runs.run step new as).readyState) ∧
      (∀ i event, (Runs.run step new as).callbacks[i]? = some (n, event) →
        (Runs.run step new (as ++ [.apply i])).readyState = (Runs.run step new as).readyState) ∧
      ∀ ok room ends, (Runs.run step new (as ++ [.worker n ok room ends])).readyState =
        (Runs.run step new as).readyState) ∧
    ∀ bs, (Runs.run step new as).readyState = .closed ∨
        (Runs.run step new as).readyState = .failed →
      (Runs.run step new (as ++ bs)).readyState = .opened →
      ∃ n since, (Runs.run step new (as ++ bs)).log = (Runs.run step new as).log ++ since ∧
        .connecting n ∈ since := by
  have hheld := run_held as
  refine ⟨hheld.sound.error, fun ho => hheld.sound.opened (Or.inl ho), fun n hn => ?_,
    fun bs hdead hopen => ?_⟩
  · simp only [Runs.run_concat]
    exact readyState_other hn
  · rw [Runs.run_append] at hopen ⊢
    obtain ⟨since, hlog, hout⟩ := run_dead bs hheld (by
      rcases hdead with hdead | hdead <;> rw [hdead] <;> simp [Transport.Alive])
    rcases hout with hdead' | ⟨n, hn⟩
    · rw [hopen] at hdead'
      exact absurd ⟨by simp, by simp⟩ hdead'
    · exact ⟨n, since, hlog, hn⟩

/-- An offer of generation 7, its answer, and the opening of its channel. -/
def opening : List Action := List.flatten [
  [.setIngressGeneration 7, .begin (.prepareOffer (.closing .enter)), .advance true],
  List.replicate 9 .cleanup, List.replicate 12 (.advance true),
  [.begin (.applyAnswer false), .advance true, .fire 1 .channelOpened, .apply 0]]

theorem ready_state_sound_opening :
    (Runs.run step new opening).readyState = .opened ∧
      (Runs.run step new opening).transport.OpenedSince :=
  ⟨by decide +kernel, (ready_state_sound opening).2.1 (by decide +kernel)⟩

end RtcEngine

end Unitree
