/-
Who watches a session.

A `Validation Ok.` opens the data channel and spawns a heartbeat worker for the
session.  The worker's loop looks at the running flag, at the session id and at
the owner without a lock, ticks under the lifecycle lock, and waits on a stop
channel whose sender is in the service.  `stop_background_tasks` writes the same
fields without the lock before it starts a new session.  All of this is
interleaved below, store by store.

* `Watch.step`, `Watch.Supervised` — the machine, and what holds between its steps;
* `Watch.step_supervised`, `Watch.run_supervised` — its preservation;
* `Watch.validated_is_supervised` — an open session has exactly one worker, of its
  own epoch and behind the stored stop channel.
-/
import UnitreeWebrtc.Lifecycle

namespace Unitree

/-- Where the loop of a heartbeat worker stands. -/
inductive HeartbeatStage where
  /-- Before the three conditions of the loop. -/
  | running
  | session
  | owner
  /-- Before the locked section. -/
  | tick
  /-- In `recv_timeout`. -/
  | wait
  | exited
deriving DecidableEq

structure HeartbeatWorker where
  epoch : ℕ
  /-- The stop channel it waits on. -/
  stop : ℕ
  stage : HeartbeatStage
deriving DecidableEq

/-- The effects of a step. -/
def Service.handed (s s' : Service) : List Effect := s'.effects.drop s.effects.length

/-- The worker that an effect spawns. -/
def Effect.worker : Effect → Option HeartbeatWorker
  | .spawnHeartbeat epoch stop => some { epoch, stop, stage := .running }
  | _ => none

/-- What the past of a session consists of. -/
inductive WatchEntry where
  | routed (message : IngressMessage)
  | session (id : ℕ)
  | timeout

/-- A new session, and a heartbeat timeout. -/
def WatchEntry.voids : WatchEntry → Bool
  | .routed _ => false
  | .session _ | .timeout => true

/-- A service with its heartbeat workers and the calls of `stop_background_tasks`
that have made their first store. -/
structure Watch where
  sys : Sys
  workers : List HeartbeatWorker
  /-- The stores that each of these calls has to make before `start_new_session`. -/
  stops : List (List UnlockedStore)
  ownerAlive : Bool
  log : List WatchEntry

/-- The locked section finds the heartbeat overdue. -/
def Service.heartbeatOverdue (env : Env) (s : Service) (epoch : ℕ) : Bool :=
  s.sessionId = epoch ∧ s.heartbeatLastResponse > 0 ∧ env.wallSecs - s.heartbeatLastResponse > 6

namespace Watch

inductive Action where
  /-- What a caller does, and the expiry of chunks. -/
  | call (a : Unitree.Action)
  | processIngress (env : Env) (message : IngressMessage)
  | startNewSession
  /-- `stop_background_tasks`, up to its first store. -/
  | stopTasks
  /-- The next store of such a call, and at the end `start_new_session`. -/
  | stopNext (i : ℕ)
  /-- A worker goes on; `elapsed` says that it has waited for two seconds. -/
  | worker (i : ℕ) (env : Env) (elapsed : Bool)
  /-- The last external owner is dropped. -/
  | dropOwner

def Action.isCall : Action → Bool
  | .call _ => true
  | _ => false

section

variable (p : Platform)

/-- A step of the service, with the threads that it spawns. -/
def serve (x : Watch) (a : Unitree.Action) : Watch :=
  let sys := x.sys.step p a
  { x with
    sys
    workers := x.workers ++ (x.sys.service.handed sys.service).filterMap Effect.worker }

/-- The same, with a note of a new session. -/
def serveNoting (x : Watch) (a : Unitree.Action) (entries : List WatchEntry) : Watch :=
  let x' := x.serve p a
  { x' with
    log := x.log ++ entries ++
      if x'.sys.service.sessionId = x.sys.service.sessionId then []
      else [.session x'.sys.service.sessionId] }

def setStage (x : Watch) (i : ℕ) (w : HeartbeatWorker) (stage : HeartbeatStage) : Watch :=
  { x with workers := x.workers.set i { w with stage } }

/-- The loop of a heartbeat worker. -/
def runWorker (x : Watch) (i : ℕ) (w : HeartbeatWorker) (env : Env) (elapsed : Bool) : Watch :=
  match w.stage with
  | .running => x.setStage i w (if x.sys.service.heartbeatRunning then .session else .exited)
  | .session => x.setStage i w (if x.sys.service.sessionId = w.epoch then .owner else .exited)
  | .owner => x.setStage i w (if x.ownerAlive then .tick else .exited)
  | .tick =>
    let overdue := x.sys.service.heartbeatOverdue env w.epoch
    setStage
      { x with
        sys := x.sys.step p (.heartbeatTick env w.epoch)
        log := x.log ++ if overdue then [WatchEntry.timeout] else [] } i w
      (if x.sys.service.sessionId ≠ w.epoch ∨ overdue = true then .exited else .wait)
  | .wait =>
    -- the sender is dropped with the stored end of the channel
    x.setStage i w
      (if elapsed then .running
      else if x.sys.service.heartbeatStopTx = some w.stop then .wait
      else .exited)
  | .exited => x

def step (x : Watch) : Action → Watch
  | .call a => if a.called then x.serve p a else x
  | .processIngress env message =>
    x.serveNoting p (.processIngress env message) [.routed message]
  | .startNewSession => x.serveNoting p .startNewSession []
  | .stopTasks =>
    { x.serve p (.store .heartbeatRunning) with stops := x.stops ++ [stopStores.tail] }
  | .stopNext i =>
    match x.stops[i]? with
    | some (which :: rest) => { x.serve p (.store which) with stops := x.stops.set i rest }
    | some [] => { x.serveNoting p .startNewSession [] with stops := x.stops.eraseIdx i }
    | none => x
  | .worker i env elapsed =>
    match x.workers[i]? with
    | some w => x.runWorker p i w env elapsed
    | none => x
  | .dropOwner => { x with ownerAlive := false }

end

def init (sessionId requestSequence : ℕ) : Watch :=
  { sys := .init sessionId requestSequence, workers := [], stops := [], ownerAlive := true
    log := [] }

end Watch

/-! ### What the service hands out -/

namespace Service

variable {s s' : Service}

theorem handed_append {es : List Effect} (h : s'.effects = s.effects ++ es) :
    s.handed s' = es := by
  rw [handed, h, List.drop_left]

@[simp] theorem handed_self (s : Service) : s.handed s = [] := by
  rw [handed, List.drop_length]

theorem filterMap_worker {es : List Effect} (h : ∀ e ∈ es, e.spawns = false) :
    es.filterMap Effect.worker = [] := by
  rw [List.filterMap_eq_nil_iff]
  intro e he
  have hspawns := h e he
  cases e with
  | spawnHeartbeat epoch stop => exact absurd hspawns (by simp [Effect.spawns])
  | _ => rfl

/-- A step that stays away from the flags spawns nothing. -/
theorem Apart.no_worker {P : Effect → Prop} (h : Apart P s s') (hp : ∀ e, P e → e.Ordinary) :
    (s.handed s').filterMap Effect.worker = [] := by
  obtain ⟨es, he, hes⟩ := h.effects
  rw [handed_append he]
  exact filterMap_worker fun e hm => (hp e (hes e hm)).2

/-- What a reset hands out: an announcement and answers. -/
theorem failAll_handed (s₁ : Service) (reason : String)
    (h : s₁.effects = s.effects ++ [.setIngressGeneration (s.sessionId + 1)]) :
    ∀ e ∈ s.handed (s₁.failAllPending reason), e.spawns = false ∧ e.beats = false := by
  obtain ⟨es, he, hes⟩ := (failAllPending_apart s₁ reason).effects
  rw [h, List.append_assoc] at he
  rw [handed_append he]
  intro e hm
  rcases List.mem_append.mp hm with hm | hm
  · rw [List.mem_singleton.mp hm]
    exact ⟨rfl, rfl⟩
  · exact ⟨(hes e hm).1.2, (hes e hm).2⟩

theorem handleFault_handed (s : Service) (error : String) :
    ∀ e ∈ s.handed (s.handleFault error), e.spawns = false ∧ e.beats = false :=
  failAll_handed _ error rfl

theorem startNewSession_handed (s : Service) :
    ∀ e ∈ s.handed s.startNewSession, e.spawns = false ∧ e.beats = false :=
  failAll_handed _ "DataChannel session reset" rfl

/-- A validation, with the worker that it spawns when none is running. -/
theorem validation_handed {s₁ : Service} {last : ℕ} (h : Apart Effect.Internal s s₁)
    (h' : Apart Effect.Internal (startHeartbeatInSession
      { s₁ with dataChannelOpened := true, heartbeatLastResponse := last }) s') :
    s'.sessionId = s.sessionId ∧ s'.dataChannelOpened = true ∧ s'.heartbeatRunning = true ∧
      (∀ e ∈ s.handed s', e.beats = false) ∧
      (s.heartbeatRunning = true ∧ s'.heartbeatStopTx = s.heartbeatStopTx ∧
          (s.handed s').filterMap Effect.worker = [] ∨
        s.heartbeatRunning = false ∧ ∃ k, s'.heartbeatStopTx = some k ∧
          (s.handed s').filterMap Effect.worker =
            [{ epoch := s.sessionId, stop := k, stage := .running }]) := by
  obtain ⟨es, he, hes⟩ := h.effects
  obtain ⟨es', he', hes'⟩ := h'.effects
  have hsession' := h'.session
  have hopened' := h'.opened
  have hrunning' := h'.running
  have hstop' := h'.stopTx
  have hrunning := h.running
  rw [startHeartbeatInSession] at he' hsession' hopened' hrunning' hstop'
  cases hrun : s.heartbeatRunning with
  | true =>
    rw [if_pos (hrunning.trans hrun)] at he' hsession' hopened' hrunning' hstop'
    have hhanded : s.handed s' = es ++ es' := by
      refine handed_append (he'.trans ?_)
      rw [he, List.append_assoc]
    have hall : ∀ e ∈ s.handed s', e.Internal := by
      rw [hhanded]
      intro e hm
      exact (List.mem_append.mp hm).elim (hes e) (hes' e)
    exact ⟨hsession'.trans h.session, hopened', hrunning'.trans (hrunning.trans hrun),
      fun e hm => (hall e hm).2, Or.inl ⟨rfl, hstop'.trans h.stopTx,
        filterMap_worker fun e hm => (hall e hm).1.2⟩⟩
  | false =>
    rw [if_neg (by simp [hrunning, hrun])] at he' hsession' hopened' hrunning' hstop'
    have hhanded : s.handed s' = es ++ .spawnHeartbeat s.sessionId s₁.nextId :: es' := by
      refine handed_append (he'.trans ?_)
      rw [emit, he, h.session, List.append_assoc, List.append_assoc, List.singleton_append]
    refine ⟨hsession'.trans h.session, hopened', hrunning', fun e hm => ?_,
      Or.inr ⟨rfl, s₁.nextId, hstop', ?_⟩⟩
    · rw [hhanded] at hm
      rcases List.mem_append.mp hm with hm | hm
      · exact (hes e hm).2
      · rcases List.mem_cons.mp hm with rfl | hm
        · rfl
        · exact (hes' e hm).2
    · rw [hhanded, List.filterMap_append, filterMap_worker fun e hm => (hes e hm).1.2,
        List.nil_append, ← h.session]
      exact congrArg _ (filterMap_worker fun e hm => (hes' e hm).1.2)

end Service

/-! ### The invariant -/

/-- A `Validation Ok.` of the session was routed, with no new session and no
timeout after it. -/
def ValidatedSince (p : Platform) (log : List WatchEntry) (id : ℕ) : Prop :=
  ∃ pre message post, log = pre ++ .routed message :: post ∧ message.generation = id ∧
    Service.validates p message.payload = true ∧ ∀ e ∈ post, e.voids = false

theorem ValidatedSince.append {p : Platform} {log entries : List WatchEntry} {id : ℕ}
    (h : ValidatedSince p log id) (hentries : ∀ e ∈ entries, e.voids = false) :
    ValidatedSince p (log ++ entries) id := by
  obtain ⟨pre, message, post, rfl, hgen, hok, hpost⟩ := h
  refine ⟨pre, message, post ++ entries, by simp, hgen, hok, fun e he => ?_⟩
  rcases List.mem_append.mp he with he | he
  · exact hpost e he
  · exact hentries e he

namespace Watch

variable {p : Platform} {x x' : Watch}

/-- Worker `i` is in its loop, for the current session. -/
structure Watching (x : Watch) (i : ℕ) (w : HeartbeatWorker) : Prop where
  found : x.workers[i]? = some w
  alive : w.stage ≠ .exited
  epoch : w.epoch = x.sys.service.sessionId

/-- No `stop_background_tasks` is under way: an open session is running, and a
running one has the one worker whose stop channel is stored. -/
structure Attended (x : Watch) : Prop where
  opened : x.sys.service.dataChannelOpened = true → x.sys.service.heartbeatRunning = true
  running : x.sys.service.heartbeatRunning = true → ∃ k, x.sys.service.heartbeatStopTx = some k ∧
    (∀ i w, x.Watching i w → w.stop = k) ∧ (x.ownerAlive = true → ∃ i w, x.Watching i w)
  idle : x.sys.service.heartbeatRunning = false → ∀ i w, ¬ x.Watching i w
  alone : ∀ i j w v, x.Watching i w → x.Watching j v → i = j

structure Supervised (p : Platform) (x : Watch) : Prop where
  validated : x.sys.service.dataChannelOpened = true →
    ValidatedSince p x.log x.sys.service.sessionId
  epochs : ∀ w ∈ x.workers, w.epoch ≤ x.sys.service.sessionId
  attended : x.stops = [] → Attended x

theorem init_supervised (sessionId requestSequence : ℕ) :
    Supervised p (init sessionId requestSequence) where
  validated h := absurd h (by simp [init, Sys.init, Service.new, Service.prepareIngress,
    Service.emit])
  epochs w hw := absurd hw (by simp [init])
  attended _ := {
    opened := fun h => absurd h (by simp [init, Sys.init, Service.new, Service.prepareIngress,
      Service.emit])
    running := fun h => absurd h (by simp [init, Sys.init, Service.new, Service.prepareIngress,
      Service.emit])
    idle := fun _ i w h => absurd h.found (by simp [init])
    alone := fun i j w v h => absurd h.found (by simp [init]) }

/-- Both flags are down, and no worker is of the session. -/
theorem Attended.of_down (hopened : x.sys.service.dataChannelOpened = false)
    (hrunning : x.sys.service.heartbeatRunning = false) (hnone : ∀ i w, ¬ x.Watching i w) :
    Attended x where
  opened h := absurd (hopened.symm.trans h) (by simp)
  running h := absurd (hrunning.symm.trans h) (by simp)
  idle _ := hnone
  alone i _ w _ hw := absurd hw (hnone i w)

/-- The fields of the service that the invariant reads. -/
def signs (s : Service) : ℕ × Bool × Bool × Option ℕ :=
  (s.sessionId, s.dataChannelOpened, s.heartbeatRunning, s.heartbeatStopTx)

theorem watching_congr (hsession : x'.sys.service.sessionId = x.sys.service.sessionId)
    (hworkers : x'.workers = x.workers) (i : ℕ) (w : HeartbeatWorker) :
    x'.Watching i w ↔ x.Watching i w :=
  ⟨fun h => ⟨hworkers ▸ h.found, h.alive, h.epoch.trans hsession⟩,
    fun h => ⟨hworkers ▸ h.found, h.alive, h.epoch.trans hsession.symm⟩⟩

/-- Neither the flags nor the workers were touched. -/
theorem Attended.frame (h : Attended x) (hsigns : signs x'.sys.service = signs x.sys.service)
    (hworkers : x'.workers = x.workers) (halive : x'.ownerAlive = true → x.ownerAlive = true) :
    Attended x' := by
  simp only [signs, Prod.mk.injEq] at hsigns
  obtain ⟨hsession, hopened, hrunning, hstop⟩ := hsigns
  have hwatch := watching_congr hsession hworkers
  refine ⟨?_, ?_, ?_, ?_⟩
  · rw [hopened, hrunning]
    exact h.opened
  · simp only [hrunning, hstop, hwatch]
    intro hrun
    obtain ⟨k, hk, hall, hex⟩ := h.running hrun
    exact ⟨k, hk, hall, fun ha => hex (halive ha)⟩
  · simp only [hrunning, hwatch]
    exact h.idle
  · simp only [hwatch]
    exact h.alone

/-- The session opens, and its worker is there already. -/
theorem Attended.opening (h : Attended x)
    (hsession : x'.sys.service.sessionId = x.sys.service.sessionId)
    (hrun : x.sys.service.heartbeatRunning = true)
    (hrun' : x'.sys.service.heartbeatRunning = true)
    (hstop : x'.sys.service.heartbeatStopTx = x.sys.service.heartbeatStopTx)
    (hworkers : x'.workers = x.workers) (halive : x'.ownerAlive = x.ownerAlive) :
    Attended x' := by
  have hwatch := watching_congr hsession hworkers
  refine ⟨fun _ => hrun', fun _ => ?_, fun hidle => absurd (hrun'.symm.trans hidle) (by simp), ?_⟩
  · simp only [hstop, hwatch, halive]
    exact h.running hrun
  · simp only [hwatch]
    exact h.alone

/-- The session opens with a worker of its own. -/
theorem Attended.spawning (h : Attended x)
    (hsession : x'.sys.service.sessionId = x.sys.service.sessionId)
    (hrun : x.sys.service.heartbeatRunning = false)
    (hrun' : x'.sys.service.heartbeatRunning = true) {k : ℕ}
    (hstop : x'.sys.service.heartbeatStopTx = some k)
    (hworkers : x'.workers =
      x.workers ++ [{ epoch := x.sys.service.sessionId, stop := k, stage := .running }]) :
    Attended x' := by
  -- nobody was watching before
  have honly : ∀ i w, x'.Watching i w → i = x.workers.length ∧ w.stop = k := by
    intro i w hw
    have hfound := hw.found
    rw [hworkers] at hfound
    rcases lt_trichotomy i x.workers.length with hi | hi | hi
    · rw [List.getElem?_append_left hi] at hfound
      exact absurd ⟨hfound, hw.alive, hw.epoch.trans hsession⟩ (h.idle hrun i w)
    · rw [hi, List.getElem?_concat_length, Option.some_inj] at hfound
      exact ⟨hi, hfound ▸ rfl⟩
    · rw [List.getElem?_eq_none (by simpa using hi)] at hfound
      exact absurd hfound (by simp)
  have hnew : x'.Watching x.workers.length
      { epoch := x.sys.service.sessionId, stop := k, stage := .running } :=
    ⟨by rw [hworkers, List.getElem?_concat_length], by simp, hsession.symm⟩
  exact ⟨fun _ => hrun', fun _ => ⟨k, hstop, fun i w hw => (honly i w hw).2, fun _ => ⟨_, _, hnew⟩⟩,
    fun hidle => absurd (hrun'.symm.trans hidle) (by simp),
    fun i j w v hw hv => (honly i w hw).1.trans (honly j v hv).1.symm⟩

/-- A worker that goes on without leaving the session unwatched. -/
theorem Attended.setStage (h : Attended x) {i : ℕ} {w : HeartbeatWorker}
    (hw : x.workers[i]? = some w) {stage : HeartbeatStage}
    (hleft : w.stage = .exited → stage = .exited)
    (hstays : x.Watching i w → x.ownerAlive = true → stage ≠ .exited) :
    Attended (x.setStage i w stage) := by
  have hset : (x.workers.set i { w with stage })[i]? = some { w with stage } :=
    List.getElem?_set_self (List.getElem?_eq_some_iff.mp hw).1
  have hat : ∀ j v, (x.setStage i w stage).Watching j v →
      ∃ v', x.Watching j v' ∧ v'.stop = v.stop := by
    intro j v hv
    have hfound : (x.workers.set i { w with stage })[j]? = some v := hv.found
    by_cases hij : i = j
    · subst hij
      obtain rfl : { w with stage } = v := Option.some_inj.mp (hset.symm.trans hfound)
      exact ⟨w, ⟨hw, fun hx => hv.alive (hleft hx), hv.epoch⟩, rfl⟩
    · exact ⟨v, ⟨(List.getElem?_set_ne hij).symm.trans hfound, hv.alive, hv.epoch⟩, rfl⟩
  refine ⟨h.opened, fun hrun => ?_, fun hrun j v hv => ?_, fun j k v u hv hu => ?_⟩
  · obtain ⟨k, hk, hall, hex⟩ := h.running hrun
    refine ⟨k, hk, fun j v hv => ?_, fun halive => ?_⟩
    · obtain ⟨v', hv', hstop⟩ := hat j v hv
      exact hstop ▸ hall j v' hv'
    · obtain ⟨j, v, hv⟩ := hex halive
      by_cases hij : i = j
      · subst hij
        obtain rfl : w = v := Option.some_inj.mp (hw.symm.trans hv.found)
        exact ⟨i, { w with stage }, hset, hstays hv halive, hv.epoch⟩
      · exact ⟨j, v, (List.getElem?_set_ne hij).trans hv.found, hv.alive, hv.epoch⟩
  · obtain ⟨v', hv', -⟩ := hat j v hv
    exact h.idle hrun j v' hv'
  · obtain ⟨v', hv', -⟩ := hat j v hv
    obtain ⟨u', hu', -⟩ := hat k u hu
    exact h.alone j k v' u' hv' hu'

/-- Nothing that the invariant reads was touched, but for the log. -/
theorem Supervised.frame (h : Supervised p x) (hsigns : signs x'.sys.service = signs x.sys.service)
    (hworkers : x'.workers = x.workers) (hstops : x'.stops = [] → x.stops = [])
    (halive : x'.ownerAlive = true → x.ownerAlive = true) (entries : List WatchEntry)
    (hlog : x'.log = x.log ++ entries) (hentries : ∀ e ∈ entries, e.voids = false) :
    Supervised p x' := by
  have hsame := hsigns
  simp only [signs, Prod.mk.injEq] at hsame
  obtain ⟨hsession, hopened, -, -⟩ := hsame
  refine ⟨?_, ?_, fun hs => (h.attended (hstops hs)).frame hsigns hworkers halive⟩
  · rw [hopened, hsession, hlog]
    exact fun ho => (h.validated ho).append hentries
  · rw [hworkers, hsession]
    exact h.epochs

/-- A reset leaves every worker behind. -/
theorem Supervised.reset (h : Supervised p x)
    (hresets : Service.Resets x.sys.service x'.sys.service) (hworkers : x'.workers = x.workers) :
    Supervised p x' := by
  have hepochs : ∀ w ∈ x'.workers, w.epoch < x'.sys.service.sessionId := by
    rw [hworkers, hresets.session]
    exact fun w hw => Nat.lt_succ_of_le (h.epochs w hw)
  refine ⟨fun ho => absurd (hresets.opened.symm.trans ho) (by simp),
    fun w hw => (hepochs w hw).le, fun _ => .of_down hresets.opened hresets.running ?_⟩
  exact fun i w hw => (hepochs w (List.mem_of_getElem? hw.found)).ne hw.epoch

theorem serve_workers {a : Unitree.Action}
    (h : (x.sys.service.handed (x.sys.step p a).service).filterMap Effect.worker = []) :
    (x.serve p a).workers = x.workers := by
  rw [serve, h, List.append_nil]

theorem signs_apart {s s' : Service} {P : Effect → Prop} (h : Service.Apart P s s') :
    signs s' = signs s := by
  rw [signs, h.session, h.opened, h.running, h.stopTx]
  rfl

/-- What a caller does. -/
theorem Supervised.call (h : Supervised p x) {a : Unitree.Action} (ha : a.called = true) :
    Supervised p (x.serve p a) := by
  have hapart := x.sys.step_apart p ha
  exact h.frame (signs_apart hapart) (serve_workers (hapart.no_worker fun _ => id)) id id []
    (List.append_nil _).symm (by simp)

theorem startNewSession_workers (x : Watch) :
    (x.serve p .startNewSession).workers = x.workers :=
  serve_workers (Service.filterMap_worker fun e he => (Service.startNewSession_handed _ e he).1)

theorem Supervised.startNewSession (h : Supervised p x) (stops : List (List UnlockedStore)) :
    Supervised p { x.serveNoting p .startNewSession [] with stops } :=
  h.reset (Service.startNewSession_resets _) (startNewSession_workers x)

/-- An unlocked store comes from a call that has another step to make. -/
theorem Supervised.store (h : Supervised p x) (which : UnlockedStore)
    {stops : List (List UnlockedStore)} (hstops : stops ≠ []) :
    Supervised p { x.serve p (.store which) with stops } := by
  have hsession : (x.sys.service.store which).sessionId = x.sys.service.sessionId :=
    (Service.store_calm _ which).session
  have heffects : (x.sys.service.store which).effects = x.sys.service.effects ++ [] := by
    rw [List.append_nil]
    cases which <;> rfl
  have hworkers : (x.serve p (.store which)).workers = x.workers :=
    serve_workers (congrArg (List.filterMap Effect.worker) (Service.handed_append heffects))
  refine ⟨fun ho => ?_, fun w hw => ?_, fun hs => absurd hs hstops⟩
  · show ValidatedSince p x.log (x.sys.service.store which).sessionId
    rw [hsession]
    exact h.validated ((Service.store_calm _ which).opened ho)
  · show w.epoch ≤ (x.sys.service.store which).sessionId
    rw [hsession]
    exact h.epochs w (hworkers ▸ hw)

/-- A validation of the current session, with the worker it spawns if none runs. -/
theorem Supervised.validate (h : Supervised p x) {env : Env} {message : IngressMessage}
    (hgen : message.generation = x.sys.service.sessionId)
    (hok : Service.validates p message.payload = true) {s₁ : Service}
    (hapart : Service.Apart Effect.Internal x.sys.service s₁)
    (hapart' : Service.Apart Effect.Internal (Service.startHeartbeatInSession
      { s₁ with dataChannelOpened := true, heartbeatLastResponse := env.wallSecs })
      (x.sys.service.processIngress p env message)) :
    Supervised p (x.serveNoting p (.processIngress env message) [.routed message]) := by
  obtain ⟨hsession, -, hrun', -, hspawn⟩ := Service.validation_handed hapart hapart'
  have hlog : (x.serveNoting p (.processIngress env message) [.routed message]).log =
      x.log ++ [.routed message] := by
    rw [serveNoting]
    exact (congrArg _ (if_pos hsession)).trans (List.append_nil _)
  have hvalidated : ValidatedSince p (x.log ++ [.routed message]) x.sys.service.sessionId :=
    ⟨x.log, message, [], rfl, hgen, hok, by simp⟩
  have hworkers : (x.serveNoting p (.processIngress env message) [.routed message]).workers =
      x.workers ++ (x.sys.service.handed
        (x.sys.service.processIngress p env message)).filterMap Effect.worker := rfl
  rcases hspawn with ⟨hrun, hstop, hnone⟩ | ⟨hrun, k, hstop, hone⟩
  · rw [hnone, List.append_nil] at hworkers
    refine ⟨fun _ => ?_, fun w hw => ?_, fun hs => ?_⟩
    · rw [hlog]
      exact hsession.symm ▸ hvalidated
    · rw [hworkers] at hw
      exact (h.epochs w hw).trans hsession.ge
    · exact (h.attended hs).opening hsession hrun hrun' hstop hworkers rfl
  · rw [hone] at hworkers
    refine ⟨fun _ => ?_, fun w hw => ?_, fun hs => ?_⟩
    · rw [hlog]
      exact hsession.symm ▸ hvalidated
    · rw [hworkers] at hw
      rcases List.mem_append.mp hw with hw | hw
      · exact (h.epochs w hw).trans hsession.ge
      · rw [List.mem_singleton.mp hw]
        exact hsession.ge
    · exact (h.attended hs).spawning hsession hrun hrun' hstop hworkers

theorem Supervised.processIngress (h : Supervised p x) (env : Env) (message : IngressMessage) :
    Supervised p (x.serveNoting p (.processIngress env message) [.routed message]) := by
  rcases Service.processIngress_apart p env x.sys.service message with
    ⟨hapart, -⟩ | ⟨-, -, error, hfault⟩ | ⟨hgen, hok, s₁, hapart, hapart'⟩
  · have hlog : (x.serveNoting p (.processIngress env message) [.routed message]).log =
        x.log ++ [.routed message] := by
      rw [serveNoting]
      exact (congrArg _ (if_pos hapart.session)).trans (List.append_nil _)
    exact h.frame (signs_apart hapart)
      (serve_workers (a := .processIngress env message) (hapart.no_worker fun _ he => he.1)) id id
      [.routed message] hlog (by simp [WatchEntry.voids])
  · have hserved : (x.sys.step p (.processIngress env message)).service =
        x.sys.service.handleFault error := hfault
    refine h.reset ?_ (serve_workers (a := .processIngress env message) ?_)
    · show Service.Resets _ (x.sys.step p (.processIngress env message)).service
      rw [hserved]
      exact Service.handleFault_resets _ error
    · rw [hserved]
      exact Service.filterMap_worker fun e he => (Service.handleFault_handed _ error e he).1
  · exact h.validate hgen hok hapart hapart'

/-- A worker that only moves on in its loop. -/
theorem Supervised.setStage (h : Supervised p x) {i : ℕ} {w : HeartbeatWorker}
    (hw : x.workers[i]? = some w) {stage : HeartbeatStage}
    (hleft : w.stage = .exited → stage = .exited)
    (hstays : x.stops = [] → x.Watching i w → x.ownerAlive = true → stage ≠ .exited) :
    Supervised p (x.setStage i w stage) := by
  refine ⟨h.validated, fun v hv => ?_, fun hs => (h.attended hs).setStage hw hleft (hstays hs)⟩
  rcases List.mem_or_eq_of_mem_set hv with hv | rfl
  · exact h.epochs v hv
  · exact h.epochs w (List.mem_of_getElem? hw)

/-- The locked section, when the heartbeat is not overdue. -/
theorem heartbeatTick_signs (env : Env) (s : Service) (epoch : ℕ)
    (h : s.heartbeatOverdue env epoch = false) :
    signs (s.heartbeatTick env epoch) = signs s := by
  rw [Service.heartbeatOverdue, decide_eq_false_iff_not] at h
  rw [Service.heartbeatTick]
  split
  · rfl
  next hsession =>
    rw [if_neg fun hlate => h ⟨not_not.mp hsession, hlate⟩]
    split
    · exact signs_apart (Service.sendMessageLocked_apart (P := fun _ => True) env s _ _ _ trivial)
    · rfl

/-- The locked section, when it is. -/
theorem heartbeatTick_overdue (env : Env) (s : Service) (epoch : ℕ)
    (h : s.heartbeatOverdue env epoch = true) :
    s.sessionId = epoch ∧ (s.heartbeatTick env epoch).sessionId = s.sessionId ∧
      (s.heartbeatTick env epoch).dataChannelOpened = false ∧
      (s.heartbeatTick env epoch).heartbeatRunning = false := by
  rw [Service.heartbeatOverdue, decide_eq_true_eq] at h
  rw [Service.heartbeatTick, if_neg (not_not.mpr h.1), if_pos h.2]
  exact ⟨h.1, rfl, rfl, rfl⟩

/-- A heartbeat timeout takes the one worker with it. -/
theorem Supervised.timeout (h : Supervised p x) {i : ℕ} {w : HeartbeatWorker}
    (hw : x.workers[i]? = some w) (hstage : w.stage ≠ .exited)
    (hepoch : x.sys.service.sessionId = w.epoch)
    (hsession : x'.sys.service.sessionId = x.sys.service.sessionId)
    (hopened : x'.sys.service.dataChannelOpened = false)
    (hrunning : x'.sys.service.heartbeatRunning = false)
    (hworkers : x'.workers = x.workers) (hstops : x'.stops = x.stops) :
    Supervised p (x'.setStage i w .exited) := by
  refine ⟨fun ho => absurd (hopened.symm.trans ho) (by simp), fun v hv => ?_, fun hs => ?_⟩
  · rw [show (x'.setStage i w .exited).sys = x'.sys from rfl, hsession]
    rw [Watch.setStage, hworkers] at hv
    rcases List.mem_or_eq_of_mem_set hv with hv | rfl
    · exact h.epochs v hv
    · exact h.epochs w (List.mem_of_getElem? hw)
  · refine .of_down hopened hrunning fun j v hv => ?_
    have hfound : (x.workers.set i { w with stage := .exited })[j]? = some v := by
      rw [← hworkers]
      exact hv.found
    by_cases hij : i = j
    · subst hij
      rw [List.getElem?_set_self (List.getElem?_eq_some_iff.mp hw).1, Option.some_inj] at hfound
      exact hv.alive (hfound ▸ rfl)
    · rw [List.getElem?_set_ne hij] at hfound
      exact hij ((h.attended (hstops.symm.trans hs)).alone i j w v ⟨hw, hstage, hepoch.symm⟩
        ⟨hfound, hv.alive, hv.epoch.trans hsession⟩)

theorem Supervised.runWorker (h : Supervised p x) {i : ℕ} {w : HeartbeatWorker}
    (hw : x.workers[i]? = some w) (env : Env) (elapsed : Bool) :
    Supervised p (x.runWorker p i w env elapsed) := by
  rw [Watch.runWorker]
  cases hstage : w.stage with
  | running =>
    refine h.setStage hw (by simp [hstage]) fun hs hwatch _ => ?_
    cases hrun : x.sys.service.heartbeatRunning with
    | true => simp
    | false => exact absurd hwatch ((h.attended hs).idle hrun i w)
  | session =>
    refine h.setStage hw (by simp [hstage]) fun _ hwatch _ => ?_
    rw [if_pos hwatch.epoch.symm]
    simp
  | owner =>
    refine h.setStage hw (by simp [hstage]) fun _ _ halive => ?_
    rw [if_pos halive]
    simp
  | tick =>
    dsimp only
    cases hoverdue : x.sys.service.heartbeatOverdue env w.epoch with
    | true =>
      obtain ⟨hepoch, hsession, hopened, hrunning⟩ := heartbeatTick_overdue env _ _ hoverdue
      rw [if_pos (Or.inr rfl)]
      exact h.timeout hw (by simp [hstage]) hepoch hsession hopened hrunning rfl rfl
    | false =>
      have hticked : Supervised p { x with
          sys := x.sys.step p (.heartbeatTick env w.epoch)
          log := x.log ++ if false = true then [WatchEntry.timeout] else [] } :=
        h.frame (heartbeatTick_signs env _ _ hoverdue) rfl id id [] rfl (by simp)
      refine hticked.setStage hw (by simp [hstage]) fun _ hwatch _ => ?_
      rw [if_neg]
      · simp
      · have hsigns := heartbeatTick_signs env x.sys.service w.epoch hoverdue
        simp only [signs, Prod.mk.injEq] at hsigns
        simp only [Bool.false_eq_true, or_false, not_not]
        exact hsigns.1.symm.trans hwatch.epoch.symm
  | wait =>
    refine h.setStage hw (by simp [hstage]) fun hs hwatch _ => ?_
    cases elapsed with
    | true => simp
    | false =>
      have hrun : x.sys.service.heartbeatRunning = true := by
        by_contra hrun
        exact (h.attended hs).idle (by simpa using hrun) i w hwatch
      obtain ⟨k, hk, hall, -⟩ := (h.attended hs).running hrun
      rw [if_neg (by simp), if_pos (hk.trans (congrArg some (hall i w hwatch).symm))]
      simp
  | exited => exact h

theorem step_supervised (h : Supervised p x) (a : Action) : Supervised p (x.step p a) := by
  cases a with
  | call a =>
    rw [step]
    split
    next ha => exact h.call ha
    next => exact h
  | processIngress env message => exact h.processIngress env message
  | startNewSession => exact h.startNewSession x.stops
  | stopTasks => exact h.store .heartbeatRunning (List.append_ne_nil_of_right_ne_nil _ (by simp))
  | stopNext i =>
    rw [step]
    split
    next which rest hi =>
      refine h.store which fun hnil => ?_
      rw [(List.set_eq_nil_iff _ _).mp hnil] at hi
      exact absurd hi (by simp)
    next => exact h.startNewSession _
    next => exact h
  | worker i env elapsed =>
    rw [step]
    split
    next w hw => exact h.runWorker hw env elapsed
    next => exact h
  | dropOwner =>
    exact h.frame rfl rfl id (fun halive => absurd halive Bool.false_ne_true) []
      (List.append_nil _).symm (by simp)

theorem run_supervised (sessionId requestSequence : ℕ) (as : List Action) :
    Supervised p (Runs.run (step p) (init sessionId requestSequence) as) :=
  Runs.run_invariant (I := Supervised p) (fun _ a h => step_supervised h a) as
    (init_supervised sessionId requestSequence)

/-! ### Old workers -/

/-- A worker of another session does not get past the locked check. -/
theorem runWorker_stale {i : ℕ} {w : HeartbeatWorker} (h : w.epoch ≠ x.sys.service.sessionId)
    (env : Env) (elapsed : Bool) : (x.runWorker p i w env elapsed).sys = x.sys := by
  rw [Watch.runWorker]
  cases w.stage with
  | tick =>
    have hsame : x.sys.service.heartbeatTick env w.epoch = x.sys.service := if_pos h.symm
    show x.sys.step p (.heartbeatTick env w.epoch) = x.sys
    rw [Sys.step, hsame]
  | _ => rfl

/-- The router sends no heartbeat. -/
theorem processIngress_beats (env : Env) (s : Service) (message : IngressMessage) :
    ∀ e ∈ s.handed (s.processIngress p env message), e.beats = false := by
  rcases Service.processIngress_apart p env s message with
    ⟨hapart, -⟩ | ⟨-, -, error, hfault⟩ | ⟨-, -, s₁, hapart, hapart'⟩
  · obtain ⟨es, he, hes⟩ := hapart.effects
    rw [Service.handed_append he]
    exact fun e hm => (hes e hm).2
  · rw [hfault]
    exact fun e he => (Service.handleFault_handed s error e he).2
  · exact (Service.validation_handed hapart hapart').2.2.2.1

/-- A heartbeat comes from a worker of the current session, unless a caller
publishes one. -/
theorem heartbeat_sender {a : Action} (hcall : a.isCall = false) {e : Effect}
    (he : e ∈ x.sys.service.handed (x.step p a).sys.service) (hbeats : e.beats = true) :
    ∃ i env elapsed w, a = .worker i env elapsed ∧ x.workers[i]? = some w ∧
      w.epoch = x.sys.service.sessionId := by
  have hstore : ∀ which, x.sys.service.handed (x.serve p (.store which)).sys.service = [] := by
    intro which
    refine Service.handed_append ?_
    rw [List.append_nil]
    cases which <;> rfl
  have hreset : ∀ e ∈ x.sys.service.handed x.sys.service.startNewSession, e.beats = false :=
    fun e he => (Service.startNewSession_handed _ e he).2
  cases a with
  | call a => exact absurd hcall (by simp [Action.isCall])
  | processIngress env message =>
    exact absurd ((processIngress_beats env _ message e he).symm.trans hbeats) (by simp)
  | startNewSession => exact absurd ((hreset e he).symm.trans hbeats) (by simp)
  | stopTasks =>
    have hnone := hstore .heartbeatRunning
    rw [step] at he
    exact absurd (hnone ▸ he) (by simp)
  | stopNext i =>
    rw [step] at he
    rcases hi : x.stops[i]? with _ | _ | ⟨which, rest⟩
    · simp [hi] at he
    · rw [hi] at he
      exact absurd ((hreset e he).symm.trans hbeats) (by simp)
    · rw [hi] at he
      exact absurd (hstore which ▸ he) (by simp)
  | worker i env elapsed =>
    rw [step] at he
    rcases hi : x.workers[i]? with _ | w
    · simp [hi] at he
    · refine ⟨i, env, elapsed, w, rfl, hi, ?_⟩
      by_contra hstale
      rw [hi] at he
      dsimp only at he
      rw [runWorker_stale hstale] at he
      simp at he
  | dropOwner => exact absurd he (by simp [step])

/-- A session that counts as validated is being supervised.  In every run, with the
stores of `stop_background_tasks` and the checks of the workers anywhere between the
locked sections: as long as no such call is under way and the owner is there, an open
data channel was validated in this session and after the last heartbeat timeout, is
running, and has exactly one worker, of its own epoch and behind the stored stop
channel.  A heartbeat is sent by a worker of the current session only, and a worker of
another session changes nothing. -/
theorem validated_is_supervised (p : Platform) (sessionId requestSequence : ℕ)
    (as : List Action) :
    let x := Runs.run (step p) (init sessionId requestSequence) as
    (x.stops = [] → x.ownerAlive = true → x.sys.service.dataChannelOpened = true →
      ValidatedSince p x.log x.sys.service.sessionId ∧
      x.sys.service.heartbeatRunning = true ∧
      ∃! i, ∃ w, x.Watching i w ∧ x.sys.service.heartbeatStopTx = some w.stop) ∧
    (∀ a, a.isCall = false →
      ∀ e ∈ x.sys.service.handed (x.step p a).sys.service, e.beats = true →
        ∃ i env elapsed w, a = .worker i env elapsed ∧ x.workers[i]? = some w ∧
          w.epoch = x.sys.service.sessionId) ∧
    ∀ i w env elapsed, x.workers[i]? = some w → w.epoch ≠ x.sys.service.sessionId →
      (x.step p (.worker i env elapsed)).sys = x.sys := by
  intro x
  have h : Supervised p x := run_supervised sessionId requestSequence as
  refine ⟨fun hstops halive hopened => ?_,
    fun a hcall e he hbeats => heartbeat_sender hcall he hbeats,
    fun i w env elapsed hw hstale => ?_⟩
  · have hattended := h.attended hstops
    have hrun := hattended.opened hopened
    obtain ⟨k, hk, hall, hex⟩ := hattended.running hrun
    obtain ⟨i, w, hw⟩ := hex halive
    refine ⟨h.validated hopened, hrun, i, ⟨w, hw, hk.trans (congrArg some (hall i w hw).symm)⟩, ?_⟩
    rintro j ⟨v, hv, -⟩
    exact hattended.alone j i v w hv hw
  · rw [step, hw]
    exact runWorker_stale hstale env elapsed

/-- A validation and one round of the worker that it spawns: the session is open, and
the worker is back at the head of its loop. -/
example :
    let p : Platform := .reading [("ok", .object [("type", .string DcType.validation),
      ("data", .string "Validation Ok.")])]
    let x := Runs.run (step p) (init 3 0) (.processIngress (.at 1) ⟨3, .text "ok"⟩ ::
      List.replicate 5 (.worker 0 (.at 2) true))
    (x.sys.service.dataChannelOpened, x.stops, x.ownerAlive, x.workers) =
      (true, [], true, [{ epoch := 3, stop := 0, stage := .running }]) := by
  decide +kernel

end Watch

end Unitree
