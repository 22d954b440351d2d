/-
The LiDAR worker pool (`datachannel/lidar/service.rs`).

Up to 32 threads share a queue of four scans.  A worker that takes a scan looks whether
its generation is still current, decodes it, and offers the points to the callback
channel; what cannot be delivered is counted in one of the three logs of that worker, which
start anew when the worker meets another generation.  A worker ends when no handle of the
pool is left and the queue is empty.

* `WorkerPool.step_does` — everything a step can do;
* `WorkerPool.step_inv`, `WorkerPool.run_inv` — the crew, the logs and the channel agree;
* `WorkerPool.scans_accounted` — no scan is lost in silence;
* `WorkerPool.startup_all_or_nothing` — a pool that cannot start leaves nothing running.
-/
import UnitreeWebrtc.Crew
import UnitreeWebrtc.Tally
import UnitreeWebrtc.Traffic
import UnitreeWebrtc.Voxels

namespace Unitree

/-- The three logs of a worker. -/
inductive LidarLog where
  | dropped
  | disconnected
  | failed
deriving DecidableEq

namespace LidarLog

def name : LidarLog → String × String
  | dropped => ("lidar_callback_drop", "stale_or_backpressure")
  | disconnected => ("lidar_callback_drop", "dispatcher_disconnected")
  | failed => ("lidar_decode_failed", "invalid_lidar_data")

def order : List LidarLog := [dropped, disconnected, failed]

theorem mem_order (log : LidarLog) : log ∈ order := by
  cases log <;> decide

end LidarLog

/-- What becomes of a scan. -/
inductive ScanOutcome where
  | sent
  /-- At a time when this generation was current. -/
  | stale (current : ℕ)
  | backpressure
  | disconnected
  | failed
deriving DecidableEq

/-- The log that counts it. -/
def ScanOutcome.failure : ScanOutcome → Option LidarLog
  | sent => none
  | stale _ | backpressure => some .dropped
  | disconnected => some .disconnected
  | failed => some .failed

/-- What the pool does with a scan, and what its event is. -/
structure ScanDecoder (ρ π ε : Type) where
  generation : ρ → ℕ
  /-- What `submit` checks before it looks at the queue. -/
  validate : ρ → PortResult Unit
  decode : ρ → Except String π
  event : ρ → π → ε
  size : ε → EventClass × ℕ

/-- How far a worker is with the scan in its hands. -/
inductive ScanStage (π : Type) where
  | idle
  | taken
  /-- The generation was current. -/
  | checked
  | decoded (points : π)
  | ended

/-- Nothing is in the worker's hands. -/
def ScanStage.resting {π : Type} : ScanStage π → Bool
  | idle | ended => true
  | _ => false

structure ScanWorker (π : Type) where
  stage : ScanStage π
  generation : Option ℕ
  logs : Tally LidarLog Unit

structure WorkerPool (ρ π ε : Type) where
  crew : Crew ρ ScanOutcome
  workers : ℕ → ScanWorker π
  /-- The sender of the pool and its clones. -/
  handles : ℕ
  traffic : Traffic ε

namespace WorkerPool

variable {ρ π ε : Type}

def isEnded : ScanStage π → Bool
  | .ended => true
  | _ => false

/-- The answer of `submit`, for a pool of `n`. -/
def submit (d : ScanDecoder ρ π ε) (n : ℕ) (p : WorkerPool ρ π ε) (request : ρ) :
    PortResult Unit :=
  match d.validate request with
  | .error e => .error e
  | .ok () =>
    if ∀ w < n, isEnded (p.workers w).stage then .error "LiDAR workers disconnected"
    else if p.crew.queue.length < 4 then .ok ()
    else .error "LiDAR worker queue full"

inductive Action (ρ ε : Type) where
  | submit (request : ρ)
  | cloneHandle
  | dropHandle
  | recv (w : ℕ)
  | checkGeneration (w now : ℕ)
  | decode (w now : ℕ)
  | send (w now : ℕ)
  /-- What others do with the callback channel. -/
  | channel (a : Traffic.Action ε)

def setWorker (p : WorkerPool ρ π ε) (w : ℕ) (worker : ScanWorker π) : WorkerPool ρ π ε :=
  { p with workers := Function.update p.workers w worker }

/-- The worker is done with its scan, and counts what has failed. -/
def settle (p : WorkerPool ρ π ε) (w : ℕ) (outcome : ScanOutcome) (now : ℕ) :
    WorkerPool ρ π ε :=
  let worker := p.workers w
  { p with crew := p.crew.finish w outcome }.setWorker w
    { worker with
      stage := .idle
      logs :=
        match outcome.failure with
        | none => worker.logs
        | some log => worker.logs.record log now none }

/-- `rx.recv()`, and the start of the loop body. -/
def recv (d : ScanDecoder ρ π ε) (p : WorkerPool ρ π ε) (w : ℕ) : WorkerPool ρ π ε :=
  let worker := p.workers w
  match p.crew.queue with
  | r :: _ =>
    { p with crew := p.crew.take w }.setWorker w
      { stage := .taken
        generation := some (d.generation r)
        logs :=
          if worker.generation = some (d.generation r) then worker.logs
          else worker.logs.reset LidarLog.order (d.generation r) }
  | [] =>
    if p.handles = 0 then
      p.setWorker w { worker with stage := .ended, logs := worker.logs.drop LidarLog.order }
    else p

/-- What others may do with the channel: the workers keep a sender of their own. -/
def allowed (t : Traffic ε) : Traffic.Action ε → Bool
  | .dropSender => decide (1 < t.channel.senders)
  | _ => true

def step (d : ScanDecoder ρ π ε) (n : ℕ) (p : WorkerPool ρ π ε) :
    Action ρ ε → WorkerPool ρ π ε
  | .submit request =>
    if p.handles = 0 then p
    else
      match submit d n p request with
      | .error _ => p
      | .ok () => { p with crew := p.crew.accept request }
  | .cloneHandle => if p.handles = 0 then p else { p with handles := p.handles + 1 }
  | .dropHandle => { p with handles := p.handles - 1 }
  | .recv w =>
    if w < n then
      match (p.workers w).stage with
      | .idle => recv d p w
      | _ => p
    else p
  | .checkGeneration w now =>
    match (p.workers w).stage, p.crew.hands w with
    | .taken, some r =>
      if p.traffic.channel.current = d.generation r then
        p.setWorker w { p.workers w with stage := .checked }
      else p.settle w (.stale p.traffic.channel.current) now
    | _, _ => p
  | .decode w now =>
    match (p.workers w).stage, p.crew.hands w with
    | .checked, some r =>
      match d.decode r with
      | .ok points => p.setWorker w { p.workers w with stage := .decoded points }
      | .error _ => p.settle w .failed now
    | _, _ => p
  | .send w now =>
    match (p.workers w).stage, p.crew.hands w with
    | .decoded points, some r =>
      match p.traffic.channel.trySend d.size (d.generation r) (d.event r points) with
      | some (channel, .ok ()) =>
        { p with traffic :=
          { p.traffic with
            channel
            accepted := p.traffic.accepted ++
              [Channel.envelope d.size (d.generation r) (d.event r points)] } }.settle w .sent now
      | some (channel, .error (.full _)) =>
        { p with traffic := { p.traffic with channel } }.settle w .backpressure now
      | some (channel, .error (.disconnected _)) =>
        { p with traffic := { p.traffic with channel } }.settle w .disconnected now
      | none => p
    | _, _ => p
  | .channel a =>
    if allowed p.traffic a then
      { p with traffic := (p.traffic.step d.size a).getD p.traffic }
    else p

/-- The threads of a pool before they have done anything. -/
def started (channel : Channel ε) (handles : ℕ) : WorkerPool ρ π ε :=
  { crew := .empty
    workers := fun _ => { stage := .idle, generation := none, logs := .new LidarLog.name }
    handles
    traffic := { channel, held := [], accepted := [], dequeued := [] } }

/-- `try_new_with_spawner`: the answer, how many threads were started, and the pool.  On a
failure the sender is dropped before the threads are joined. -/
def tryNew (channel : Channel ε) (workerCount : ℕ) (spawn : ℕ → Bool) :
    PortResult Unit × ℕ × WorkerPool ρ π ε :=
  if ¬ (1 ≤ workerCount ∧ workerCount ≤ 32) then
    (.error "lidar_workers must be between 1 and 32", 0, started channel 0)
  else
    match (List.range workerCount).find? fun w => !spawn w with
    | some w => (.error "Failed to start LiDAR worker", w, started channel 0)
    | none => (.ok (), workerCount, started channel 1)

/-! ### What a step can do -/

/-- A step of the channel keeps its books and what it has accepted. -/
structure Grows (size : ε → EventClass × ℕ) (t t' : Traffic ε) : Prop where
  inv : ∀ limit, Traffic.Inv size limit t → Traffic.Inv size limit t'
  senders : t.channel.senders ≠ 0 → t'.channel.senders ≠ 0
  accepted : t.accepted <+: t'.accepted

theorem Grows.refl (size : ε → EventClass × ℕ) (t : Traffic ε) : Grows size t t :=
  ⟨fun _ h => h, id, List.prefix_rfl⟩

/-- What an outcome says of the scan, and of the channel before and after: an event is sent
to a current generation, a stale scan is of another one, and what is refused is refused for
its generation, for want of room or of a receiver. -/
def Truthful (d : ScanDecoder ρ π ε) (t t' : Traffic ε) (r : ρ) : ScanOutcome → Prop
  | .sent => t.channel.current = d.generation r ∧ ∃ points, d.decode r = .ok points ∧
      t'.accepted = t.accepted ++ [Channel.envelope d.size (d.generation r) (d.event r points)]
  | .stale current => t.channel.current = current ∧ d.generation r ≠ current ∧ t' = t
  | .failed => (∃ e, d.decode r = .error e) ∧ t' = t
  | .backpressure => (∃ points, d.decode r = .ok points ∧
      (t.channel.current ≠ d.generation r ∨ t.channel.Exhausted d.size (d.event r points))) ∧
      t' = t
  | .disconnected => (∃ points, d.decode r = .ok points) ∧ t.channel.receiverAlive = false ∧
      t' = t

/-- Everything a step can do. -/
inductive Does (d : ScanDecoder ρ π ε) (n : ℕ) (p : WorkerPool ρ π ε) : WorkerPool ρ π ε → Prop
  | elsewhere (traffic : Traffic ε) (ht : Grows d.size p.traffic traffic) :
      Does d n p { p with traffic }
  | counts (handles : ℕ) (hgone : p.handles = 0 → handles = 0) : Does d n p { p with handles }
  | accepts (r : ρ) (hhandles : p.handles ≠ 0) (hvalid : d.validate r = .ok ())
      (hqueue : p.crew.queue.length < 4) :
      Does d n p { p with crew := p.crew.accept r }
  | takes (w : ℕ) (r : ρ) (rest : List ρ) (hw : w < n) (hidle : (p.workers w).stage = .idle)
      (hqueue : p.crew.queue = r :: rest) (logs : Tally LidarLog Unit)
      (hlogs : (p.workers w).generation = some (d.generation r) ∧ logs = (p.workers w).logs ∨
        logs = (p.workers w).logs.reset LidarLog.order (d.generation r)) :
      Does d n p ({ p with crew := p.crew.take w }.setWorker w
        { stage := .taken, generation := some (d.generation r), logs })
  | advances (w : ℕ) (r : ρ) (hr : p.crew.hands w = some r) (stage : ScanStage π)
      (hstage : stage = .checked ∨ ∃ points, stage = .decoded points ∧ d.decode r = .ok points) :
      Does d n p (p.setWorker w { p.workers w with stage })
  | settles (w : ℕ) (r : ρ) (hr : p.crew.hands w = some r) (outcome : ScanOutcome) (now : ℕ)
      (traffic : Traffic ε) (ht : Grows d.size p.traffic traffic)
      (htrue : Truthful d p.traffic traffic r outcome) :
      Does d n p ({ p with traffic }.settle w outcome now)
  | ends (w : ℕ) (hw : w < n) (hidle : (p.workers w).stage = .idle) (hhandles : p.handles = 0)
      (hqueue : p.crew.queue = []) :
      Does d n p (p.setWorker w
        { p.workers w with stage := .ended, logs := (p.workers w).logs.drop LidarLog.order })

/-- The crew, the logs of the workers and the channel agree. -/
structure Inv (d : ScanDecoder ρ π ε) (n limit : ℕ) (p : WorkerPool ρ π ε) : Prop where
  crew : p.crew.Inv n
  admitted : ∀ r ∈ p.crew.accepted, d.validate r = .ok ()
  bounded : p.crew.queue.length ≤ 4
  traffic : Traffic.Inv d.size limit p.traffic
  senders : p.traffic.channel.senders ≠ 0
  resting : ∀ w, p.crew.hands w = none ↔ (p.workers w).stage.resting = true
  decoded : ∀ w points, (p.workers w).stage = .decoded points →
    ∀ r ∈ p.crew.hands w, d.decode r = .ok points
  balanced : ∀ w, (p.workers w).logs.Balanced
  label : ∀ w, ∀ r ∈ p.crew.hands w, (p.workers w).generation = some (d.generation r)
  generation : ∀ w g, (p.workers w).generation = some g → (p.workers w).logs.label = g
  recorded : ∀ w, (p.workers w).logs.recorded = (p.crew.finishedBy w).filterMap fun f =>
    f.2.failure.map fun log => (log, d.generation f.1)
  ended : ∀ w, (p.workers w).stage = .ended → p.handles = 0 ∧ p.crew.queue = [] ∧
    ∀ log g, (p.workers w).logs.waiting log g = 0
  sends : (p.crew.finished.filterMap fun f =>
    if f.2.2 = .sent then (d.decode f.2.1).toOption.map fun points =>
      Channel.envelope d.size (d.generation f.2.1) (d.event f.2.1 points)
    else none).Sublist p.traffic.accepted

variable {d : ScanDecoder ρ π ε} {n limit : ℕ} {p : WorkerPool ρ π ε}

/-- Only the drop of a sender takes one away. -/
theorem step_senders {size : ε → EventClass × ℕ} {t t' : Traffic ε} {a : Traffic.Action ε}
    (h : Traffic.Inv size limit t) (hstep : t.step size a = some t')
    (ha : allowed t a = true) (hne : t.channel.senders ≠ 0) : t'.channel.senders ≠ 0 := by
  cases a with
  | trySend generation event =>
    rw [Traffic.step, if_neg hne, Channel.trySend_eq h.ledger h.closed_eq] at hstep
    split at hstep
    · exact Option.some_inj.mp hstep ▸ hne
    split at hstep
    · exact Option.some_inj.mp hstep ▸ hne
    split at hstep
    · exact Option.some_inj.mp hstep ▸ hne
    · exact Option.some_inj.mp hstep ▸ hne
  | setGeneration generation => exact Option.some_inj.mp hstep ▸ hne
  | cloneSender =>
    rw [Traffic.step, if_neg hne] at hstep
    exact Option.some_inj.mp hstep ▸ Nat.succ_ne_zero _
  | dropSender =>
    have hmany : 1 < t.channel.senders := of_decide_eq_true ha
    have heq : t'.channel.senders = t.channel.senders - 1 :=
      Option.some_inj.mp hstep ▸ rfl
    omega
  | receive blocked keep =>
    obtain ⟨c, stale, r, hserve, hr⟩ := Traffic.serve_spec h.ledger blocked
    have hsenders : c.senders ≠ 0 := hr.frame.senders ▸ hne
    rw [Traffic.step] at hstep
    split at hstep
    · rw [hserve] at hstep
      rcases r with e | d
      · exact Option.some_inj.mp hstep ▸ hsenders
      · dsimp only at hstep
        split at hstep
        · exact Option.some_inj.mp hstep ▸ hsenders
        · obtain ⟨c', hc', rfl⟩ := Option.map_eq_some_iff.mp hstep
          exact (Channel.frame_drop hc').1.senders ▸ hsenders
    · exact Option.some_inj.mp hstep ▸ hne
  | takeEvent i => exact Option.some_inj.mp hstep ▸ hne
  | dropHeld i =>
    rw [Traffic.step] at hstep
    split at hstep
    · exact Option.some_inj.mp hstep ▸ hne
    · obtain ⟨c', hc', rfl⟩ := Option.map_eq_some_iff.mp hstep
      exact (Channel.frame_drop hc').1.senders ▸ hne
  | dropReceiver =>
    rw [Traffic.step] at hstep
    split at hstep
    · obtain ⟨⟨c', ds⟩, hc', rfl⟩ := Option.map_eq_some_iff.mp hstep
      obtain ⟨⟨c₁, ds₁⟩, hdrain, heq⟩ := Option.map_eq_some_iff.mp hc'
      have hl : Ledger size
          { t.channel with usage := { t.channel.usage with closed := true } } t.held :=
        ⟨h.ledger.filed, ⟨h.ledger.accounted.count_eq, h.ledger.accounted.bytes_eq⟩,
          h.ledger.sized, h.ledger.count_le, h.ledger.bytes_le⟩
      obtain ⟨c₂, ds₂, hdrain₂, hsweep, -⟩ := Channel.drain_spec _ hl
      obtain ⟨rfl, rfl⟩ : c₁ = c₂ ∧ ds₁ = ds₂ := by simpa using hdrain.symm.trans hdrain₂
      obtain ⟨rfl, rfl⟩ := Prod.mk.inj heq
      exact hsweep.frame.senders ▸ hne
    · exact Option.some_inj.mp hstep ▸ hne

theorem channel_grows {size : ε → EventClass × ℕ} {t : Traffic ε} {a : Traffic.Action ε}
    (h : Traffic.Inv size limit t) (ha : allowed t a = true) :
    Grows size t ((t.step size a).getD t) := by
  obtain ⟨t', ht', hinv'⟩ := Traffic.step_inv h a
  refine ⟨fun limit' h' => ?_, fun hne => ?_, ?_⟩
  · obtain ⟨t₁, ht₁, hinv₁⟩ := Traffic.step_inv h' a
    rw [ht₁]
    exact hinv₁
  · rw [ht']
    exact step_senders h ht' ha hne
  · rw [ht']
    rcases Traffic.step_accepted ht' with hsame | ⟨generation, event, -, hnew⟩
    · exact hsame ▸ List.prefix_rfl
    · exact hnew ▸ List.prefix_append _ _

/-- What a worker's send can do. -/
theorem send_does (h : Inv d n limit p) {w : ℕ} {points : π} {r : ρ}
    (hstage : (p.workers w).stage = .decoded points) (hr : p.crew.hands w = some r) (now : ℕ) :
    Does d n p (step d n p (.send w now)) := by
  have hdecode := h.decoded w points hstage r hr
  have hgrows := channel_grows h.traffic (a := .trySend (d.generation r) (d.event r points)) rfl
  rw [Traffic.step, if_neg h.senders, Channel.trySend_eq h.traffic.ledger h.traffic.closed_eq]
    at hgrows
  rw [step, hstage, hr]
  dsimp only
  rw [Channel.trySend_eq h.traffic.ledger h.traffic.closed_eq]
  split at hgrows
  next hstale =>
    rw [if_pos hstale]
    exact .settles w r hr .backpressure now _ hgrows ⟨⟨points, hdecode, .inl hstale⟩, rfl⟩
  next hcurrent =>
    rw [if_neg hcurrent]
    split at hgrows
    next hdead =>
      rw [if_pos hdead]
      exact .settles w r hr .disconnected now _ hgrows ⟨⟨points, hdecode⟩, hdead, rfl⟩
    next halive =>
      rw [if_neg halive]
      split at hgrows
      next hfull =>
        rw [if_pos hfull]
        exact .settles w r hr .backpressure now _ hgrows ⟨⟨points, hdecode, .inr hfull⟩, rfl⟩
      next hroom =>
        rw [if_neg hroom]
        exact .settles w r hr .sent now _ hgrows ⟨not_not.mp hcurrent, points, hdecode, rfl⟩

theorem submit_ok {r : ρ} (h : submit d n p r = .ok ()) :
    d.validate r = .ok () ∧ p.crew.queue.length < 4 := by
  rw [submit] at h
  split at h
  · exact absurd h (by simp)
  next hvalid =>
    split at h
    · exact absurd h (by simp)
    split at h
    next hroom => exact ⟨hvalid, hroom⟩
    next => exact absurd h (by simp)

theorem step_does (h : Inv d n limit p) (a : Action ρ ε) : Does d n p (step d n p a) := by
  have hskip : Does d n p p := .elsewhere p.traffic (.refl d.size p.traffic)
  cases a with
  | submit request =>
    rw [step]
    split
    · exact hskip
    next hhandles =>
      split
      next e hout => exact hskip
      next hout =>
        obtain ⟨hvalid, hroom⟩ := submit_ok hout
        exact .accepts request hhandles hvalid hroom
  | cloneHandle =>
    rw [step]
    split
    · exact hskip
    next hne => exact .counts _ fun hzero => absurd hzero hne
  | dropHandle => exact .counts _ fun hzero => by omega
  | recv w =>
    rw [step]
    split
    next hw =>
      split
      next hidle =>
        rw [recv]
        split
        next r rest hqueue =>
          refine .takes w r rest hw hidle hqueue _ ?_
          split
          next hsame => exact .inl ⟨hsame, rfl⟩
          next => exact .inr rfl
        next hqueue =>
          split
          next hhandles => exact .ends w hw hidle hhandles hqueue
          next => exact hskip
      next => exact hskip
    next => exact hskip
  | checkGeneration w now =>
    rw [step]
    split
    next r hstage hr =>
      split
      next => exact .advances w r hr .checked (.inl rfl)
      next hstale =>
        exact .settles w r hr (.stale p.traffic.channel.current) now p.traffic
          (.refl d.size p.traffic) ⟨rfl, fun heq => hstale heq.symm, rfl⟩
    next => exact hskip
  | decode w now =>
    rw [step]
    split
    next r hstage hr =>
      split
      next points hdecode => exact .advances w r hr _ (.inr ⟨points, rfl, hdecode⟩)
      next e hdecode =>
        exact .settles w r hr .failed now p.traffic (.refl d.size p.traffic) ⟨⟨e, hdecode⟩, rfl⟩
    next => exact hskip
  | send w now =>
    rcases hstage : (p.workers w).stage with _ | _ | _ | points | _
    case decoded =>
      rcases hr : p.crew.hands w with _ | r
      · rw [step, hstage, hr]
        exact hskip
      · exact send_does h hstage hr now
    all_goals
      rw [step, hstage]
      exact hskip
  | channel a =>
    rw [step]
    split
    next ha => exact .elsewhere _ (channel_grows h.traffic ha)
    next => exact hskip

/-! ### Every step keeps the invariant -/

@[simp] theorem setWorker_self (p : WorkerPool ρ π ε) (w : ℕ) (worker : ScanWorker π) :
    (p.setWorker w worker).workers w = worker := Function.update_self ..

theorem setWorker_ne (p : WorkerPool ρ π ε) {w v : ℕ} (h : v ≠ w) (worker : ScanWorker π) :
    (p.setWorker w worker).workers v = p.workers v := Function.update_of_ne h ..

theorem Inv.elsewhere (h : Inv d n limit p) {traffic : Traffic ε}
    (ht : Grows d.size p.traffic traffic) : Inv d n limit { p with traffic } :=
  { h with
    traffic := ht.inv limit h.traffic
    senders := ht.senders h.senders
    sends := h.sends.trans ht.accepted.sublist }

theorem Inv.accepts (h : Inv d n limit p) {r : ρ} (hhandles : p.handles ≠ 0)
    (hvalid : d.validate r = .ok ()) (hqueue : p.crew.queue.length < 4) :
    Inv d n limit { p with crew := p.crew.accept r } :=
  { h with
    crew := Crew.inv_accept h.crew r
    admitted := fun r' hr' => by
      rcases List.mem_append.mp hr' with hold | hnew
      · exact h.admitted r' hold
      · rwa [List.mem_singleton.mp hnew]
    bounded := by
      rw [Crew.accept, List.length_append, List.length_singleton]
      omega
    ended := fun w hw => absurd (h.ended w hw).1 hhandles }

/-- A step of one worker that leaves the crew alone. -/
theorem Inv.worker (h : Inv d n limit p) {w : ℕ} {worker : ScanWorker π}
    (hresting : worker.stage.resting = (p.workers w).stage.resting)
    (hdecoded : ∀ points, worker.stage = .decoded points →
      ∀ r ∈ p.crew.hands w, d.decode r = .ok points)
    (hgeneration : worker.generation = (p.workers w).generation)
    (hbalanced : worker.logs.Balanced) (hlabel : worker.logs.label = (p.workers w).logs.label)
    (hrecorded : worker.logs.recorded = (p.workers w).logs.recorded)
    (hended : worker.stage = .ended → p.handles = 0 ∧ p.crew.queue = [] ∧
      ∀ log g, worker.logs.waiting log g = 0) : Inv d n limit (p.setWorker w worker) := by
  have hcase : ∀ {P : ScanWorker π → ℕ → Prop}, P worker w → (∀ v, P (p.workers v) v) →
      ∀ v, P ((p.setWorker w worker).workers v) v := by
    intro P hw hall v
    by_cases hv : v = w
    · rw [hv, setWorker_self]
      exact hw
    · rw [setWorker_ne p hv]
      exact hall v
  exact { h with
    resting := hcase (P := fun worker v => p.crew.hands v = none ↔ worker.stage.resting = true)
      (by rw [hresting]; exact h.resting w) h.resting
    decoded := hcase (P := fun worker v => ∀ points, worker.stage = .decoded points →
      ∀ r ∈ p.crew.hands v, d.decode r = .ok points) hdecoded h.decoded
    balanced := hcase (P := fun worker _ => worker.logs.Balanced) hbalanced h.balanced
    label := hcase (P := fun worker v => ∀ r ∈ p.crew.hands v,
      worker.generation = some (d.generation r)) (by rw [hgeneration]; exact h.label w) h.label
    generation := hcase (P := fun worker _ => ∀ g, worker.generation = some g →
      worker.logs.label = g) (by rw [hgeneration, hlabel]; exact h.generation w) h.generation
    recorded := hcase (P := fun worker v => worker.logs.recorded = (p.crew.finishedBy v).filterMap
      fun f => f.2.failure.map fun log => (log, d.generation f.1))
      (by rw [hrecorded]; exact h.recorded w) h.recorded
    ended := hcase (P := fun worker _ => worker.stage = .ended → p.handles = 0 ∧
      p.crew.queue = [] ∧ ∀ log g, worker.logs.waiting log g = 0) hended h.ended }

theorem Inv.takes (h : Inv d n limit p) {w : ℕ} {r : ρ} {rest : List ρ} (hw : w < n)
    (hidle : (p.workers w).stage = .idle) (hqueue : p.crew.queue = r :: rest)
    {logs : Tally LidarLog Unit}
    (hlogs : (p.workers w).generation = some (d.generation r) ∧ logs = (p.workers w).logs ∨
      logs = (p.workers w).logs.reset LidarLog.order (d.generation r)) :
    Inv d n limit ({ p with crew := p.crew.take w }.setWorker w
      { stage := .taken, generation := some (d.generation r), logs }) := by
  have hnone : p.crew.hands w = none := (h.resting w).mpr (by rw [hidle]; rfl)
  have hbalanced : logs.Balanced := by
    rcases hlogs with ⟨-, rfl⟩ | rfl
    · exact h.balanced w
    · exact Tally.balanced_reset (h.balanced w) LidarLog.mem_order _
  have hlabel : logs.label = d.generation r := by
    rcases hlogs with ⟨hsame, rfl⟩ | rfl
    · exact h.generation w _ hsame
    · rfl
  have hrecorded : logs.recorded = (p.workers w).logs.recorded := by
    rcases hlogs with ⟨-, rfl⟩ | rfl
    · rfl
    · exact Tally.reset_recorded (h.balanced w) _
  have hcrew := Crew.inv_take h.crew hw hnone
  rw [Crew.take_eq hqueue] at hcrew ⊢
  have hself : Function.update p.crew.hands w (some r) w = some r := Function.update_self ..
  have hother : ∀ {v}, v ≠ w → Function.update p.crew.hands w (some r) v = p.crew.hands v :=
    fun hv => Function.update_of_ne hv ..
  refine { h with
    crew := hcrew
    bounded := ?_
    resting := fun v => ?_
    decoded := fun v points hstage r' hr' => ?_
    balanced := fun v => ?_
    label := fun v r' hr' => ?_
    generation := fun v g hg => ?_
    recorded := fun v => ?_
    ended := fun v hend => ?_ }
  · have := h.bounded
    rw [hqueue, List.length_cons] at this
    exact Nat.le_of_succ_le this
  all_goals by_cases hv : v = w
  · subst hv
    rw [setWorker_self]
    exact iff_of_false (by simp [setWorker]) (by simp [ScanStage.resting])
  · rw [setWorker_ne _ hv]
    exact (iff_of_eq (congrArg (· = none) (hother hv))).trans (h.resting v)
  · subst hv
    rw [setWorker_self] at hstage
    exact absurd hstage (by simp)
  · rw [setWorker_ne _ hv] at hstage
    exact h.decoded v points hstage r' ((hother hv).symm.trans hr')
  · subst hv
    rw [setWorker_self]
    exact hbalanced
  · rw [setWorker_ne _ hv]
    exact h.balanced v
  · subst hv
    rw [setWorker_self]
    obtain rfl := Option.some_inj.mp (hself.symm.trans hr')
    rfl
  · rw [setWorker_ne _ hv]
    exact h.label v r' ((hother hv).symm.trans hr')
  · subst hv
    rw [setWorker_self] at hg ⊢
    exact hlabel.trans (Option.some_inj.mp hg)
  · rw [setWorker_ne _ hv] at hg ⊢
    exact h.generation v g hg
  · subst hv
    rw [setWorker_self]
    exact hrecorded.trans (h.recorded v)
  · rw [setWorker_ne _ hv]
    exact h.recorded v
  · subst hv
    rw [setWorker_self] at hend
    exact absurd hend (by simp)
  · rw [setWorker_ne _ hv] at hend
    exact absurd ((h.ended v hend).2.1.symm.trans hqueue) (by simp)

/-- The logs of a worker after it has counted an outcome. -/
def counted (logs : Tally LidarLog Unit) (outcome : ScanOutcome) (now : ℕ) : Tally LidarLog Unit :=
  match outcome.failure with
  | none => logs
  | some log => logs.record log now none

theorem counted_spec {logs : Tally LidarLog Unit} (hb : logs.Balanced) (outcome : ScanOutcome)
    (now : ℕ) :
    (counted logs outcome now).Balanced ∧ (counted logs outcome now).label = logs.label ∧
      (counted logs outcome now).recorded =
        logs.recorded ++ (outcome.failure.map fun log => (log, logs.label)).toList := by
  rw [counted]
  rcases outcome.failure with _ | log
  · exact ⟨hb, rfl, (List.append_nil _).symm⟩
  · exact ⟨Tally.balanced_record hb log now none, rfl, rfl⟩

theorem Inv.settles (h : Inv d n limit p) {w : ℕ} {r : ρ} (hr : p.crew.hands w = some r)
    (outcome : ScanOutcome) (now : ℕ) {traffic : Traffic ε}
    (ht : Grows d.size p.traffic traffic) (htrue : Truthful d p.traffic traffic r outcome) :
    Inv d n limit ({ p with traffic }.settle w outcome now) := by
  have hactive : (p.workers w).stage.resting = false := by
    rw [← Bool.not_eq_true, ← h.resting w, hr]
    simp
  obtain ⟨hbalanced, hlabel, hrecorded⟩ := counted_spec (h.balanced w) outcome now
  have hgen := h.label w r hr
  have heq : { p with traffic }.settle w outcome now =
      { p with traffic, crew := p.crew.finish w outcome }.setWorker w
        { p.workers w with stage := .idle, logs := counted (p.workers w).logs outcome now } := rfl
  have hself : (p.crew.finish w outcome).hands w = none := by
    rw [Crew.finish_hands hr, Function.update_self]
  have hother : ∀ {v}, v ≠ w → (p.crew.finish w outcome).hands v = p.crew.hands v := fun hv => by
    rw [Crew.finish_hands hr, Function.update_of_ne hv]
  rw [heq]
  refine { h with
    crew := Crew.inv_finish h.crew w outcome
    admitted := fun r' hr' => h.admitted r' (by rwa [← Crew.finish_accepted p.crew w outcome])
    bounded := (congrArg List.length (Crew.finish_queue w outcome)).trans_le h.bounded
    traffic := ht.inv limit h.traffic
    senders := ht.senders h.senders
    resting := fun v => ?_
    decoded := fun v points hstage r' hr' => ?_
    balanced := fun v => ?_
    label := fun v r' hr' => ?_
    generation := fun v g hg => ?_
    recorded := fun v => ?_
    ended := fun v hend => ?_
    sends := ?_ }
  pick_goal 8
  · -- a send is accepted after everything that was sent before
    show ((p.crew.finish w outcome).finished.filterMap _).Sublist traffic.accepted
    rw [Crew.finish_finished hr, List.filterMap_append]
    by_cases hsent : outcome = .sent
    · subst hsent
      obtain ⟨-, points, hdecode, hacc⟩ := htrue
      rw [hacc]
      refine h.sends.append ?_
      simp [hdecode, Except.toOption]
    · have hnil : [(w, r, outcome)].filterMap (fun f : ℕ × ρ × ScanOutcome =>
          if f.2.2 = .sent then (d.decode f.2.1).toOption.map fun points =>
            Channel.envelope d.size (d.generation f.2.1) (d.event f.2.1 points)
          else none) = [] := by
        simp [hsent]
      rw [hnil, List.append_nil]
      exact h.sends.trans ht.accepted.sublist
  all_goals by_cases hv : v = w
  · subst hv
    rw [setWorker_self]
    exact iff_of_true hself rfl
  · rw [setWorker_ne _ hv]
    exact (iff_of_eq (congrArg (· = none) (hother hv))).trans (h.resting v)
  · subst hv
    rw [setWorker_self] at hstage
    exact absurd hstage (by simp)
  · rw [setWorker_ne _ hv] at hstage
    exact h.decoded v points hstage r' ((hother hv).symm.trans hr')
  · subst hv
    rw [setWorker_self]
    exact hbalanced
  · rw [setWorker_ne _ hv]
    exact h.balanced v
  · subst hv
    exact absurd (hself.symm.trans hr') (by simp)
  · rw [setWorker_ne _ hv]
    exact h.label v r' ((hother hv).symm.trans hr')
  · subst hv
    rw [setWorker_self] at hg ⊢
    exact hlabel.trans (h.generation v g hg)
  · rw [setWorker_ne _ hv] at hg ⊢
    exact h.generation v g hg
  · subst hv
    rw [setWorker_self]
    refine hrecorded.trans ?_
    show _ = ((p.crew.finish v outcome).finishedBy v).filterMap _
    rw [Crew.finishedBy_finish hr, if_pos rfl, List.filterMap_append, ← h.recorded v,
      h.generation v _ hgen]
    cases hf : outcome.failure <;> simp [hf]
  · rw [setWorker_ne _ hv]
    show _ = ((p.crew.finish w outcome).finishedBy v).filterMap _
    rw [Crew.finishedBy_finish hr, if_neg hv, List.append_nil]
    exact h.recorded v
  · subst hv
    rw [setWorker_self] at hend
    exact absurd hend (by simp)
  · rw [setWorker_ne _ hv] at hend ⊢
    obtain ⟨hhandles, hqueue, hwaiting⟩ := h.ended v hend
    exact ⟨hhandles, (Crew.finish_queue w outcome).trans hqueue, hwaiting⟩

theorem Does.inv {p' : WorkerPool ρ π ε} (hdoes : Does d n p p') (h : Inv d n limit p) :
    Inv d n limit p' := by
  cases hdoes with
  | elsewhere traffic ht => exact h.elsewhere ht
  | counts handles hgone =>
    exact { h with ended := fun w hw => ⟨hgone (h.ended w hw).1, (h.ended w hw).2⟩ }
  | accepts r hhandles hvalid hqueue => exact h.accepts hhandles hvalid hqueue
  | takes w r rest hw hidle hqueue logs hlogs => exact h.takes hw hidle hqueue hlogs
  | advances w r hr stage hstage =>
    have hactive : (p.workers w).stage.resting = false := by
      rw [← Bool.not_eq_true, ← h.resting w, hr]
      simp
    refine h.worker ?_ (fun points hpoints r' hr' => ?_) rfl (h.balanced w) rfl rfl
      fun hend => ?_
    · rcases hstage with rfl | ⟨points, rfl, -⟩ <;> exact hactive.symm
    · obtain rfl := Option.some_inj.mp (hr.symm.trans hr')
      rcases hstage with rfl | ⟨points', rfl, hdecode⟩
      · exact absurd hpoints (by simp)
      · rw [ScanStage.decoded.injEq] at hpoints
        exact hpoints ▸ hdecode
    · rcases hstage with rfl | ⟨points, rfl, -⟩ <;> exact absurd hend (by simp)
  | settles w r hr outcome now traffic ht htrue => exact h.settles hr outcome now ht htrue
  | ends w hw hidle hhandles hqueue =>
    have hfew := h.balanced w
    refine h.worker (by rw [hidle]; rfl) (fun points hpoints => absurd hpoints (by simp)) rfl
      (Tally.balanced_drop hfew) Tally.drop_label (Tally.drop_recorded hfew)
      fun _ => ⟨hhandles, hqueue, fun log g => ?_⟩
    exact Tally.drop_waiting hfew LidarLog.mem_order log g

theorem step_inv (d : ScanDecoder ρ π ε) (n : ℕ) (p : WorkerPool ρ π ε) (a : Action ρ ε)
    (h : Inv d n limit p) : Inv d n limit (step d n p a) := (step_does h a).inv h

theorem started_inv (d : ScanDecoder ρ π ε) (n : ℕ) {c : Channel ε}
    (hopen : Channel.open' limit = .ok c) (handles : ℕ) :
    Inv d n limit (started c handles : WorkerPool ρ π ε) where
  crew := Crew.inv_empty n
  admitted _ hr := absurd hr (by simp [started, Crew.empty])
  bounded := Nat.zero_le _
  traffic := Traffic.start_inv hopen
  senders := by
    rw [Channel.open'] at hopen
    split at hopen
    · rw [← Except.ok.inj hopen]
      exact Nat.one_ne_zero
    · exact absurd hopen (by simp)
  resting _ := iff_of_true rfl rfl
  decoded _ _ hstage := absurd hstage (by simp [started])
  balanced _ := Tally.balanced_new _
  label _ _ hr := absurd hr (by simp [started, Crew.empty])
  generation _ _ hg := absurd hg (by simp [started])
  recorded _ := rfl
  ended _ hend := absurd hend (by simp [started])
  sends := List.Sublist.slnil

theorem run_inv (d : ScanDecoder ρ π ε) (n : ℕ) {c : Channel ε}
    (hopen : Channel.open' limit = .ok c) (handles : ℕ) (as : List (Action ρ ε)) :
    Inv d n limit (Runs.run (step d n) (started c handles) as) :=
  Runs.run_invariant (step_inv d n) as (started_inv d n hopen handles)

/-! ### Scans -/

/-- `decode_lidar`, and the event of its points. -/
def lidarDecoder {W : Type} (formats : FloatFormats W UInt32) (toF64 : Number → W)
    (decompress : List UInt8 → ℕ → Except String (List UInt8)) (footprint : Value → Footprint)
    (base : ℕ) : ScanDecoder LidarDecodeRequest (List UInt32) CallbackEvent where
  generation r := r.generation
  validate r :=
    let (x, y, z) := r.metadata.origin
    match validateGeometry formats r.metadata.srcSize ⟨toF64 x, toF64 y, toF64 z⟩
        (toF64 r.metadata.resolution) with
    | .error e => .error e
    | .ok () =>
      if r.compressedData.length > maxCompressedBytes then
        .error "LiDAR compressed size exceeds resource budget"
      else .ok ()
  decode r :=
    let (x, y, z) := r.metadata.origin
    decodeLidar formats decompress r.compressedData r.metadata.srcSize
      ⟨toF64 x, toF64 y, toF64 z⟩ (toF64 r.metadata.resolution)
  event r points :=
    .lidarCallback { data := r.topic, capacity := r.topic.utf8ByteSize }
      { value := r.payload, footprint := footprint r.payload }
      { data := points, capacity := points.length }
  size := eventSize base

/-- The step finishes a scan that was in a worker's hands, with an outcome that tells the
truth. -/
structure Finishes (d : ScanDecoder ρ π ε) (p p' : WorkerPool ρ π ε) (f : ℕ × ρ × ScanOutcome) :
    Prop where
  hands : p.crew.hands f.1 = some f.2.1
  finished : p'.crew.finished = p.crew.finished ++ [f]
  truthful : Truthful d p.traffic p'.traffic f.2.1 f.2.2

theorem Does.finishes {p' : WorkerPool ρ π ε} (h : Does d n p p') :
    p'.crew.finished = p.crew.finished ∨ ∃ f, Finishes d p p' f := by
  cases h with
  | elsewhere | counts | accepts | advances | ends => exact .inl rfl
  | takes w r rest hw hidle hqueue logs hlogs =>
    refine .inl ?_
    show (p.crew.take w).finished = _
    rw [Crew.take_eq hqueue]
  | settles w r hr outcome now traffic ht htrue =>
    exact .inr ⟨(w, r, outcome), hr, Crew.finish_finished hr outcome, htrue⟩

/-- Every outcome is that of one step of the run. -/
theorem run_finishes {c : Channel ε} (hopen : Channel.open' limit = .ok c) (handles : ℕ)
    {as : List (Action ρ ε)} {before after : List (ℕ × ρ × ScanOutcome)}
    {f : ℕ × ρ × ScanOutcome}
    (h : (Runs.run (step d n) (started c handles) as).crew.finished = before ++ f :: after) :
    ∃ q a, q ++ [a] <+: as ∧
      (Runs.run (step d n) (started c handles) q).crew.finished = before ∧
      Finishes d (Runs.run (step d n) (started c handles) q)
        (Runs.run (step d n) (started c handles) (q ++ [a])) f := by
  obtain ⟨q, a, hq, hbefore, hfinishes⟩ := Runs.exists_entry
    (fun p : WorkerPool ρ π ε => p.crew.finished)
    (E := fun p a f => Finishes d p (step d n p a) f) (step_inv d n)
    (fun p a hp => (step_does hp a).finishes.imp_right fun ⟨f, hf⟩ => ⟨f, hf, hf.finished⟩)
    (started_inv d n hopen handles) rfl h
  exact ⟨q, a, hq, hbefore, by rwa [Runs.run_concat]⟩

/-- The scans that were sent, as their envelopes. -/
def sentEnvelopes (d : ScanDecoder ρ π ε) (p : WorkerPool ρ π ε) : List (Delivery ε) :=
  p.crew.finished.filterMap fun f =>
    if f.2.2 = .sent then (d.decode f.2.1).toOption.map fun points =>
      Channel.envelope d.size (d.generation f.2.1) (d.event f.2.1 points)
    else none

/-- The failures of a worker in a generation, by its logs. -/
theorem Inv.failures (h : Inv d n limit p) (w : ℕ) (hfew : (p.crew.finishedBy w).length < 2 ^ 64)
    (log : LidarLog) (g : ℕ) :
    (p.workers w).logs.counted log g + (p.workers w).logs.waiting log g =
      (p.crew.finishedBy w).countP fun f => f.2.failure = some log ∧ d.generation f.1 = g :=
  (h.balanced w).counts (h.recorded w) hfew log g

/-- Once all workers have ended, every accepted scan is finished. -/
theorem Inv.finished (h : Inv d n limit p) (hn : 0 < n)
    (hended : ∀ w < n, (p.workers w).stage = .ended) :
    p.crew.accepted.Perm (p.crew.finished.map fun f => f.2.1) := by
  have hhands : p.crew.inHand n = [] := by
    rw [Crew.inHand, List.filterMap_eq_nil_iff]
    intro w hw
    exact (h.resting w).mpr (by rw [hended w (List.mem_range.mp hw)]; rfl)
  have hperm := h.crew.conserved
  rwa [hhands, (h.ended 0 (hended 0 hn)).2.1, List.append_nil, List.append_nil] at hperm

/-- Why a submission is refused while a handle is left. -/
theorem Inv.submit_error (h : Inv d n limit p) (hn : 0 < n) (hhandles : p.handles ≠ 0) {r : ρ}
    {e : String} : submit d n p r = .error e ↔ d.validate r = .error e ∨
      d.validate r = .ok () ∧ p.crew.queue.length = 4 ∧ e = "LiDAR worker queue full" := by
  have hlive : ¬ ∀ w < n, isEnded (p.workers w).stage = true := by
    intro hall
    have hzero := hall 0 hn
    cases hstage : (p.workers 0).stage with
    | ended => exact hhandles (h.ended 0 hstage).1
    | idle | taken | checked | decoded => simp [hstage, isEnded] at hzero
  have hfull := h.bounded
  rw [submit]
  rcases hvalid : d.validate r with e' | _
  · simp
  dsimp only
  rw [if_neg hlive]
  split
  next hroom => simp [hroom.ne]
  next hroom =>
    have hfour : p.crew.queue.length = 4 := by omega
    simp [hfour, eq_comm]

theorem tryNew_ok {c : Channel ε} {workerCount m : ℕ} {spawn : ℕ → Bool}
    {pool : WorkerPool ρ π ε} (h : tryNew c workerCount spawn = (.ok (), m, pool)) :
    (1 ≤ workerCount ∧ workerCount ≤ 32) ∧ (∀ w < workerCount, spawn w = true) ∧
      m = workerCount ∧ pool = started c 1 := by
  rw [tryNew] at h
  split at h
  · exact absurd (Prod.mk.inj h).1 (by simp)
  next hcount =>
    split at h
    · exact absurd (Prod.mk.inj h).1 (by simp)
    next hall =>
      obtain ⟨-, h⟩ := Prod.mk.inj h
      obtain ⟨rfl, rfl⟩ := Prod.mk.inj h
      refine ⟨not_not.mp hcount, fun w hw => ?_, rfl, rfl⟩
      simpa using List.find?_eq_none.mp hall w (List.mem_range.mpr hw)

/-- **No scan is lost in silence.**  After any run of a started pool, with whatever else
happens on the callback channel: scans are taken in the order they were accepted in, and
each worker finishes what it takes; every accepted scan was admitted, and is finished, in a
worker's hands, or among the at most four that are queued; while a handle is left, a scan is
refused for its size or geometry, or for want of a place in the queue, and never because the
workers are gone; every outcome is that of one step of the run, with the scan in the
worker's hands, and says the truth about the scan and the channel at that step; the events
that were sent are accepted by the channel, in that order; the failures of a worker in a
generation are as many as its log counts or has still to say; and once the workers have
ended, every accepted scan has its outcome and every failure its line. -/
theorem scans_accounted {W : Type} (formats : FloatFormats W UInt32) (toF64 : Number → W)
    (decompress : List UInt8 → ℕ → Except String (List UInt8)) (footprint : Value → Footprint)
    (base limit : ℕ) (c : Channel CallbackEvent) (hopen : Channel.open' limit = .ok c)
    (n : ℕ) (spawn : ℕ → Bool)
    (pool : WorkerPool LidarDecodeRequest (List UInt32) CallbackEvent)
    (hstart : tryNew c n spawn = (.ok (), n, pool))
    (as : List (Action LidarDecodeRequest CallbackEvent)) :
    let d := lidarDecoder formats toF64 decompress footprint base
    let p := Runs.run (step d n) pool as
    (p.crew.accepted = p.crew.taken.map Prod.snd ++ p.crew.queue ∧
      ∀ w, (p.crew.taken.filter fun t => t.1 = w).map Prod.snd =
        (p.crew.finishedBy w).map Prod.fst ++ (p.crew.hands w).toList) ∧
    (p.crew.accepted.Perm (p.crew.finished.map (fun f => f.2.1) ++ p.crew.inHand n ++ p.crew.queue)
      ∧ p.crew.queue.length ≤ 4 ∧ ∀ r ∈ p.crew.accepted, d.validate r = .ok ()) ∧
    (p.handles ≠ 0 → ∀ r e, submit d n p r = .error e ↔ d.validate r = .error e ∨
      d.validate r = .ok () ∧ p.crew.queue.length = 4 ∧ e = "LiDAR worker queue full") ∧
    (∀ before f after, p.crew.finished = before ++ f :: after → ∃ q a, q ++ [a] <+: as ∧
      (Runs.run (step d n) pool q).crew.finished = before ∧
      Finishes d (Runs.run (step d n) pool q) (Runs.run (step d n) pool (q ++ [a])) f) ∧
    (sentEnvelopes d p).Sublist p.traffic.accepted ∧
    (∀ w, (p.crew.finishedBy w).length < 2 ^ 64 → ∀ log g,
      (p.workers w).logs.counted log g + (p.workers w).logs.waiting log g =
        (p.crew.finishedBy w).countP fun f => f.2.failure = some log ∧ f.1.generation = g) ∧
    ((∀ w < n, (p.workers w).stage = .ended) →
      p.crew.accepted.Perm (p.crew.finished.map fun f => f.2.1) ∧
      ∀ w < n, ∀ log g, (p.workers w).logs.waiting log g = 0) := by
  intro d p
  obtain ⟨⟨hn, -⟩, -, -, rfl⟩ := tryNew_ok hstart
  have h : Inv d n limit p := run_inv d n hopen 1 as
  exact ⟨⟨h.crew.fifo, h.crew.ordered⟩, ⟨h.crew.conserved, h.bounded, h.admitted⟩,
    fun hhandles r e => h.submit_error hn hhandles,
    fun before f after hfinished => run_finishes hopen 1 hfinished, h.sends,
    fun w hfew log g => h.failures w hfew log g,
    fun hended => ⟨h.finished hn hended, fun w hw => (h.ended w (hended w hw)).2.2⟩⟩

/-- The formats at the origin 0 and the resolution 1. -/
def unitFormats : FloatFormats ℤ UInt32 where
  f64 := ⟨Int.ofNat, (· + ·), (· * ·), fun _ => true, (· ≤ 0)⟩
  f32 := ⟨fun index => if index = 0 then 0 else 0x42fe0000, fun _ b => b, fun a _ => a,
    fun _ => true, (· = 0)⟩
  toF32 value := if value = 0 then 0 else 0x3f800000

/-- A scan whose data were lost. -/
def emptyScan (generation : ℕ) : LidarDecodeRequest :=
  { generation, topic := "rt/utlidar/voxel_map", payload := .null, compressedData := []
    metadata := ⟨(.ofByte 0, .ofByte 0, .ofByte 0), .ofByte 1, 0⟩ }

def wholeNumber : Number → ℤ
  | .int i => i.1
  | .float _ => 1

def noBytes (_ : List UInt8) (_ : ℕ) : Except String (List UInt8) :=
  .error "expected another byte, found none"

/-- A worker cannot decode a scan, then meets one of another generation; both are counted. -/
theorem scans_accounted_stale :
    let p := Runs.run (step (lidarDecoder unitFormats wholeNumber noBytes Footprint.ofValue 72) 1)
      (started (Channel.fresh 2) 1) [.submit (emptyScan 0), .recv 0, .checkGeneration 0 0,
        .decode 0 0, .submit (emptyScan 1), .recv 0, .checkGeneration 0 0]
    p.crew.finished.map (fun f => f.2.2) = [.failed, .stale 0] ∧
      (p.workers 0).logs.counted .dropped 1 + (p.workers 0).logs.waiting .dropped 1 = 1 := by
  intro p
  obtain ⟨-, -, -, -, -, hlogs, -⟩ := scans_accounted unitFormats wholeNumber noBytes
    Footprint.ofValue 72 2 _ rfl 1 (fun _ => true) _ rfl [.submit (emptyScan 0), .recv 0,
      .checkGeneration 0 0, .decode 0 0, .submit (emptyScan 1), .recv 0, .checkGeneration 0 0]
  exact ⟨rfl, hlogs 0 (by decide) .dropped 1⟩

/-! ### Startup -/

/-- No handle is left, and nothing was ever queued. -/
structure Idle (p : WorkerPool ρ π ε) : Prop where
  handles : p.handles = 0
  crew : p.crew = .empty
  resting : ∀ w, (p.workers w).stage = .idle ∨ (p.workers w).stage = .ended

theorem step_idle (h : Idle p) (a : Action ρ ε) :
    Idle (step d n p a) ∧
      ∀ w, (p.workers w).stage = .ended ∨ a = .recv w ∧ w < n →
        ((step d n p a).workers w).stage = .ended := by
  have hskip : Idle p ∧ ∀ w, (p.workers w).stage = .ended ∨ False → (p.workers w).stage = .ended :=
    ⟨h, fun w hw => hw.resolve_right id⟩
  have hhands : ∀ w, p.crew.hands w = none := fun w => by rw [h.crew]; rfl
  cases a with
  | recv w =>
    rw [step]
    split
    next hw =>
      rcases h.resting w with hidle | hended
      · rw [hidle]
        dsimp only
        have hrecv : recv d p w = p.setWorker w { p.workers w with
            stage := .ended, logs := (p.workers w).logs.drop LidarLog.order } := by
          rw [recv, h.crew]
          exact if_pos h.handles
        rw [hrecv]
        refine ⟨⟨h.handles, h.crew, fun v => ?_⟩, fun v hv => ?_⟩
        all_goals by_cases hvw : v = w
        · rw [hvw, setWorker_self]
          exact .inr rfl
        · rw [setWorker_ne p hvw]
          exact h.resting v
        · rw [hvw, setWorker_self]
        · rw [setWorker_ne p hvw]
          refine hv.resolve_right fun hrecv => hvw ?_
          exact (Action.recv.inj hrecv.1).symm
      · rw [hended]
        refine ⟨h, fun v hv => hv.elim id fun hrecv => ?_⟩
        rw [← Action.recv.inj hrecv.1]
        exact hended
    next hw =>
      refine ⟨h, fun v hv => hv.elim id fun hrecv => ?_⟩
      exact absurd (Action.recv.inj hrecv.1 ▸ hrecv.2) hw
  | submit request =>
    rw [step, if_pos h.handles]
    simpa using hskip
  | cloneHandle =>
    rw [step, if_pos h.handles]
    simpa using hskip
  | dropHandle =>
    refine ⟨⟨by rw [step, h.handles], h.crew, h.resting⟩, fun w hw => ?_⟩
    exact hw.resolve_right (by simp)
  | checkGeneration w now | decode w now | send w now =>
    rw [step, hhands w]
    simpa using hskip
  | channel a =>
    rw [step]
    split
    · exact ⟨⟨h.handles, h.crew, h.resting⟩, fun w hw => hw.resolve_right (by simp)⟩
    · simpa using hskip

theorem run_idle (as : List (Action ρ ε)) : ∀ {p : WorkerPool ρ π ε}, Idle p →
    Idle (Runs.run (step d n) p as) ∧
      ∀ w < n, (p.workers w).stage = .ended ∨ .recv w ∈ as →
        ((Runs.run (step d n) p as).workers w).stage = .ended := by
  induction as with
  | nil => intro p h; exact ⟨h, fun w _ hw => hw.resolve_right (by simp)⟩
  | cons a rest ih =>
    intro p h
    obtain ⟨hidle, hended⟩ := step_idle (d := d) (n := n) h a
    obtain ⟨hrun, hall⟩ := ih hidle
    refine ⟨hrun, fun w hw hrecv => hall w hw ?_⟩
    rcases hrecv with hdone | hmem
    · exact .inl (hended w (.inl hdone))
    · rcases List.mem_cons.mp hmem with heq | hmem
      · exact .inl (hended w (.inr ⟨heq.symm, hw⟩))
      · exact .inr hmem

/-- **A pool starts with all its workers or not at all.**  A start succeeds exactly for one
to 32 workers whose threads can all be created, and no thread is created for another
number.  After a failure, the threads that were created take nothing and end the first
time each of them looks at the queue, so that joining them returns. -/
theorem startup_all_or_nothing (d : ScanDecoder ρ π ε) (c : Channel ε) (workerCount : ℕ)
    (spawn : ℕ → Bool) :
    ((tryNew c workerCount spawn : PortResult Unit × ℕ × WorkerPool ρ π ε).1 = .ok () ↔
      (1 ≤ workerCount ∧ workerCount ≤ 32) ∧ ∀ w < workerCount, spawn w = true) ∧
    ∀ e m, ∀ pool : WorkerPool ρ π ε, tryNew c workerCount spawn = (.error e, m, pool) →
      (m ≠ 0 → m < workerCount ∧ workerCount ≤ 32 ∧ spawn m = false ∧ ∀ w < m, spawn w = true) ∧
      ∀ as, (Runs.run (step d m) pool as).crew = .empty ∧
        ((∀ w < m, .recv w ∈ as) →
          ∀ w < m, ((Runs.run (step d m) pool as).workers w).stage = .ended) := by
  have hidle : Idle (started c 0 : WorkerPool ρ π ε) := ⟨rfl, rfl, fun _ => .inl rfl⟩
  refine ⟨⟨fun h => ?_, fun ⟨hcount, hall⟩ => ?_⟩, fun e m pool h => ⟨fun hm => ?_, ?_⟩⟩
  · rcases hnew : (tryNew c workerCount spawn : PortResult Unit × ℕ × WorkerPool ρ π ε) with
      ⟨answer, m, pool⟩
    rw [hnew] at h
    obtain ⟨hcount, hall, -, -⟩ := tryNew_ok (hnew.trans (by rw [show answer = .ok () from h]))
    exact ⟨hcount, hall⟩
  · have hnone : (List.range workerCount).find? (fun w => !spawn w) = none :=
      List.find?_eq_none.mpr fun w hw => by simp [hall w (List.mem_range.mp hw)]
    rw [tryNew, if_neg (not_not.mpr hcount), hnone]
  · rw [tryNew] at h
    split at h
    · exact absurd (Prod.mk.inj (Prod.mk.inj h).2).1.symm hm
    next hcount =>
      split at h
      next w hfind =>
        obtain rfl : w = m := (Prod.mk.inj (Prod.mk.inj h).2).1
        obtain ⟨hfalse, hmem, hbefore⟩ := List.find?_range_eq_some.mp hfind
        refine ⟨List.mem_range.mp hmem, (not_not.mp hcount).2, by simpa using hfalse, ?_⟩
        exact fun v hv => by simpa using hbefore v hv
      next => exact absurd (Prod.mk.inj h).1 (by simp)
  · have hpool : pool = started c 0 := by
      rw [tryNew] at h
      split at h
      · exact (Prod.mk.inj (Prod.mk.inj h).2).2.symm
      · split at h
        · exact (Prod.mk.inj (Prod.mk.inj h).2).2.symm
        · exact absurd (Prod.mk.inj h).1 (by simp)
    intro as
    obtain ⟨hrun, hended⟩ := run_idle (d := d) (n := m) as hidle
    rw [hpool]
    exact ⟨hrun.crew, fun hall w hw => hended w hw (.inr (hall w hw))⟩

end WorkerPool

end Unitree
