/-
Calls: the service with the futures that wait on it.

A call registers under the lifecycle lock and then waits with a guard in hand.
It ends when its future is polled and finds its answer, when it times out, or
when it is cancelled, and in each case the guard is dropped.  Everything else
is the service's own traffic: messages of any generation, expiry, heartbeat
ticks, resets, and the unlocked stores of `stop_background_tasks`.

* `Keeps` — no step but a registration adds an entry or moves the session under
  one;
* `Sys.step_desk` — on its calls the system refines a `Desk`;
* `Sys.Inv`, `Sys.run_inv` — the invariant of every run.
-/
import UnitreeWebrtc.Desk
import UnitreeWebrtc.Routing

namespace Unitree

/-! ### What the service keeps of its calls -/

namespace Service

variable {s s' : Service}

/-- Entries only go; while one is left the session stands; answers stay sent. -/
structure Keeps (s s' : Service) : Prop where
  entries : ∀ {k cb}, s'.pendingCallbacks.lookup k = some cb →
    s.pendingCallbacks.lookup k = some cb
  size : s'.pendingCallbacks.size ≤ s.pendingCallbacks.size
  session : ∀ {k cb}, s'.pendingCallbacks.lookup k = some cb → s'.sessionId = s.sessionId
  mono : s.sessionId ≤ s'.sessionId
  nextId : s.nextId ≤ s'.nextId
  prior : ∀ e ∈ s.completions, e ∈ s'.completions

/-- And nobody got an answer other than an error. -/
structure Unanswering (s s' : Service) : Prop extends Keeps s s' where
  oks : ∀ {t m}, (t, .ok m) ∈ s'.completions → (t, .ok m) ∈ s.completions

theorem Keeps.trans {s₁ s₂ s₃ : Service} (h : Keeps s₁ s₂) (h' : Keeps s₂ s₃) : Keeps s₁ s₃ :=
  ⟨fun hk => h.entries (h'.entries hk), h'.size.trans h.size,
    fun hk => (h'.session hk).trans (h.session (h'.entries hk)), h.mono.trans h'.mono,
    h.nextId.trans h'.nextId, fun e he => h'.prior e (h.prior e he)⟩

theorem Unanswering.trans {s₁ s₂ s₃ : Service} (h : Unanswering s₁ s₂) (h' : Unanswering s₂ s₃) :
    Unanswering s₁ s₃ :=
  ⟨h.toKeeps.trans h'.toKeeps, fun hm => h.oks (h'.oks hm)⟩

theorem Quiet.unanswering (h : Quiet s s') : Unanswering s s' where
  entries hk := by rwa [h.pending] at hk
  size := by rw [h.pending]
  session _ := h.session
  mono := h.session.ge
  nextId := h.nextId
  prior e he := by rwa [h.completions]
  oks hm := by rwa [h.completions] at hm

theorem Unanswering.refl (s : Service) : Unanswering s s := (Quiet.refl s).unanswering

theorem completions_emit_complete (s : Service) (token : ℕ) (result : PortResult Value) :
    (s.emit (.complete token result)).completions = s.completions ++ [(token, result)] := by
  simp [completions, emit]

theorem settle_keeps (s : Service) (key : String) (answer : PendingCallback → PortResult Value) :
    Keeps s (s.settle key answer) := by
  rw [settle]
  rcases hk : s.pendingCallbacks.lookup key with _ | cb
  · exact (Unanswering.refl s).toKeeps
  · exact ⟨fun h => (Desk.lookup_of_erase h).2, Table.size_erase_le _ _, fun _ => rfl, le_refl _,
      le_refl _, fun e he => by
        rw [completions_emit_complete]
        exact List.mem_append_left _ he⟩

theorem failPending_unanswering (s : Service) (key reason : String) :
    Unanswering s (s.failPending key reason) := by
  refine ⟨settle_keeps s key _, fun {t m} hm => ?_⟩
  rw [failPending, settle] at hm
  split at hm
  · exact hm
  · rw [completions_emit_complete, List.mem_append] at hm
    rcases hm with hm | hm
    · exact hm
    · exact absurd hm (by simp)

theorem completions_failAllPending (s : Service) (reason : String) :
    (s.failAllPending reason).completions = s.completions
      ++ s.pendingCallbacks.values.map fun cb => (cb.token, .error reason) := by
  simp [completions, failAllPending, List.filterMap_append, List.filterMap_map]

/-- Failing everything, after a step that left the entries and answers alone. -/
theorem failAllPending_unanswering {reason : String}
    (hmono : s.sessionId ≤ s'.sessionId) (hnext : s.nextId ≤ s'.nextId)
    (hc : s'.completions = s.completions) : Unanswering s (s'.failAllPending reason) where
  entries hk := absurd hk (by simp [failAllPending])
  size := Nat.zero_le _
  session hk := absurd hk (by simp [failAllPending])
  mono := hmono
  nextId := hnext
  prior e he := by
    rw [completions_failAllPending, hc]
    exact List.mem_append_left _ he
  oks {t m} hm := by
    rw [completions_failAllPending, hc, List.mem_append] at hm
    rcases hm with hm | hm
    · exact hm
    · exact absurd hm (by simp)

theorem bumpSession_completions (s : Service) : s.bumpSession.completions = s.completions :=
  (emit_quiet { s with sessionId := s.sessionId + 1 } _ (by simp)).completions

theorem handleFault_unanswering (s : Service) (error : String) :
    Unanswering s (s.handleFault error) :=
  failAllPending_unanswering (Nat.le_succ _) (le_refl _) (bumpSession_completions s)

theorem startNewSession_unanswering (s : Service) : Unanswering s s.startNewSession :=
  failAllPending_unanswering (Nat.le_succ _) (le_refl _) (bumpSession_completions s)

theorem heartbeatTick_unanswering (env : Env) (s : Service) (epoch : ℕ) :
    Unanswering s (s.heartbeatTick env epoch) := by
  rw [heartbeatTick]
  split
  · exact Unanswering.refl s
  split
  · have h : Unanswering s (failAllPending { s.stopHeartbeat with dataChannelOpened := false }
        "Heartbeat timeout") := failAllPending_unanswering (le_refl _) (le_refl _) rfl
    exact ⟨⟨h.entries, h.size, h.session, h.mono, h.nextId, h.prior⟩, h.oks⟩
  split
  · exact (sendMessageLocked_quiet env s _ _ _).unanswering
  · exact Unanswering.refl s

/-- The loop of `expire_chunks`. -/
theorem failEach_unanswering (keys : List String) (s : Service) : Unanswering s
    (keys.foldl (fun s key => s.failPending key "Chunk assembly deadline expired") s) := by
  have hrun := Runs.run_rel Unanswering.refl Unanswering.trans
    (fun s key => failPending_unanswering s key "Chunk assembly deadline expired") keys s
  exact hrun

theorem expireChunks_unanswering (env : Env) (s : Service) :
    Unanswering s (s.expireChunks env) := by
  have h := failEach_unanswering (s.chunkDataStorage.expire env.now).1
    { s with chunkDataStorage := (s.chunkDataStorage.expire env.now).2 }
  exact ⟨⟨h.entries, h.size, h.session, h.mono, h.nextId, h.prior⟩, h.oks⟩

theorem dropGuard_unanswering (s : Service) (key : String) (token : ℕ) :
    Unanswering s (s.dropGuard key token) := by
  rw [dropGuard]
  split
  · exact Unanswering.refl s
  split
  · exact ⟨⟨fun h => (Desk.lookup_of_erase h).2, Table.size_erase_le _ _, fun _ => rfl, le_refl _,
      le_refl _, fun e he => he⟩, fun hm => hm⟩
  · exact Unanswering.refl s

/-- An answer other than an error: the pending entry of that message's key, of
the current session, whose expectation the message meets. -/
def Accepts (s : Service) (token : ℕ) (message : Value) : Prop :=
  ∃ cb, s.pendingCallbacks.lookup (incomingKey message) = some cb ∧ cb.token = token ∧
    cb.sessionId = s.sessionId ∧ cb.expectation.validate message = .ok ()

theorem Settles.keeps (h : Settles s s') : Keeps s s' ∧
    ∀ {t m}, (t, .ok m) ∈ s'.completions → (t, .ok m) ∈ s.completions ∨ s.Accepts t m := by
  cases h with
  | nothing chunks =>
    exact ⟨⟨fun h => h, le_refl _, fun _ => rfl, le_refl _, le_refl _, fun e he => he⟩,
      fun hm => Or.inl hm⟩
  | refusal chunks key reason =>
    have h := failPending_unanswering { s with chunkDataStorage := chunks } key reason
    exact ⟨⟨h.entries, h.size, h.session, h.mono, h.nextId, h.prior⟩, fun hm => Or.inl (h.oks hm)⟩
  | answer chunks message =>
    have h := settle_keeps { s with chunkDataStorage := chunks } (incomingKey message)
      (fun cb => resolution cb s.sessionId message)
    refine ⟨⟨h.entries, h.size, h.session, h.mono, h.nextId, h.prior⟩, fun {t m} hm => ?_⟩
    rw [resolvePendingResponse, settle] at hm
    rcases hk : s.pendingCallbacks.lookup (incomingKey message) with _ | cb
    · simp only [hk] at hm
      exact Or.inl hm
    · simp only [hk, completions_emit_complete, List.mem_append, List.mem_singleton,
        Prod.mk.injEq] at hm
      rcases hm with hm | ⟨rfl, hm⟩
      · exact Or.inl hm
      · right
        simp only [resolution] at hm
        split at hm
        · exact absurd hm (by simp)
        next hses =>
          rcases hv : cb.expectation.validate message with e | _
          · rw [hv] at hm
            exact absurd hm (by simp [Except.map])
          · rw [hv] at hm
            obtain rfl : m = message := by simpa [Except.map] using hm
            exact ⟨cb, hk, rfl, not_not.mp hses, hv⟩

theorem Accepts.of_quiet (hq : Quiet s s') {t : ℕ} {m : Value} (h : s'.Accepts t m) :
    s.Accepts t m := by
  obtain ⟨cb, hk, ht, hs, hv⟩ := h
  exact ⟨cb, hq.pending ▸ hk, ht, hq.session ▸ hs, hv⟩

/-- A message of any generation: what it answers it accepts, in its session. -/
theorem processIngress_keeps (p : Platform) (env : Env) (s : Service) (message : IngressMessage) :
    Keeps s (s.processIngress p env message) ∧
      ∀ {t m}, (t, .ok m) ∈ (s.processIngress p env message).completions →
        (t, .ok m) ∈ s.completions ∨ (message.generation = s.sessionId ∧ s.Accepts t m) := by
  rw [processIngress]
  split
  next => exact ⟨(Unanswering.refl s).toKeeps, fun hm => Or.inl hm⟩
  next hgen =>
    by_cases hfault : ∃ error, message.payload = .transportFault error
    · obtain ⟨error, he⟩ := hfault
      rw [he]
      exact ⟨(handleFault_unanswering s error).toKeeps,
        fun hm => Or.inl ((handleFault_unanswering s error).oks hm)⟩
    · obtain ⟨s₁, s₂, hq₁, hr, hq₂⟩ := handlePayload_settles p env s message.payload
        (fun error he => hfault ⟨error, he⟩)
      obtain ⟨hk, hans⟩ := hr.keeps
      refine ⟨(hq₁.unanswering.toKeeps.trans hk).trans hq₂.unanswering.toKeeps, fun hm => ?_⟩
      rcases hans (hq₂.unanswering.oks hm) with hm | hacc
      · exact Or.inl (hq₁.unanswering.oks hm)
      · exact Or.inr ⟨not_not.mp hgen, hacc.of_quiet hq₁⟩

end Service

/-! ### The system -/

/-- The stores `stop_background_tasks` makes before it takes the lock. -/
inductive UnlockedStore where
  | heartbeatRunning
  | heartbeatStopTx
  | networkProbeRunning
  | dataChannelOpened
deriving DecidableEq

def Service.store (s : Service) : UnlockedStore → Service
  | .heartbeatRunning => { s with heartbeatRunning := false }
  | .heartbeatStopTx => { s with heartbeatStopTx := none }
  | .networkProbeRunning => { s with networkProbeRunning := false }
  | .dataChannelOpened => { s with dataChannelOpened := false }

/-- The service, the guards of the calls that wait on it (by token, with their
key), and what calls have returned. -/
structure Sys where
  service : Service
  live : Table ℕ String
  returned : List (ℕ × PortResult Value)

inductive Action where
  | publish (fits : ℚ → Bool) (env : Env) (topic : String) (data : Option Value)
      (msgType : Option String) (timeout : Option Service.Seconds)
  | publishRequestNew (fits : ℚ → Bool) (env : Env) (topic : String) (options : Value)
      (timeout : Option Service.Seconds)
  | publishWithoutCallback (env : Env) (topic : String) (data : Option Value)
      (msgType : Option String)
  | subscribe (env : Env) (topic : String)
  | unsubscribe (env : Env) (topic : String)
  /-- The future of a call finds its answer and returns it. -/
  | poll (token : ℕ)
  /-- A call times out and returns the error, or its future is dropped. -/
  | giveUp (token : ℕ) (error : Option String)
  | processIngress (env : Env) (message : IngressMessage)
  | expireChunks (env : Env)
  | heartbeatTick (env : Env) (epoch : ℕ)
  | store (which : UnlockedStore)
  | startNewSession

namespace Sys

/-- A call that registered goes on to wait with its guard. -/
def started (y : Sys) : PortResult (String × ℕ) × Service → Sys
  | (.ok (key, token), s) => { y with service := s, live := y.live.insert token key }
  | (.error _, s) => { y with service := s }

/-- What is in the oneshot of a token. -/
def answerOf (s : Service) (token : ℕ) : Option (PortResult Value) :=
  (s.completions.find? fun e => e.1 = token).map fun e => e.2

/-- The call of a token ends and drops its guard. -/
def finish (y : Sys) (token : ℕ) (key : String) (result : Option (PortResult Value)) : Sys :=
  { service := y.service.dropGuard key token
    live := y.live.erase token
    returned := y.returned ++ result.toList.map fun r => (token, r) }

def step (p : Platform) (y : Sys) : Action → Sys
  | .publish fits env topic data msgType timeout =>
    y.started (y.service.publish fits env topic data msgType timeout)
  | .publishRequestNew fits env topic options timeout =>
    y.started (y.service.publishRequestNew p fits env topic options timeout)
  | .publishWithoutCallback env topic data msgType =>
    { y with service := (y.service.publishWithoutCallback env topic data msgType).2 }
  | .subscribe env topic => { y with service := (y.service.subscribe env topic).2 }
  | .unsubscribe env topic => { y with service := (y.service.unsubscribe env topic).2 }
  | .poll token =>
    match y.live.lookup token, answerOf y.service token with
    | some key, some r => y.finish token key (some r)
    | _, _ => y
  | .giveUp token error =>
    match y.live.lookup token with
    | some key => y.finish token key (error.map fun e => .error e)
    | none => y
  | .processIngress env message =>
    { y with service := y.service.processIngress p env message }
  | .expireChunks env => { y with service := y.service.expireChunks env }
  | .heartbeatTick env epoch => { y with service := y.service.heartbeatTick env epoch }
  | .store which => { y with service := y.service.store which }
  | .startNewSession => { y with service := y.service.startNewSession }

def init (sessionId requestSequence : ℕ) : Sys :=
  { service := .new sessionId requestSequence, live := ∅, returned := [] }

/-! ### The calls refine a desk -/

/-- The calls of a service, as a desk. -/
def deskOf (s : Service) (live : Table ℕ String) :
    Desk String PendingCallback (PortResult Value) :=
  { pending := s.pendingCallbacks, sent := s.completions, live, next := s.nextId }

def desk (y : Sys) : Desk String PendingCallback (PortResult Value) := deskOf y.service y.live

abbrev Steps := Desk.Steps (K := String) (R := PortResult Value) PendingCallback.token

variable {s s' : Service} {live : Table ℕ String}

theorem quiet_desk (h : Service.Quiet s s') : Steps (deskOf s live) (deskOf s' live) := by
  have heq : deskOf s' live = { deskOf s live with next := s'.nextId } := by
    simp only [deskOf, h.pending, h.completions]
  rw [heq]
  exact .single (.skip _ h.nextId)

theorem settle_desk (s : Service) (key : String) (answer : PendingCallback → PortResult Value) :
    deskOf (s.settle key answer) live
      = (deskOf s live).settle PendingCallback.token key answer := by
  simp only [Service.settle, Desk.settle, deskOf]
  rcases s.pendingCallbacks.lookup key with _ | cb
  · rfl
  · simp only [Service.completions_emit_complete]
    rfl

theorem failAllPending_desk (s : Service) (reason : String) :
    deskOf (s.failAllPending reason) live
      = (deskOf s live).settleAll PendingCallback.token fun _ => .error reason := by
  simp only [Desk.settleAll, deskOf, Service.completions_failAllPending]
  rfl

theorem register_desk (s : Service) {key : String} (expectation : ResponseExpectation)
    (hfree : s.pendingCallbacks.lookup key = none) :
    Steps (deskOf s live) (deskOf (s.register key expectation) (live.insert s.nextId key)) := by
  let cb : PendingCallback := { token := s.nextId, expectation, sessionId := s.sessionId }
  exact .single (.register key cb hfree (le_refl s.nextId))

theorem dropGuard_desk (s : Service) {live : Table ℕ String} {key : String} {token : ℕ}
    (hlive : live.lookup token = some key) :
    Steps (deskOf s live) (deskOf (s.dropGuard key token) (live.erase token)) := by
  have heq : deskOf (s.dropGuard key token) (live.erase token)
      = (deskOf s live).release PendingCallback.token token := by
    simp only [Service.dropGuard, Desk.release, Desk.without, deskOf, hlive]
    rcases s.pendingCallbacks.lookup key with _ | cb
    · rfl
    · dsimp only
      by_cases ht : cb.token = token
      · simp only [if_pos ht]
        rfl
      · simp only [if_neg ht]
  rw [heq]
  exact .single (.release token)

theorem settles_desk (h : Service.Settles s s') : Steps (deskOf s live) (deskOf s' live) := by
  cases h with
  | nothing chunks => exact .refl
  | refusal chunks key reason =>
    rw [Service.failPending, settle_desk]
    exact .single (.settle key _)
  | answer chunks message =>
    rw [Service.resolvePendingResponse, settle_desk]
    exact .single (.settle _ _)

/-- Failing everything, after a step that left the calls alone. -/
theorem failAll_steps {s : Service} (s' : Service) (reason : String)
    (hp : s'.pendingCallbacks = s.pendingCallbacks)
    (hc : s'.completions = s.completions) (hn : s'.nextId = s.nextId) :
    Steps (deskOf s live) (deskOf (s'.failAllPending reason) live) := by
  have heq : deskOf s' live = deskOf s live := by simp only [deskOf, hp, hc, hn]
  rw [failAllPending_desk, heq]
  exact .single (.settleAll _)

theorem processIngress_desk (p : Platform) (env : Env) (s : Service) (message : IngressMessage) :
    Steps (deskOf s live) (deskOf (s.processIngress p env message) live) := by
  rw [Service.processIngress]
  split
  · exact .refl
  · by_cases hfault : ∃ error, message.payload = .transportFault error
    · obtain ⟨error, he⟩ := hfault
      rw [he]
      exact failAll_steps _ error rfl (Service.bumpSession_completions s) rfl
    · obtain ⟨s₁, s₂, hq₁, hr, hq₂⟩ := Service.handlePayload_settles p env s message.payload
        (fun error he => hfault ⟨error, he⟩)
      exact ((quiet_desk hq₁).trans (settles_desk hr)).trans (quiet_desk hq₂)

theorem expireChunks_desk (env : Env) (s : Service) :
    Steps (deskOf s live) (deskOf (s.expireChunks env) live) :=
  Service.expireChunks_rel (R := fun s t => Steps (deskOf s live) (deskOf t live))
    (fun _ => .refl) Relation.ReflTransGen.trans
    (fun s key => settles_desk (.refusal s.chunkDataStorage key _)) env s

theorem heartbeatTick_desk (env : Env) (s : Service) (epoch : ℕ) :
    Steps (deskOf s live) (deskOf (s.heartbeatTick env epoch) live) := by
  rw [Service.heartbeatTick]
  split
  · exact .refl
  split
  · exact failAll_steps { s.stopHeartbeat with dataChannelOpened := false } "Heartbeat timeout"
      rfl rfl rfl
  split
  · exact quiet_desk (Service.sendMessageLocked_quiet env s _ _ _)
  · exact .refl

/-! ### Registration -/

/-- The same, as far as the desk can tell one send from another. -/
theorem publishWithExpectation_quiet (env : Env) (s : Service) (topic : String)
    (data : Option Value) (msgType : String) (expectation : ResponseExpectation) :
    let key := outgoingKey msgType topic data
    (∃ e, s.publishWithExpectation env topic data msgType expectation = (.error e, s)) ∨
    (s.pendingCallbacks.lookup key = none ∧ s.pendingCallbacks.size < maxPendingRequests ∧
      ∃ s', Service.Quiet (s.register key expectation) s' ∧
        (s.publishWithExpectation env topic data msgType expectation
            = (.ok (key, s.nextId), s') ∨
          ∃ e, s.publishWithExpectation env topic data msgType expectation
            = (.error e, s'.dropGuard key s.nextId))) := by
  intro key
  have hq := Service.sendMessageLocked_quiet env (s.register key expectation) topic data msgType
  rcases s.publishWithExpectation_cases env topic data msgType expectation with
    h | ⟨hfree, hroom, ⟨-, h⟩ | ⟨e, -, h⟩⟩
  · exact Or.inl h
  · exact Or.inr ⟨hfree, hroom, _, hq, Or.inl h⟩
  · exact Or.inr ⟨hfree, hroom, _, hq, Or.inr ⟨e, h⟩⟩

theorem started_desk {y : Sys} (h : Desk.Inv PendingCallback.token y.desk) {env : Env}
    {topic msgType : String} {data : Option Value} {expectation : ResponseExpectation} :
    Steps y.desk (y.started
      (y.service.publishWithExpectation env topic data msgType expectation)).desk := by
  rcases publishWithExpectation_quiet env y.service topic data msgType expectation with
    ⟨e, he⟩ | ⟨hfree, -, s', hq, he | ⟨e, he⟩⟩
  · rw [he]
    exact .refl
  · rw [he]
    exact (register_desk y.service expectation hfree).trans (quiet_desk hq)
  · rw [he]
    -- the token was fresh, so registering and dropping leaves the guards as they were
    have hnone : y.live.lookup y.service.nextId = none := by
      rcases hl : y.live.lookup y.service.nextId with _ | key
      · rfl
      · exact absurd (h.fresh_live hl) (lt_irrefl _)
    have hguard : (y.live.insert y.service.nextId (outgoingKey msgType topic data)).lookup
        y.service.nextId = some (outgoingKey msgType topic data) := by simp
    have hdrop := dropGuard_desk s' hguard
    rw [Table.erase_insert_self hnone] at hdrop
    exact ((register_desk y.service expectation hfree).trans (quiet_desk hq)).trans hdrop

/-- **Refinement.**  On its calls, every step of the system is a sequence of
desk steps. -/
theorem step_desk (p : Platform) {y : Sys} (h : Desk.Inv PendingCallback.token y.desk)
    (a : Action) : Steps y.desk (y.step p a).desk := by
  have hfinish : ∀ {token key} (result : Option (PortResult Value)),
      y.live.lookup token = some key → Steps y.desk (y.finish token key result).desk :=
    fun _ hlive => dropGuard_desk y.service hlive
  cases a with
  | publish fits env topic data msgType timeout =>
    simp only [step, Service.publish]
    split
    · exact .refl
    · exact started_desk h
  | publishRequestNew fits env topic options timeout =>
    simp only [step, Service.publishRequestNew]
    split
    · exact .refl
    · have hq : Steps y.desk (deskOf (y.service.wireId options).2 y.live) :=
        quiet_desk (Service.wireId_quiet y.service options)
      split
      · exact hq
      · exact hq.trans (started_desk (y := { y with service := (y.service.wireId options).2 })
          (Desk.steps_inv h hq))
  | publishWithoutCallback env topic data msgType =>
    exact quiet_desk (Service.sendMessageLocked_quiet env y.service _ _ _)
  | subscribe env topic => exact quiet_desk (Service.subscribe_quiet env y.service topic)
  | unsubscribe env topic => exact quiet_desk (Service.unsubscribe_quiet env y.service topic)
  | poll token =>
    simp only [step]
    split
    next key r hlive hr => exact hfinish _ hlive
    next => exact .refl
  | giveUp token error =>
    simp only [step]
    split
    next key hlive => exact hfinish _ hlive
    next => exact .refl
  | processIngress env message => exact processIngress_desk p env y.service message
  | expireChunks env => exact expireChunks_desk env y.service
  | heartbeatTick env epoch => exact heartbeatTick_desk env y.service epoch
  | store which => cases which <;> exact .refl
  | startNewSession =>
    exact failAll_steps _ _ rfl (Service.bumpSession_completions y.service) rfl

/-! ### The invariant of every run -/

/-- What any step does to the table: entries stay under the same session or are
newly made in the current one, and the limit holds. -/
structure Evolves (s s' : Service) : Prop where
  entries : ∀ {k cb}, s'.pendingCallbacks.lookup k = some cb →
    (s.pendingCallbacks.lookup k = some cb ∧ s'.sessionId = s.sessionId) ∨
      (s.nextId ≤ cb.token ∧ cb.sessionId = s'.sessionId)
  bound : s.pendingCallbacks.size ≤ maxPendingRequests →
    s'.pendingCallbacks.size ≤ maxPendingRequests
  mono : s.sessionId ≤ s'.sessionId
  nextId : s.nextId ≤ s'.nextId
  prior : ∀ e ∈ s.completions, e ∈ s'.completions

theorem evolves_of_keeps (h : Service.Keeps s s') : Evolves s s' :=
  ⟨fun hk => Or.inl ⟨h.entries hk, h.session hk⟩, fun hb => h.size.trans hb, h.mono, h.nextId,
    h.prior⟩

theorem Evolves.keeps {s'' : Service} (h : Evolves s s') (h' : Service.Keeps s' s'') :
    Evolves s s'' := by
  refine ⟨fun {k cb} hk => ?_, fun hb => h'.size.trans (h.bound hb), h.mono.trans h'.mono,
    h.nextId.trans h'.nextId, fun e he => h'.prior e (h.prior e he)⟩
  rcases h.entries (h'.entries hk) with ⟨hk', hs⟩ | ⟨ht, hs⟩
  · exact Or.inl ⟨hk', (h'.session hk).trans hs⟩
  · exact Or.inr ⟨ht, hs.trans (h'.session hk).symm⟩

theorem Evolves.after_quiet {s'' : Service} (h : Evolves s' s'') (hq : Service.Quiet s s') :
    Evolves s s'' := by
  refine ⟨fun {k cb} hk => ?_, fun hb => h.bound (hq.pending ▸ hb), hq.session ▸ h.mono,
    hq.nextId.trans h.nextId, fun e he => h.prior e (hq.completions ▸ he)⟩
  rcases h.entries hk with ⟨hk', hs⟩ | ⟨ht, hs⟩
  · exact Or.inl ⟨hq.pending ▸ hk', hs.trans hq.session⟩
  · exact Or.inr ⟨hq.nextId.trans ht, hs⟩

theorem register_evolves {key : String} (expectation : ResponseExpectation)
    (hfree : s.pendingCallbacks.lookup key = none)
    (hroom : s.pendingCallbacks.size < maxPendingRequests) :
    Evolves s (s.register key expectation) := by
  refine ⟨fun {k cb} hk => ?_, fun _ => ?_, le_refl _, Nat.le_succ _, fun e he => he⟩
  · rw [Service.register, Table.lookup_insert_eq] at hk
    split at hk
    · rw [← Option.some_inj.mp hk]
      exact Or.inr ⟨le_refl _, rfl⟩
    · exact Or.inl ⟨hk, rfl⟩
  · rw [Service.register, Table.size_insert_of_lookup_none _ hfree]
    exact hroom

/-- Every step evolves the table, and only a message that was processed answers
a call with more than an error. -/
structure Stepped (y y' : Sys) (a : Action) : Prop where
  evolves : Evolves y.service y'.service
  oks : ∀ {t m}, (t, .ok m) ∈ y'.service.completions →
    (t, .ok m) ∈ y.service.completions ∨
      ∃ env message, a = .processIngress env message ∧
        message.generation = y.service.sessionId ∧ y.service.Accepts t m

theorem stepped_of_unanswering {y y' : Sys} (a : Action)
    (h : Service.Unanswering y.service y'.service) : Stepped y y' a :=
  ⟨evolves_of_keeps h.toKeeps, fun hm => Or.inl (h.oks hm)⟩

theorem started_stepped (y : Sys) (a : Action) {s : Service} (hs : Service.Quiet y.service s)
    (env : Env) (topic : String) (data : Option Value) (msgType : String)
    (expectation : ResponseExpectation) :
    Stepped y (y.started (s.publishWithExpectation env topic data msgType expectation)) a := by
  rcases publishWithExpectation_quiet env s topic data msgType expectation with
    ⟨e, he⟩ | ⟨hfree, hroom, s', hq, hend⟩
  · rw [he]
    exact stepped_of_unanswering a hs.unanswering
  · -- registering answers nobody, and neither do the send and the guard
    have hreg :=
      ((register_evolves expectation hfree hroom).keeps hq.unanswering.toKeeps).after_quiet hs
    have hoks : ∀ {t m}, (t, .ok m) ∈ s'.completions → (t, .ok m) ∈ y.service.completions :=
      fun hm => hs.unanswering.oks (hq.unanswering.oks hm)
    rcases hend with he | ⟨e, he⟩
    · rw [he]
      exact ⟨hreg, fun hm => Or.inl (hoks hm)⟩
    · have hdrop := Service.dropGuard_unanswering s' (outgoingKey msgType topic data) s.nextId
      rw [he]
      exact ⟨hreg.keeps hdrop.toKeeps, fun hm => Or.inl (hoks (hdrop.oks hm))⟩

/-- Everything a step can do to the calls. -/
theorem step_stepped (p : Platform) (y : Sys) (a : Action) : Stepped y (y.step p a) a := by
  cases a with
  | publish fits env topic data msgType timeout =>
    simp only [step, Service.publish]
    split
    · exact stepped_of_unanswering _ (Service.Unanswering.refl _)
    · exact started_stepped y _ (Service.Quiet.refl _) env topic data _ _
  | publishRequestNew fits env topic options timeout =>
    simp only [step, Service.publishRequestNew]
    split
    · exact stepped_of_unanswering _ (Service.Unanswering.refl _)
    · have hq := Service.wireId_quiet y.service options
      split
      · exact stepped_of_unanswering _ hq.unanswering
      · exact started_stepped y _ hq env topic _ _ _
  | publishWithoutCallback env topic data msgType =>
    exact stepped_of_unanswering _
      (Service.sendMessageLocked_quiet env y.service topic data _).unanswering
  | subscribe env topic =>
    exact stepped_of_unanswering _ (Service.subscribe_quiet env y.service topic).unanswering
  | unsubscribe env topic =>
    exact stepped_of_unanswering _ (Service.unsubscribe_quiet env y.service topic).unanswering
  | poll token =>
    simp only [step]
    split
    · exact stepped_of_unanswering _ (Service.dropGuard_unanswering y.service _ _)
    · exact stepped_of_unanswering _ (Service.Unanswering.refl _)
  | giveUp token error =>
    simp only [step]
    split
    · exact stepped_of_unanswering _ (Service.dropGuard_unanswering y.service _ _)
    · exact stepped_of_unanswering _ (Service.Unanswering.refl _)
  | processIngress env message =>
    obtain ⟨hk, hoks⟩ := Service.processIngress_keeps p env y.service message
    refine ⟨evolves_of_keeps hk, fun hm => ?_⟩
    exact (hoks hm).imp id fun ⟨hgen, hacc⟩ => ⟨env, message, rfl, hgen, hacc⟩
  | expireChunks env =>
    exact stepped_of_unanswering _ (Service.expireChunks_unanswering env y.service)
  | heartbeatTick env epoch =>
    exact stepped_of_unanswering _ (Service.heartbeatTick_unanswering env y.service epoch)
  | store which =>
    refine stepped_of_unanswering _ (Service.Quiet.unanswering ?_)
    cases which <;> exact ⟨rfl, rfl, rfl, le_refl _, rfl⟩
  | startNewSession =>
    exact stepped_of_unanswering _ (Service.startNewSession_unanswering y.service)

/-- What the calls of a running system satisfy. -/
structure Inv (y : Sys) : Prop where
  desk : Desk.Inv PendingCallback.token y.desk
  bounded : y.service.pendingCallbacks.size ≤ maxPendingRequests
  session : ∀ {k cb}, y.service.pendingCallbacks.lookup k = some cb →
    cb.sessionId = y.service.sessionId
  /-- What a call returned was its answer. -/
  returned : ∀ {t m}, (t, .ok m) ∈ y.returned → (t, .ok m) ∈ y.service.completions

theorem returned_started (y : Sys) (r : PortResult (String × ℕ) × Service) :
    (y.started r).returned = y.returned := by
  rcases r with ⟨_ | ⟨key, token⟩, s⟩ <;> rfl

theorem mem_returned {p : Platform} {y : Sys} {a : Action} {t : ℕ} {m : Value}
    (h : (t, .ok m) ∈ (y.step p a).returned) :
    (t, .ok m) ∈ y.returned ∨ (t, .ok m) ∈ y.service.completions := by
  cases a with
  | publish fits env topic data msgType timeout =>
    rw [step, returned_started] at h
    exact Or.inl h
  | publishRequestNew fits env topic options timeout =>
    rw [step, returned_started] at h
    exact Or.inl h
  | poll token =>
    simp only [step] at h
    split at h
    next key r hlive hr =>
      rcases List.mem_append.mp h with h | h
      · exact Or.inl h
      · right
        simp only [Option.toList_some, List.map_cons, List.map_nil, List.mem_singleton,
          Prod.mk.injEq] at h
        obtain ⟨rfl, rfl⟩ := h
        obtain ⟨⟨t', r⟩, hfind, hr⟩ := Option.map_eq_some_iff.mp hr
        have ht : t' = t := by simpa using List.find?_some hfind
        obtain rfl : r = .ok m := hr
        exact ht ▸ List.mem_of_find?_eq_some hfind
    next => exact Or.inl h
  | giveUp token error =>
    simp only [step] at h
    split at h
    next key hlive =>
      rcases List.mem_append.mp h with h | h
      · exact Or.inl h
      · exact absurd h (by cases error <;> simp)
    next => exact Or.inl h
  | _ => exact Or.inl h

theorem step_inv (p : Platform) (y : Sys) (a : Action) (h : Inv y) : Inv (y.step p a) := by
  obtain ⟨hev, -⟩ := step_stepped p y a
  refine ⟨Desk.steps_inv h.desk (step_desk p h.desk a), hev.bound h.bounded, fun {k cb} hk => ?_,
    fun {t m} hm => ?_⟩
  · rcases hev.entries hk with ⟨hk', hs⟩ | ⟨-, hs⟩
    · exact (h.session hk').trans hs.symm
    · exact hs
  · rcases mem_returned hm with hm | hm
    · exact hev.prior _ (h.returned hm)
    · exact hev.prior _ hm

theorem init_inv (sessionId requestSequence : ℕ) : Inv (init sessionId requestSequence) := by
  have hnone : ∀ {k cb}, (init sessionId requestSequence).service.pendingCallbacks.lookup k
      = some cb → False := fun hk => absurd hk (by simp [init, Service.new, Service.prepareIngress,
        Service.emit])
  have hlive : ∀ {t k}, (init sessionId requestSequence).live.lookup t = some k → False :=
    fun hl => absurd hl (by simp [init])
  have hsent : (init sessionId requestSequence).service.completions = [] := rfl
  refine ⟨⟨fun hk => (hnone hk).elim, fun hk => (hnone hk).elim, fun hl => (hlive hl).elim,
    fun t => ?_, fun hl => (hlive hl).elim, fun e he => ?_⟩, Nat.zero_le _,
    fun hk => (hnone hk).elim, fun hm => absurd hm (by simp [init])⟩
  · exact Nat.zero_le _
  · rw [desk, deskOf, hsent] at he
    exact absurd he (by simp)

theorem run_inv (p : Platform) (sessionId requestSequence : ℕ) (as : List Action) :
    Inv (Runs.run (step p) (init sessionId requestSequence) as) :=
  Runs.run_invariant (step_inv p) as (init_inv sessionId requestSequence)

/-- A guard's drop leaves alone what another call owns: its entry, and the
partial transfer under its key. -/
theorem dropGuard_frame (s : Service) {key key' : String} {token : ℕ} {cb : PendingCallback}
    (hcb : s.pendingCallbacks.lookup key' = some cb) (hne : cb.token ≠ token) :
    (s.dropGuard key token).pendingCallbacks.lookup key' = some cb ∧
      (s.dropGuard key token).chunkDataStorage.transfers.lookup key'
        = s.chunkDataStorage.transfers.lookup key' := by
  rw [Service.dropGuard]
  split
  · exact ⟨hcb, rfl⟩
  next own hown =>
    split
    next htoken =>
      have hkey : key' ≠ key := by
        rintro rfl
        obtain rfl := Option.some_inj.mp (hown.symm.trans hcb)
        exact hne htoken
      refine ⟨?_, ?_⟩
      · rw [Table.lookup_erase_eq, if_neg hkey]
        exact hcb
      · rw [ChunkAssembler.remove, Table.lookup_erase_eq, if_neg hkey]
    next => exact ⟨hcb, rfl⟩

/-- **The pending table**, in every reachable state.  It has at most 128
entries, all of the current session, so that no response meets a stale one;
each belongs to the one live call of its token; a live call without an entry
has been sent exactly one result, and no call two; and dropping a guard takes
nothing that another call owns. -/
theorem pending_table (p : Platform) (sessionId requestSequence : ℕ) (as : List Action) :
    let y := Runs.run (step p) (init sessionId requestSequence) as
    y.service.pendingCallbacks.size ≤ 128 ∧
    (∀ k cb, y.service.pendingCallbacks.lookup k = some cb →
      cb.sessionId = y.service.sessionId ∧
      (∀ message, Service.resolution cb y.service.sessionId message
        = (cb.expectation.validate message).map fun _ => message) ∧
      y.live.lookup cb.token = some k ∧
      ∀ k' cb', y.service.pendingCallbacks.lookup k' = some cb' → cb'.token = cb.token →
        k' = k) ∧
    (∀ t k, y.live.lookup t = some k →
      (∀ k' cb, y.service.pendingCallbacks.lookup k' = some cb → cb.token ≠ t) →
        (y.service.completions.filter fun e => e.1 = t).length = 1) ∧
    (∀ t, (y.service.completions.filter fun e => e.1 = t).length ≤ 1) ∧
    (∀ t k, y.live.lookup t = some k →
      ∀ k' cb, y.service.pendingCallbacks.lookup k' = some cb → cb.token ≠ t →
        (y.service.dropGuard k t).pendingCallbacks.lookup k' = some cb ∧
        (y.service.dropGuard k t).chunkDataStorage.transfers.lookup k'
          = y.service.chunkDataStorage.transfers.lookup k') := by
  intro y
  have h := run_inv p sessionId requestSequence as
  refine ⟨h.bounded, fun k cb hk => ⟨h.session hk, fun message => ?_, h.desk.owned hk,
    fun k' cb' hk' ht => h.desk.key_unique hk' hk ht⟩, fun t k hlive hnone => ?_, h.desk.once,
    fun t k _ k' cb hk hne => dropGuard_frame y.service hk hne⟩
  · rw [Service.resolution, if_neg (not_not.mpr (h.session hk))]
  · rcases h.desk.served hlive with ⟨cb, hcb, ht⟩ | hone
    · exact absurd ht (hnone k cb hcb)
    · exact hone

/-! ### Correlation -/

/-- An API request that goes on to wait has registered under the decimal text
of its wire identity. -/
theorem publishRequestNew_ok {p : Platform} {fits : ℚ → Bool} {env : Env} {s : Service}
    {topic key : String} {options : Value} {timeout : Option Service.Seconds} {token : ℕ}
    (h : (s.publishRequestNew p fits env topic options timeout).1 = .ok (key, token)) :
    ∃ apiId s₁ s', (options.get "api_id").bind Value.asI64 = some apiId ∧
      Service.Quiet s s₁ ∧ token = s₁.nextId ∧ key = toString (s.wireId options).1.1 ∧
      Service.Quiet (s₁.register key (.forApiRequest topic apiId)) s' ∧
      s.publishRequestNew p fits env topic options timeout = (.ok (key, token), s') := by
  rw [Service.publishRequestNew] at h ⊢
  rcases ha : (options.get "api_id").bind Value.asI64 with _ | apiId
  · rw [ha] at h
    exact absurd h (by simp)
  · simp only [ha] at h ⊢
    split at h
    · exact absurd h (by simp)
    next hv =>
      have hcases := publishWithExpectation_quiet env (s.wireId options).2 topic
        (some (requestPayload (s.wireId options).1 apiId (Service.parameterText p options)
          (options.get "priority").isSome)) DcType.request (.forApiRequest topic apiId)
      rw [outgoingKey_request] at hcases
      rcases hcases with ⟨e, he⟩ | ⟨-, -, s', hq, he | ⟨e, he⟩⟩
      · rw [he] at h
        exact absurd h (by simp)
      · rw [he] at h
        simp only [Except.ok.injEq, Prod.mk.injEq] at h
        obtain ⟨rfl, rfl⟩ := h
        refine ⟨apiId, (s.wireId options).2, s', rfl, Service.wireId_quiet s options, rfl, rfl, hq,
          ?_⟩
        rw [he]
      · rw [he] at h
        exact absurd h (by simp)

/-- The entry of a token, wherever it still is, is the one it registered. -/
def Registered (token : ℕ) (key : String) (expectation : ResponseExpectation) (session : ℕ)
    (y : Sys) : Prop :=
  token < y.service.nextId ∧
    ∀ {k cb}, y.service.pendingCallbacks.lookup k = some cb → cb.token = token →
      k = key ∧ cb.expectation = expectation ∧ cb.sessionId = session

theorem step_registered (p : Platform) {token : ℕ} {key : String}
    {expectation : ResponseExpectation} {session : ℕ} (y : Sys) (a : Action)
    (h : Registered token key expectation session y) :
    Registered token key expectation session (y.step p a) := by
  obtain ⟨hlt, hreg⟩ := h
  obtain ⟨hev, -⟩ := step_stepped p y a
  refine ⟨lt_of_lt_of_le hlt hev.nextId, fun {k cb} hk ht => ?_⟩
  rcases hev.entries hk with ⟨hk', -⟩ | ⟨hge, -⟩
  · exact hreg hk' ht
  · omega

theorem run_session_mono (p : Platform) (as : List Action) (y : Sys) :
    y.service.sessionId ≤ (Runs.run (step p) y as).service.sessionId :=
  Runs.run_mono (fun y : Sys => y.service.sessionId)
    (fun y a => (step_stepped p y a).evolves.mono) as y

/-- **Correlation.**  When an API request returns `Ok`, a message processed
after its registration, in the session of its registration, completed it; and
what it returns carries the request's wire identity, answers on the request's
topic or its response topic, and names the requested API. -/
theorem rpc_correlation (p : Platform) (sessionId requestSequence : ℕ)
    (before after : List Action) (fits : ℚ → Bool) (env : Env) (topic : String) (options : Value)
    (timeout : Option Service.Seconds) (key : String) (token : ℕ) (m : Value)
    (hcall : ((Runs.run (step p) (init sessionId requestSequence) before).service.publishRequestNew
      p fits env topic options timeout).1 = .ok (key, token))
    (hret : (token, .ok m) ∈ (Runs.run (step p) (init sessionId requestSequence)
      (before ++ .publishRequestNew fits env topic options timeout :: after)).returned) :
    let y₀ := Runs.run (step p) (init sessionId requestSequence) before
    let y₁ := y₀.step p (.publishRequestNew fits env topic options timeout)
    ∃ apiId : I64, (options.get "api_id").bind Value.asI64 = some apiId ∧
    ∃ mid env' message rest, after = mid ++ .processIngress env' message :: rest ∧
      -- the answer was sent while that message was processed
      (∀ r, (token, r) ∉ (Runs.run (step p) y₁ mid).service.completions) ∧
      (token, .ok m) ∈
        (Runs.run (step p) y₁ (mid ++ [.processIngress env' message])).service.completions ∧
      -- in the session of the registration
      message.generation = y₀.service.sessionId ∧
      (∀ q, q <+: mid → (Runs.run (step p) y₁ q).service.sessionId = y₀.service.sessionId) ∧
      incomingKey m = toString (y₀.service.wireId options).1.1 ∧
      (strOf m "topic" = topic ∨
        ∃ stem, topic = stem ++ "/request" ∧ strOf m "topic" = stem ++ "/response") ∧
      ResponseExpectation.actualApiId m = some apiId := by
  intro y₀ y₁
  have hinv₀ : Inv y₀ := run_inv p sessionId requestSequence before
  obtain ⟨apiId, s₁, s', hapi, hq₁, htoken, hkey, hq', hpub⟩ := publishRequestNew_ok hcall
  refine ⟨apiId, hapi, ?_⟩
  have hy₁ : y₁ = { y₀ with service := s', live := y₀.live.insert token key } := by
    show y₀.started (y₀.service.publishRequestNew p fits env topic options timeout) = _
    rw [hpub]
    rfl
  have hinv₁ : Inv y₁ := step_inv p y₀ _ hinv₀
  have hses₁ : y₁.service.sessionId = y₀.service.sessionId := by
    rw [hy₁]
    exact hq'.session.trans hq₁.session
  -- nobody with this token was pending or answered before
  have hreg₁ : Registered token key (.forApiRequest topic apiId) y₀.service.sessionId y₁ := by
    rw [hy₁]
    refine ⟨?_, fun {k cb} hk ht => ?_⟩
    · have := hq'.nextId
      rw [htoken]
      exact this
    · rw [show (_ : Sys).service.pendingCallbacks = _ from hq'.pending, Service.register,
        Table.lookup_insert_eq] at hk
      split at hk
      next hkk =>
        rw [← Option.some_inj.mp hk]
        exact ⟨hkk, rfl, hq₁.session⟩
      next =>
        have hlt := hinv₀.desk.fresh_live (hinv₀.desk.owned (hq₁.pending ▸ hk))
        have hge := hq₁.nextId
        rw [ht, htoken] at hlt
        exact absurd hlt (not_lt.mpr hge)
  have hnone₁ : (token, .ok m) ∉ y₁.service.completions := by
    intro hm
    rw [hy₁] at hm
    have hlt := hinv₀.desk.fresh_sent _ (hq₁.completions ▸ hq'.completions ▸ hm)
    have hge := hq₁.nextId
    rw [htoken] at hlt
    exact absurd hlt (not_lt.mpr hge)
  -- the step that answered
  rw [Runs.run_append, Runs.run_cons] at hret
  have hsent := (Runs.run_invariant (step_inv p) after hinv₁).returned hret
  obtain ⟨mid, a, rest, rfl, hfirst, hpre⟩ := Runs.exists_first
    (P := fun y : Sys => (token, .ok m) ∈ y.service.completions) hnone₁ hsent
  have hnot := hpre mid List.prefix_rfl
  have hinv : Inv (Runs.run (step p) y₁ mid) := Runs.run_invariant (step_inv p) mid hinv₁
  obtain ⟨-, hreg⟩ := Runs.run_invariant (step_registered p) mid hreg₁
  rcases (step_stepped p (Runs.run (step p) y₁ mid) a).oks hfirst with
    hm | ⟨env', message, rfl, hgen, cb, hcb, ht, hcbs, hval⟩
  · exact absurd hm hnot
  obtain ⟨hk, hexp, hs⟩ := hreg hcb ht
  have hses : (Runs.run (step p) y₁ mid).service.sessionId = y₀.service.sessionId :=
    hcbs.symm.trans hs
  rw [hexp] at hval
  obtain ⟨htopic, hid⟩ := ResponseExpectation.validate_forApiRequest hval
  refine ⟨mid, env', message, rest, rfl, fun r hr => ?_, ?_, hgen.trans hses, fun q hq => ?_,
    hk.trans hkey, ?_, hid⟩
  · have hev := (step_stepped p (Runs.run (step p) y₁ mid) (.processIngress env' message)).evolves
    have hinv' := step_inv p _ (.processIngress env' message) hinv
    rw [hinv'.desk.answer_unique (hev.prior _ hr) hfirst] at hr
    exact hnot hr
  · rw [Runs.run_concat]
    exact hfirst
  · obtain ⟨q', rfl⟩ := hq
    have hlo := run_session_mono p q y₁
    have hhi := run_session_mono p q' (Runs.run (step p) y₁ q)
    rw [← Runs.run_append, hses] at hhi
    rw [hses₁] at hlo
    exact le_antisymm hhi hlo
  · rcases htopic with htopic | htopic
    · exact Or.inl htopic
    · rcases expectedResponseTopic_cases topic with heq | ⟨stem, hstem, heq⟩
      · exact Or.inl (htopic.trans heq)
      · exact Or.inr ⟨stem, hstem, htopic.trans heq⟩

/-- The answer to request 7 of API 5. -/
def replyText : String :=
  "\x7b\"type\":\"res\",\"topic\":\"rt/response\",\"data\":\x7b\"header\":"
    ++ "\x7b\"identity\":\x7b\"id\":7,\"api_id\":5\x7d\x7d\x7d\x7d"

def replyTree : Syntax :=
  .object [("type", .string "res"), ("topic", .string "rt/response"),
    ("data", .object [("header", .object [("identity", .object
      [("id", .number (.ofByte 7)), ("api_id", .number (.ofByte 5))])])])]

/-- Request 7 of API 5, answered and polled. -/
theorem rpc_correlation_reply :
    ∃ m, (0, .ok m) ∈ (Runs.run (step (.reading [(replyText, replyTree)])) (init 3 0)
        [.publishRequestNew (fun _ => true) (.at 0) "rt/request"
            (.object [("api_id", .number (.ofByte 5)), ("id", .number (.ofByte 7))]) none,
          .processIngress (.at 1) ⟨3, .text replyText⟩, .poll 0]).returned ∧
      incomingKey m = "7" := by
  have hreturned : (Runs.run (step (.reading [(replyText, replyTree)])) (init 3 0)
      [.publishRequestNew (fun _ => true) (.at 0) "rt/request"
          (.object [("api_id", .number (.ofByte 5)), ("id", .number (.ofByte 7))]) none,
        .processIngress (.at 1) ⟨3, .text replyText⟩, .poll 0]).returned
      = [(0, .ok (.object [("data", .object [("header", .object [("identity", .object
          [("api_id", .number (.ofByte 5)), ("id", .number (.ofByte 7))])])]),
        ("topic", .string "rt/response"), ("type", .string "res")]))] := rfl
  have hmem := hreturned ▸ List.mem_singleton_self _
  obtain ⟨-, -, -, -, -, -, -, -, -, -, -, hkey, -⟩ := rpc_correlation
    (.reading [(replyText, replyTree)]) 3 0 [] _ _ _ _ _ _ "7" 0 _ rfl hmem
  exact ⟨_, hmem, hkey⟩

end Sys

end Unitree
