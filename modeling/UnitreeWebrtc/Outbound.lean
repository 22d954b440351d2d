/-
What a failed call leaves behind.

A request is registered before it is sent, and the guard takes it back when the
send fails; a subscription is only filed after its send was accepted.  So the two
tables follow the transport: a call that fails before it waits leaves both as they
were, and a topic is subscribed to when the last accepted message about it says so.

* `RolledBack` — what a failed call may leave;
* `publishWithExpectation_rolledBack` — the guard takes the request back;
* `Action.accepted` — what the transport was told about a topic, and accepted;
* `step_subscriptions` — one step of anyone, seen from the subscriptions;
* `outbound_admission` — every failed call, and every run.
-/
import UnitreeWebrtc.Epoch

namespace Unitree

/-- The transport is open, and takes this message. -/
def Env.accepts (env : Env) (message : Value) : Bool :=
  env.readyAtSend && (env.sendText message).isOk

/-- What a message that the transport accepts says about a topic: to subscribe, or
not to. -/
def Action.accepted : Action → Option (String × Bool)
  | .subscribe env topic =>
    if env.accepts (Service.outgoing topic none DcType.subscribe) then some (topic, true) else none
  | .unsubscribe env topic =>
    if env.accepts (Service.outgoing topic none DcType.unsubscribe) then some (topic, false)
    else none
  | _ => none

namespace Service

/-- The tables are as before, and what was offered to the transport, if anything
was, is a message that it rejected with this error. -/
structure RolledBack (env : Env) (e : String) (s s' : Service) : Prop where
  pending : s'.pendingCallbacks = s.pendingCallbacks
  subscriptions : s'.subscriptions = s.subscriptions
  offered : s'.effects = s.effects ∨ ∃ message, env.readyAtSend = true ∧
    env.sendText message = .error e ∧ s'.effects = s.effects ++ [.sendText message]

variable {env : Env} {s : Service} {e : String}

theorem RolledBack.refl (env : Env) (e : String) (s : Service) : RolledBack env e s s :=
  ⟨rfl, rfl, Or.inl rfl⟩

theorem sendMessageLocked_rolledBack {topic msgType : String} {data : Option Value}
    (h : (s.sendMessageLocked env topic data msgType).1 = .error e) :
    RolledBack env e s (s.sendMessageLocked env topic data msgType).2 := by
  rw [sendMessageLocked] at h ⊢
  split at h
  next hready =>
    rw [if_pos hready]
    exact ⟨rfl, rfl, Or.inr ⟨_, hready, h, rfl⟩⟩
  next hready =>
    rw [if_neg hready]
    exact .refl env e s

/-- The guard of a request whose send fails takes the request back. -/
theorem dropGuard_register {key : String} {expectation : ResponseExpectation} {s' : Service}
    (hfresh : s.pendingCallbacks.lookup key = none)
    (h : RolledBack env e (s.register key expectation) s') :
    RolledBack env e s (s'.dropGuard key s.nextId) := by
  have hpending : s'.pendingCallbacks = s.pendingCallbacks.insert key
      { token := s.nextId, expectation, sessionId := s.sessionId } := h.pending
  have hdrop : s'.dropGuard key s.nextId =
      { s' with
        pendingCallbacks := s'.pendingCallbacks.erase key
        chunkDataStorage := s'.chunkDataStorage.remove key } := by
    rw [dropGuard, hpending, Table.lookup_insert_eq, if_pos rfl]
    exact if_pos rfl
  rw [hdrop]
  refine ⟨?_, h.subscriptions, h.offered⟩
  show s'.pendingCallbacks.erase key = s.pendingCallbacks
  rw [hpending, Table.erase_insert_self hfresh]

theorem publishWithExpectation_rolledBack {topic msgType : String} {data : Option Value}
    {expectation : ResponseExpectation}
    (h : (s.publishWithExpectation env topic data msgType expectation).1 = .error e) :
    RolledBack env e s (s.publishWithExpectation env topic data msgType expectation).2 := by
  rcases s.publishWithExpectation_cases env topic data msgType expectation with
    ⟨e', hcase⟩ | ⟨hfresh, -, ⟨-, hcase⟩ | ⟨e', hsend, hcase⟩⟩
  · rw [hcase]
    exact .refl env e s
  · rw [hcase] at h
    exact absurd h (by simp)
  · rw [hcase] at h ⊢
    have he : e' = e := by simpa using h
    exact dropGuard_register hfresh (sendMessageLocked_rolledBack (he ▸ hsend))

theorem publish_rolledBack {fits : ℚ → Bool} {topic : String} {data : Option Value}
    {msgType : Option String} {timeout : Option Seconds}
    (h : (s.publish fits env topic data msgType timeout).1 = .error e) :
    RolledBack env e s (s.publish fits env topic data msgType timeout).2 := by
  rw [publish] at h ⊢
  rcases htimeout : validatedTimeout fits (timeout.getD (.finite 10)) with e' | _
  · exact .refl env e s
  · rw [htimeout] at h
    exact publishWithExpectation_rolledBack h

theorem publishRequestNew_rolledBack {p : Platform} {fits : ℚ → Bool} {topic : String}
    {options : Value} {timeout : Option Seconds}
    (h : (s.publishRequestNew p fits env topic options timeout).1 = .error e) :
    RolledBack env e s (s.publishRequestNew p fits env topic options timeout).2 := by
  -- a generated identity only moves the request sequence
  have hid : ∀ {s' : Service}, RolledBack env e (s.wireId options).2 s' →
      RolledBack env e s s' := by
    intro s' hs'
    rw [wireId] at hs'
    split at hs'
    · exact hs'
    · exact ⟨hs'.pending, hs'.subscriptions, hs'.offered⟩
  rw [publishRequestNew] at h ⊢
  rcases hapi : (options.get "api_id").bind Value.asI64 with _ | apiId
  · exact .refl env e s
  rw [hapi] at h
  dsimp only at h ⊢
  rcases htimeout : validatedTimeout fits (timeout.getD (.finite 10)) with e' | _
  · exact hid (.refl env e _)
  · rw [htimeout] at h
    exact hid (publishWithExpectation_rolledBack h)

theorem subscribe_rolledBack {topic : String} (h : (s.subscribe env topic).1 = .error e) :
    RolledBack env e s (s.subscribe env topic).2 := by
  rw [subscribe_eq] at h ⊢
  have hback := sendMessageLocked_rolledBack h
  rw [if_neg (h.trans_ne (by simp))]
  exact hback

theorem unsubscribe_rolledBack {topic : String} (h : (s.unsubscribe env topic).1 = .error e) :
    RolledBack env e s (s.unsubscribe env topic).2 := by
  rw [unsubscribe_eq] at h ⊢
  have hback := sendMessageLocked_rolledBack h
  rw [if_neg (h.trans_ne (by simp))]
  exact hback

/-! ### Subscriptions -/

/-- The call succeeds if the transport accepts this message, which it is offered. -/
structure Follows (env : Env) (message : Value) (s : Service)
    (called : PortResult Unit × Service) : Prop where
  ok_iff : called.1 = .ok () ↔ env.accepts message = true
  offered : env.accepts message = true →
    called.2.effects = s.effects ++ [.sendText message]

theorem sendMessageLocked_follows (env : Env) (s : Service) (topic : String)
    (data : Option Value) (msgType : String) :
    Follows env (outgoing topic data msgType) s (s.sendMessageLocked env topic data msgType) := by
  rw [sendMessageLocked]
  split
  next hready =>
    refine ⟨?_, fun _ => rfl⟩
    rw [Env.accepts, hready, Bool.true_and]
    dsimp only
    rcases env.sendText (outgoing topic data msgType) with e | _ <;>
      simp [Except.isOk, Except.toBool]
  next hready =>
    have hnot : ¬ env.accepts (outgoing topic data msgType) = true := by
      rw [Env.accepts, Bool.not_eq_true _ |>.mp hready]
      simp
    exact ⟨iff_of_false (by simp) hnot, fun h => absurd h hnot⟩

theorem subscribe_follows (env : Env) (s : Service) (topic : String) :
    Follows env (outgoing topic none DcType.subscribe) s (s.subscribe env topic) := by
  rw [subscribe_eq]
  exact ⟨(sendMessageLocked_follows env s topic none _).ok_iff,
    (sendMessageLocked_follows env s topic none _).offered⟩

theorem unsubscribe_follows (env : Env) (s : Service) (topic : String) :
    Follows env (outgoing topic none DcType.unsubscribe) s (s.unsubscribe env topic) := by
  rw [unsubscribe_eq]
  exact ⟨(sendMessageLocked_follows env s topic none _).ok_iff,
    (sendMessageLocked_follows env s topic none _).offered⟩

theorem subscribe_subscriptions (env : Env) (s : Service) (topic t : String) :
    t ∈ (s.subscribe env topic).2.subscriptions ↔
      if (s.subscribe env topic).1 = .ok () ∧ t = topic then True else t ∈ s.subscriptions := by
  rw [subscribe_eq, (sendMessageLocked_still env s topic none _).silent.subscriptions]
  dsimp only
  split
  next hok =>
    rw [Finset.mem_insert]
    by_cases ht : t = topic
    · simp [ht, hok]
    · simp [ht]
  next hfailed => rw [if_neg fun h => hfailed h.1]

theorem unsubscribe_subscriptions (env : Env) (s : Service) (topic t : String) :
    t ∈ (s.unsubscribe env topic).2.subscriptions ↔
      if (s.unsubscribe env topic).1 = .ok () ∧ t = topic then False else t ∈ s.subscriptions := by
  rw [unsubscribe_eq, (sendMessageLocked_still env s topic none _).silent.subscriptions]
  dsimp only
  split
  next hok =>
    rw [Finset.mem_erase]
    by_cases ht : t = topic
    · simp [ht, hok]
    · simp [ht]
  next hfailed => rw [if_neg fun h => hfailed h.1]

theorem processIngress_subscriptions (p : Platform) (env : Env) (s : Service)
    (message : IngressMessage) :
    (s.processIngress p env message).subscriptions = s.subscriptions := by
  rw [processIngress]
  split
  · rfl
  · by_cases hfault : ∃ error, message.payload = .transportFault error
    · obtain ⟨error, he⟩ := hfault
      rw [he]
      rfl
    · obtain ⟨es, -, hsame, -⟩ := handlePayload_hands p env s message.payload
        fun error he => hfault ⟨error, he⟩
      exact hsame

end Service

namespace Sys

/-- One step of anyone, seen from the subscriptions. -/
theorem step_subscriptions (p : Platform) (y : Sys) (a : Action) (topic : String) :
    topic ∈ (y.step p a).service.subscriptions ↔
      match a.accepted with
      | some (t, subscribed) =>
          if topic = t then subscribed = true else topic ∈ y.service.subscriptions
      | none => topic ∈ y.service.subscriptions := by
  cases a with
  | subscribe env t =>
    rw [step, Service.subscribe_subscriptions, Action.accepted]
    have hiff := (Service.subscribe_follows env y.service t).ok_iff
    by_cases hok : env.accepts (Service.outgoing t none DcType.subscribe) <;> simp [hiff, hok]
  | unsubscribe env t =>
    rw [step, Service.unsubscribe_subscriptions, Action.accepted]
    have hiff := (Service.unsubscribe_follows env y.service t).ok_iff
    by_cases hok : env.accepts (Service.outgoing t none DcType.unsubscribe) <;> simp [hiff, hok]
  | publish fits env t data msgType timeout =>
    rw [step, started_outputs, Service.publish]
    split
    · exact Iff.rfl
    · rw [(Service.publishWithExpectation_silent ..).subscriptions]
      exact Iff.rfl
  | publishRequestNew fits env t options timeout =>
    rw [step, started_outputs, (Service.publishRequestNew_silent ..).subscriptions]
    exact Iff.rfl
  | publishWithoutCallback env t data msgType =>
    rw [step, Service.publishWithoutCallback,
      (Service.sendMessageLocked_still env y.service t data _).silent.subscriptions]
    exact Iff.rfl
  | poll token =>
    rw [step]
    split
    · rw [finish, (Service.dropGuard_silent ..).subscriptions]
      exact Iff.rfl
    · exact Iff.rfl
  | giveUp token error =>
    rw [step]
    split
    · rw [finish, (Service.dropGuard_silent ..).subscriptions]
      exact Iff.rfl
    · exact Iff.rfl
  | processIngress env message =>
    rw [step, Service.processIngress_subscriptions]
    exact Iff.rfl
  | expireChunks env =>
    rw [step, (Service.expireChunks_silent ..).subscriptions]
    exact Iff.rfl
  | heartbeatTick env epoch =>
    rw [step, (Service.heartbeatTick_silent ..).subscriptions]
    exact Iff.rfl
  | store which => cases which <;> exact Iff.rfl
  | startNewSession => exact Iff.rfl

/-- The last accepted message about a topic decides, and before the first one it is
as it was. -/
theorem run_subscriptions (p : Platform) (topic : String) (as : List Action) : ∀ y : Sys,
    topic ∈ (Runs.run (step p) y as).service.subscriptions ↔
      match (as.filterMap Action.accepted).reverse.lookup topic with
      | some subscribed => subscribed = true
      | none => topic ∈ y.service.subscriptions := by
  induction as with
  | nil => intro y; rfl
  | cons a rest ih =>
    intro y
    have hsplit : ((a :: rest).filterMap Action.accepted).reverse
        = (rest.filterMap Action.accepted).reverse ++ a.accepted.toList := by
      rw [List.filterMap_cons]
      rcases a.accepted with _ | said
      · simp
      · simp
    rw [Runs.run_cons, ih, hsplit, List.lookup_append]
    rcases (rest.filterMap Action.accepted).reverse.lookup topic with _ | subscribed
    · rw [Option.none_or]
      dsimp only
      rw [step_subscriptions]
      rcases a.accepted with _ | ⟨t, subscribed⟩
      · rfl
      · by_cases ht : topic = t
        · simp [ht]
        · have hb : (topic == t) = false := by simpa using ht
          simp [ht, List.lookup_cons, hb]
    · rfl

/-- Outbound admission is atomic, and subscriptions follow accepted sends.  In every
state a run reaches, a call that fails before it waits leaves the pending table and
the subscriptions as they were and, a rejected send apart, offers nothing to the
transport; a subscribe or unsubscribe succeeds if and only if the transport accepts its
message, which it is then offered; and a topic is subscribed to iff the last subscribe
or unsubscribe of it whose message the transport accepted is a subscribe. -/
theorem outbound_admission (p : Platform) (sessionId requestSequence : ℕ) (as : List Action) :
    let s := (Runs.run (step p) (init sessionId requestSequence) as).service
    (∀ fits env topic data msgType timeout e,
      (s.publish fits env topic data msgType timeout).1 = .error e →
        Service.RolledBack env e s (s.publish fits env topic data msgType timeout).2) ∧
    (∀ fits env topic options timeout e,
      (s.publishRequestNew p fits env topic options timeout).1 = .error e →
        Service.RolledBack env e s (s.publishRequestNew p fits env topic options timeout).2) ∧
    (∀ env topic data msgType e, (s.publishWithoutCallback env topic data msgType).1 = .error e →
      Service.RolledBack env e s (s.publishWithoutCallback env topic data msgType).2) ∧
    (∀ env topic e, (s.subscribe env topic).1 = .error e →
      Service.RolledBack env e s (s.subscribe env topic).2) ∧
    (∀ env topic e, (s.unsubscribe env topic).1 = .error e →
      Service.RolledBack env e s (s.unsubscribe env topic).2) ∧
    (∀ env topic,
      Service.Follows env (Service.outgoing topic none DcType.subscribe) s
          (s.subscribe env topic) ∧
        Service.Follows env (Service.outgoing topic none DcType.unsubscribe) s
          (s.unsubscribe env topic)) ∧
    ∀ topic, topic ∈ s.subscriptions ↔
      (as.filterMap Action.accepted).reverse.lookup topic = some true := by
  intro s
  refine ⟨fun _ _ _ _ _ _ _ h => Service.publish_rolledBack h,
    fun _ _ _ _ _ _ h => Service.publishRequestNew_rolledBack h,
    fun _ _ _ _ _ h => Service.sendMessageLocked_rolledBack h,
    fun _ _ _ h => Service.subscribe_rolledBack h,
    fun _ _ _ h => Service.unsubscribe_rolledBack h,
    fun env topic =>
      ⟨Service.subscribe_follows env s topic, Service.unsubscribe_follows env s topic⟩,
    fun topic => ?_⟩
  refine (run_subscriptions p topic as _).trans ?_
  rcases (as.filterMap Action.accepted).reverse.lookup topic with _ | subscribed
  · exact iff_of_false (Finset.notMem_empty topic) (by simp)
  · simp

end Sys

end Unitree
