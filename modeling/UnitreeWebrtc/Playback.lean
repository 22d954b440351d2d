/-
Who owns an audio sender.

`AudioPlayback` holds a sender or the handle of its shutdown.  The operations that
touch it run under the session gate, but each can be dropped where it awaits, and
what was under way then is found there by the next one.  Senders have no identity in
the session's calls, so they get one here, and with it the state that decides
whether their native pipeline is stopped (`AudioSession`).

* `step_moves` — what a step of the session can do to the playback;
* `step_sole` — a sender and a shutdown are never there together;
* `Kept` — each sender is held, or was handed to one shutdown;
* `audio_ownership` — what holds in every run.
-/
import UnitreeWebrtc.Overlap

namespace Unitree

namespace SessionCalls

variable {o : SessionOptions} {s s' s'' : SessionCalls} {op : Op} {n : ℕ} {c c' : SessionCall}
  {st : Held}

/-! ### What a step does to the playback -/

/-- `AudioPlayback`, and the shutdowns so far. -/
def playback (s : SessionCalls) : Bool × Option ℕ × ℕ × (ℕ → Option Shutdown) :=
  (s.sender, s.audioCleanup, s.nextShutdown, s.shutdowns)

/-- The sender is handed to a shutdown, or the handle of one is forgotten, or the
playback is left as it is. -/
inductive Moves (s s' : SessionCalls) : Prop
  | stays (h : s'.playback = s.playback)
  | starts (op : Op) (hsender : s.sender = true) (hcleanup : s.audioCleanup = none)
      (h : s'.playback = (false, some s.nextShutdown, s.nextShutdown + 1,
        Function.update s.shutdowns s.nextShutdown (some { op, result := none })))
  | forgets (h : s'.playback = (s.sender, none, s.nextShutdown, s.shutdowns))

/-- A step that leaves the playback as it is, after one that does something. -/
theorem Moves.after (h : Moves s s') (heq : s''.playback = s'.playback) : Moves s s'' := by
  cases h with
  | stays h => exact .stays (heq.trans h)
  | starts op hsender hcleanup h => exact .starts op hsender hcleanup (heq.trans h)
  | forgets h => exact .forgets (heq.trans h)

/-- The stages of `play_audio` between the stop and the new sender. -/
@[simp] def Held.quiet : Held → Bool
  | .playTrack | .playNew | .playStart => true
  | _ => false

/-- A part of an operation that goes on as `c'`. -/
structure Next (s s' : SessionCalls) (c' : SessionCall) : Prop where
  calls : s'.calls = s.calls
  moves : Moves s s'
  quiet : ∀ st, c'.stage = .held st → st.quiet = true → s'.sender = false

theorem Next.of_noisy (hcalls : s'.calls = s.calls) (hmoves : Moves s s')
    (h : ∀ st, c'.stage = .held st → st.quiet = false) : Next s s' c' :=
  ⟨hcalls, hmoves, fun st hst hquiet => absurd ((h st hst).symm.trans hquiet) (by simp)⟩

theorem stopAudioSender_moves (s : SessionCalls) (op : Op) (a : AudioStop) :
    Moves s (s.stopAudioSender op a).1 ∧ (s.stopAudioSender op a).1.calls = s.calls := by
  unfold stopAudioSender
  cases a with
  | lock =>
    dsimp only
    split
    · exact ⟨.stays rfl, rfl⟩
    next hcleanup hsender => exact ⟨.starts op hsender hcleanup rfl, rfl⟩
    · exact ⟨.stays rfl, rfl⟩
  | join k =>
    dsimp only
    split
    · exact ⟨.forgets rfl, rfl⟩
    · exact ⟨.stays rfl, rfl⟩

/-- When it returns, neither a sender nor a shutdown is there. -/
theorem stopAudioSender_returns (op : Op) {a : AudioStop} {result : PortResult Unit}
    (halone : s.sender = true → s.audioCleanup = none)
    (hjoining : ∀ k, a = .join k → s.audioCleanup = some k)
    (h : (s.stopAudioSender op a).2 = .inr result) :
    (s.stopAudioSender op a).1.sender = false ∧
      (s.stopAudioSender op a).1.audioCleanup = none := by
  unfold stopAudioSender at h ⊢
  cases a with
  | lock =>
    dsimp only at h ⊢
    split at h
    · exact absurd h (by simp)
    · exact absurd h (by simp)
    next hcleanup hsender => exact ⟨hsender, hcleanup⟩
  | join k =>
    dsimp only at h ⊢
    split at h
    · refine ⟨?_, rfl⟩
      by_contra hsender
      rw [Bool.not_eq_false] at hsender
      exact absurd ((halone hsender).symm.trans (hjoining k rfl)) (by simp)
    · exact absurd h (by simp)

theorem close_playback (s : SessionCalls) (op : Op) (r : Run) :
    (s.close op r).1.playback = s.playback ∧ (s.close op r).1.calls = s.calls := by
  unfold close
  cases r with
  | enter =>
    dsimp only
    split
    · exact ⟨rfl, rfl⟩
    · exact ⟨rfl, rfl⟩
  | wait =>
    dsimp only
    split
    · exact ⟨rfl, rfl⟩
    · exact ⟨rfl, rfl⟩

theorem connectInner_playback (s : SessionCalls) (op : Op) :
    (s.connectInner o op).1.playback = s.playback ∧ (s.connectInner o op).1.calls = s.calls := by
  unfold connectInner
  split
  · exact ⟨rfl, rfl⟩
  · exact ⟨rfl, rfl⟩

theorem connectInAttempt_playback (s : SessionCalls) (op : Op) :
    (s.connectInAttempt o op).1.playback = s.playback ∧
      (s.connectInAttempt o op).1.calls = s.calls := by
  unfold connectInAttempt
  split
  · exact connectInner_playback _ op
  · exact ⟨rfl, rfl⟩

theorem firstPoll_playback (s : SessionCalls) (op : Op) :
    (s.firstPoll o op).1.playback = s.playback ∧ (s.firstPoll o op).1.calls = s.calls := by
  unfold firstPoll
  split
  · exact ⟨rfl, rfl⟩
  · exact connectInAttempt_playback _ op

/-- Inside `run` only the stop has to do with the playback. -/
theorem running_moves (s : SessionCalls) (op : Op) (outcome : PortResult String) (isOpen : Bool)
    (stage : Running) : Moves s (s.running o op outcome isOpen stage).1 ∧
      (s.running o op outcome isOpen stage).1.calls = s.calls := by
  unfold running
  cases stage with
  | unpolled => exact ⟨.stays rfl, rfl⟩
  | stopAudio a =>
    have hstop := stopAudioSender_moves s op a
    dsimp only
    generalize s.stopAudioSender op a = out at hstop ⊢
    rcases out with ⟨s', next | error | _⟩
    · exact hstop
    · exact hstop
    · dsimp only
      split
      · have hrest := connectInAttempt_playback (o := o) (s'.startNewSession op) op
        exact ⟨hstop.1.after hrest.1, hrest.2.trans hstop.2⟩
      · exact ⟨hstop.1.after rfl, hstop.2⟩
  | closeFirst r =>
    have hclose := close_playback s op r
    dsimp only
    generalize s.close op r = out at hclose ⊢
    rcases out with ⟨s', _ | r⟩
    · have hrest := connectInner_playback (o := o) s' op
      exact ⟨.stays (hrest.1.trans hclose.1), hrest.2.trans hclose.2⟩
    · exact ⟨.stays hclose.1, hclose.2⟩
  | offerClosing r | offerFailing r _ =>
    have hclose := close_playback s op r
    dsimp only
    generalize s.close op r = out at hclose ⊢
    rcases out with ⟨s', _ | r⟩
    · exact ⟨.stays hclose.1, hclose.2⟩
    · exact ⟨.stays hclose.1, hclose.2⟩
  | offering | exchangeSdp | applyAnswer | waitDatachannelOpen =>
    dsimp only
    split
    · exact ⟨.stays rfl, rfl⟩
    · exact ⟨.stays rfl, rfl⟩

theorem recovery_quiet (c : SessionCall) : c.recovery.quiet = false := by
  unfold SessionCall.recovery
  split
  · rfl
  · rfl

/-- `run` goes on, or returned. -/
theorem progress_next (hmoves : Moves s s') (hcalls : s'.calls = s.calls) (n : ℕ)
    (c : SessionCall) (p : Progress) :
    ∃ s₁ c', s'.progress n c p = s₁.put n c' ∧ Next s s₁ c' := by
  cases p with
  | «at» stage =>
    refine ⟨_, _, rfl, .of_noisy hcalls hmoves fun st hst => ?_⟩
    obtain rfl := CallStage.held.inj hst
    rfl
  | done result =>
    refine ⟨_, _, rfl, .of_noisy hcalls (hmoves.after rfl) fun st hst => ?_⟩
    cases result with
    | ok =>
      obtain rfl := CallStage.held.inj hst
      rfl
    | error e =>
      obtain rfl := CallStage.held.inj hst
      exact recovery_quiet c

/-- A step of an operation, apart from the one that keeps a new sender. -/
theorem held_next (hst : st ≠ .playStart) (halone : s.sender = true → s.audioCleanup = none)
    (hjoining : ∀ k, st.stopping = some (.join k) → s.audioCleanup = some k)
    (hquiet : st.quiet = true → s.sender = false) (n : ℕ) (c : SessionCall)
    (outcome : PortResult String) (isOpen : Bool) :
    ∃ s₁ c', s.held o n c outcome isOpen st = s₁.put n c' ∧ Next s s₁ c' := by
  -- stages that have nothing to do with the playback
  have hnoisy : ∀ {s' : SessionCalls} {c' : SessionCall}, s'.playback = s.playback →
      s'.calls = s.calls → (∀ st, c'.stage = .held st → st.quiet = false) →
      ∃ s₁ c'', s'.put n c' = s₁.put n c'' ∧ Next s s₁ c'' := fun hplay hcalls h =>
    ⟨_, _, rfl, .of_noisy hcalls (.stays hplay) h⟩
  unfold SessionCalls.held
  cases st with
  | playStart => exact absurd rfl hst
  | acquired =>
    dsimp only
    split
    · split
      · split
        · exact hnoisy rfl rfl (by simp [SessionCall.ends])
        · exact hnoisy rfl rfl (by simp [SessionCall.at'])
      · exact hnoisy rfl rfl (by simp [SessionCall.at'])
    · refine hnoisy rfl rfl fun st hst => ?_
      rw [← CallStage.held.inj hst]
      exact recovery_quiet c
    · exact hnoisy rfl rfl (by simp [SessionCall.at'])
    · exact hnoisy rfl rfl (by simp [SessionCall.at'])
  | run =>
    dsimp only
    split
    · exact progress_next (.stays rfl) rfl n c _
    · exact hnoisy rfl rfl (by simp [SessionCall.at'])
  | running stage =>
    have hrun := running_moves (o := o) s (c.op n) outcome isOpen stage
    exact progress_next hrun.1 hrun.2 n c _
  | failAudio a | audioStop a | playFail a | dropAudio a | dropOperation a =>
    have hstop := stopAudioSender_moves s (c.op n) a
    dsimp only
    generalize s.stopAudioSender (c.op n) a = out at hstop ⊢
    rcases out with ⟨s', next | _⟩
    · exact ⟨_, _, rfl, .of_noisy hstop.2 hstop.1 (by simp [SessionCall.at'])⟩
    · exact ⟨_, _, rfl, .of_noisy hstop.2 (hstop.1.after rfl)
        (by simp [SessionCall.at', SessionCall.ends, SessionCall.goto])⟩
  | failClose r | dropClose r =>
    have hclose := close_playback s (c.op n) r
    dsimp only
    generalize s.close (c.op n) r = out at hclose ⊢
    rcases out with ⟨s', _ | r⟩
    · exact hnoisy hclose.1 hclose.2 (by simp [SessionCall.at', SessionCall.goto])
    · exact hnoisy hclose.1 hclose.2 (by simp [SessionCall.at'])
  | playStop a =>
    have hstop := stopAudioSender_moves s (c.op n) a
    have hreturns : ∀ result, (s.stopAudioSender (c.op n) a).2 = .inr result →
        (s.stopAudioSender (c.op n) a).1.sender = false ∧
          (s.stopAudioSender (c.op n) a).1.audioCleanup = none := fun result =>
      stopAudioSender_returns (c.op n) halone fun k hk => hjoining k (congrArg some hk)
    dsimp only
    generalize s.stopAudioSender (c.op n) a = out at hstop hreturns ⊢
    rcases out with ⟨s', next | error | _⟩
    · exact ⟨_, _, rfl, .of_noisy hstop.2 hstop.1 (by simp [SessionCall.at'])⟩
    · exact ⟨_, _, rfl, .of_noisy hstop.2 hstop.1 (by simp [SessionCall.ends])⟩
    · dsimp only
      split
      · exact ⟨_, _, rfl, hstop.2, hstop.1, fun _ _ _ => (hreturns _ rfl).1⟩
      · exact ⟨_, _, rfl, .of_noisy hstop.2 hstop.1 (by simp [SessionCall.ends])⟩
  | playTrack | playNew =>
    dsimp only
    split
    · exact ⟨_, _, rfl, rfl, .stays rfl, fun _ _ _ => hquiet rfl⟩
    · exact hnoisy rfl rfl (by simp [SessionCall.ends])
  | failStop | failRollback => exact hnoisy rfl rfl (by simp [SessionCall.at'])
  | finish | giveUp => exact hnoisy rfl rfl (by simp [SessionCall.goto])

/-! ### A sender or a shutdown -/

/-- A sender and a shutdown are not there together, and between the stop and the new
sender of a `play_audio` there is no sender. -/
structure Sole (s : SessionCalls) : Prop where
  alone : s.sender = true → s.audioCleanup = none
  quiet : ∀ n c st, s.calls n = some c → c.stage = .held st → st.quiet = true → s.sender = false

theorem Moves.alone (h : Moves s s') (halone : s.sender = true → s.audioCleanup = none) :
    s'.sender = true → s'.audioCleanup = none := by
  cases h with
  | stays h =>
    simp only [playback, Prod.mk.injEq] at h
    rw [h.1, h.2.1]
    exact halone
  | starts op _ _ h =>
    simp only [playback, Prod.mk.injEq] at h
    rw [h.1]
    exact fun hsender => absurd hsender (by simp)
  | forgets h =>
    simp only [playback, Prod.mk.injEq] at h
    exact fun _ => h.2.1

/-- The operation with the gate goes on; no other call is at a stage that matters. -/
theorem Sole.next (h : Sole s) (ht : Tidy s) (hc : s.calls n = some c)
    (hst : c.stage = .held st) (hnext : Next s s' c') : Sole (s'.put n c') where
  alone := hnext.moves.alone h.alone
  quiet m c₀ st₀ hm hst₀ hquiet := by
    by_cases hn : m = n
    · rw [hn, put_self, Option.some_inj] at hm
      subst hm
      exact hnext.quiet st₀ hst₀ hquiet
    · rw [put_ne hn, hnext.calls] at hm
      have hgate := (ht.held m c₀ st₀ hm hst₀).symm.trans (ht.held n c st hc hst)
      exact absurd (Option.some_inj.mp hgate) hn

/-- A call goes on that does not touch the playback. -/
theorem Sole.put (h : Sole s) (hplay : s'.playback = s.playback) (hcalls : s'.calls = s.calls)
    (hquiet : ∀ st, c'.stage = .held st → st.quiet = false) : Sole (s'.put n c') := by
  simp only [playback, Prod.mk.injEq] at hplay
  refine ⟨fun hsender => hplay.2.1.trans (h.alone (hplay.1.symm.trans hsender)), ?_⟩
  intro m c₀ st₀ hm hst₀ hst₀'
  by_cases hn : m = n
  · rw [hn, put_self, Option.some_inj] at hm
    subst hm
    exact absurd ((hquiet st₀ hst₀).symm.trans hst₀') (by simp)
  · rw [put_ne hn, hcalls] at hm
    exact hplay.1.trans (h.quiet m c₀ st₀ hm hst₀ hst₀')

/-- The step that keeps a new sender. -/
def installs (s : SessionCalls) : Action → Bool
  | .resume n _ _ =>
    match s.calls n with
    | some { stage := .held .playStart, .. } => true
    | _ => false
  | _ => false

theorem installs_iff {n : ℕ} {outcome : PortResult String} {isOpen : Bool} :
    s.installs (.resume n outcome isOpen) = true ↔
      ∃ c, s.calls n = some c ∧ c.stage = .held .playStart := by
  unfold installs
  dsimp only
  split
  next method index seen result hc => simp [hc]
  next hne =>
    simp only [Bool.false_eq_true, false_iff, not_exists, not_and]
    rintro ⟨method, index, seen, result, stage⟩ hc rfl
    exact hne _ _ _ _ hc

/-- What a step does, and that it keeps them apart. -/
structure Keeps (s s' : SessionCalls) : Prop where
  moves : Moves s s'
  sole : Sole s'

theorem Sole.keeps (h : Sole s) : Keeps s s := ⟨.stays rfl, h⟩

theorem Sole.keeps_next (h : Sole s) (ht : Tidy s) (hc : s.calls n = some c)
    (hst : c.stage = .held st) (hnext : ∃ s₁ c', s' = s₁.put n c' ∧ Next s s₁ c') :
    Keeps s s' := by
  obtain ⟨s₁, c', rfl, hnext⟩ := hnext
  exact ⟨hnext.moves.after rfl, h.next ht hc hst hnext⟩

theorem Sole.keeps_put (h : Sole s) (hplay : s'.playback = s.playback) (hcalls : s'.calls = s.calls)
    (hquiet : ∀ st, c'.stage = .held st → st.quiet = false) : Keeps s (s'.put n c') :=
  ⟨.stays hplay, h.put hplay hcalls hquiet⟩

/-- What is known of the operation with the gate. -/
theorem Sole.held_keeps (h : Sole s) (ht : Tidy s) (hc : s.calls n = some c)
    (hst : c.stage = .held st) (hne : st ≠ .playStart) (outcome : PortResult String)
    (isOpen : Bool) : Keeps s (s.held o n c outcome isOpen st) :=
  h.keeps_next ht hc hst (held_next hne h.alone (ht.running_owned hc hst).1.joining
    (h.quiet n c st hc hst) n c outcome isOpen)

theorem Sole.afterwards_keeps (h : Sole s) (again : Bool) : Keeps s (s.afterwards n c again) := by
  unfold SessionCalls.afterwards
  split
  · split
    · exact h.keeps_put rfl rfl (by simp [SessionCall.goto])
    · split
      · exact h.keeps_put rfl rfl (by simp)
      · exact h.keeps_put rfl rfl (by simp [SessionCall.goto])
  · exact h.keeps_put rfl rfl (by simp [SessionCall.goto])
  · exact h.keeps_put rfl rfl (by simp [SessionCall.goto])

theorem Sole.resume_keeps (h : Sole s) (ht : Tidy s) (hc : s.calls n = some c)
    (hst : c.stage ≠ .held .playStart) (outcome : PortResult String) (isOpen : Bool) :
    Keeps s (s.resume o n c outcome isOpen) := by
  unfold SessionCalls.resume
  cases hstage : c.stage with
  | begun =>
    dsimp only
    split
    · exact h.keeps_put rfl rfl (by simp [SessionCall.goto])
    · split
      · exact h.keeps_put rfl rfl (by simp [SessionCall.goto])
      · exact h.keeps_put rfl rfl (by simp [SessionCall.goto])
    · exact h.keeps_put rfl rfl (by simp [SessionCall.goto])
  | retryLoop =>
    dsimp only
    split
    · split
      · exact h.keeps_put rfl rfl (by simp [SessionCall.goto])
      · exact h.keeps_put rfl rfl (by simp [SessionCall.goto])
    · exact h.keeps
  | subscribe =>
    dsimp only
    split
    · exact h.keeps_put rfl rfl (by simp)
    · exact h.keeps_put rfl rfl (by simp)
  | held st =>
    exact h.held_keeps ht hc hstage (fun heq => hst (hstage.trans (congrArg _ heq))) outcome isOpen
  | released again => exact h.afterwards_keeps again
  | sleeping => exact h.keeps_put rfl rfl (by simp)
  | queued | returned | gone => exact h.keeps

theorem Sole.dropFuture_keeps (h : Sole s) : Keeps s (s.dropFuture n c) := by
  unfold SessionCalls.dropFuture
  split
  · exact h.keeps_put rfl rfl (by simp [SessionCall.goto])
  · exact h.keeps_put rfl rfl (by simp [SessionCall.goto])
  · split
    · split
      · exact h.keeps_put rfl rfl (by simp [SessionCall.at'])
      · split
        · exact h.keeps_put rfl rfl (by simp [SessionCall.at'])
        · exact h.keeps_put rfl rfl (by simp [SessionCall.at'])
    · exact h.keeps
  · exact h.keeps

theorem Sole.withCall (h : Sole s) {f : SessionCall → SessionCalls}
    (hf : ∀ c, s.calls n = some c → Keeps s (f c)) : Keeps s (s.withCall n f) := by
  unfold SessionCalls.withCall
  split
  · exact h.keeps
  next c hc => exact hf c hc

theorem Sole.withRunning (h : Sole s) {f : SessionCall → Running → SessionCalls}
    (hf : ∀ c stage, s.calls n = some c → c.stage = .held (.running stage) →
      Keeps s (f c stage)) : Keeps s (s.withRunning n f) := by
  refine h.withCall fun c hc => ?_
  split
  next stage hst => exact hf c stage hc hst
  next => exact h.keeps

/-- Every step that keeps no new sender and ends no shutdown. -/
theorem step_moves (h : Sole s) (ht : Tidy s) {a : Action} (hinstalls : s.installs a = false)
    (hdone : ∀ k result, a ≠ .shutdownDone k result) : Keeps s (s.step o a) := by
  cases a with
  | call method =>
    have hput : Keeps s (s.put s.nextCall (.begun method)) :=
      h.keeps_put rfl rfl (by simp [SessionCall.begun])
    exact ⟨.stays rfl, hput.sole.alone, hput.sole.quiet⟩
  | resume n outcome isOpen =>
    refine h.withCall fun c hc => h.resume_keeps ht hc (fun hst => ?_) outcome isOpen
    rw [installs_iff.mpr ⟨c, hc, hst⟩] at hinstalls
    exact absurd hinstalls (by simp)
  | acquire n =>
    refine h.withCall fun c hc => ?_
    split
    · exact h.keeps_put rfl rfl (by simp [SessionCall.at'])
    · exact h.keeps
  | firstPoll n =>
    refine h.withRunning fun c stage hc hst => ?_
    split
    · have hpoll := firstPoll_playback (o := o) s (c.op n)
      exact h.keeps_next ht hc hst (progress_next (.stays hpoll.1) hpoll.2 n c _)
    · exact h.keeps
  | cancel n =>
    refine h.withRunning fun c stage hc hst => ?_
    split
    · exact h.keeps_next ht hc hst (progress_next (.stays rfl) rfl n c _)
    · exact h.keeps
  | elapse n diagnostic =>
    refine h.withRunning fun c stage hc hst => ?_
    exact h.keeps_next ht hc hst (progress_next (.stays rfl) rfl n c _)
  | dropFuture n => exact h.withCall fun c _ => h.dropFuture_keeps
  | shutdownDone k result => exact absurd rfl (hdone k result)
  | closeDone =>
    unfold step
    dsimp only
    split
    · exact ⟨.stays rfl, h.alone, h.quiet⟩
    · exact h.keeps
  | newSession => exact ⟨.stays rfl, h.alone, h.quiet⟩

/-- The step that keeps a new sender finds none, and no shutdown that is not over. -/
theorem step_installs (h : Sole s) (ht : Tidy s) {a : Action} (hinstalls : s.installs a = true) :
    s.sender = false ∧ s.audioCleanup = none ∧
      (∀ k op, s.shutdowns k ≠ some { op, result := none }) ∧
    (s.step o a).playback = (true, none, s.nextShutdown, s.shutdowns) ∧ Sole (s.step o a) := by
  cases a with
  | resume n outcome isOpen =>
    obtain ⟨c, hc, hst⟩ := installs_iff.mp hinstalls
    obtain ⟨howned, -⟩ := ht.running_owned hc hst
    have hcleanup : s.audioCleanup = none := Option.eq_none_iff_forall_ne_some.mpr fun k hk =>
      absurd rfl (howned.cleaning k hk).1
    have hsender := h.quiet n c .playStart hc hst rfl
    refine ⟨hsender, hcleanup, fun k op hk => ?_, ?_⟩
    · exact absurd (hcleanup.symm.trans (howned.running k op hk)) (by simp)
    · have hstep :
        s.step o (.resume n outcome isOpen) = s.held o n c outcome isOpen .playStart := by
        rw [step, withCall, hc]
        dsimp only
        rw [resume, hst]
      rw [hstep]
      unfold SessionCalls.held
      dsimp only
      have hothers : ∀ c' : SessionCall, (∀ st, c'.stage = .held st → st.quiet = false) →
          Sole ({ s with sender := true }.put n c') := by
        intro c' hquiet
        refine ⟨fun _ => hcleanup, fun m c₀ st₀ hm hst₀ hst₀' => ?_⟩
        by_cases hn : m = n
        · rw [hn, put_self, Option.some_inj] at hm
          subst hm
          exact absurd ((hquiet st₀ hst₀).symm.trans hst₀') (by simp)
        · rw [put_ne hn] at hm
          have hgate := (ht.held m c₀ st₀ hm hst₀).symm.trans (ht.held n c _ hc hst)
          exact absurd (Option.some_inj.mp hgate) hn
      split
      · exact ⟨congrArg (fun k => (true, k, s.nextShutdown, s.shutdowns)) hcleanup,
          hothers _ (by simp [SessionCall.ends])⟩
      · exact ⟨congrArg (fun k => (true, k, s.nextShutdown, s.shutdowns)) hcleanup,
          hothers _ (by simp [SessionCall.at'])⟩
  | _ => exact absurd hinstalls (by simp [installs])

/-- The end of a shutdown. -/
theorem step_shutdownDone {k : ℕ} {op : Op} (hk : s.shutdowns k = some { op, result := none })
    (result : PortResult Unit) :
    (s.step o (.shutdownDone k result)).playback = (s.sender, s.audioCleanup, s.nextShutdown,
      Function.update s.shutdowns k (some { op, result := some result })) ∧
    (s.step o (.shutdownDone k result)).calls = s.calls := by
  rw [step, hk]
  exact ⟨rfl, rfl⟩

end SessionCalls

/-! ### Senders -/

/-- What of an `AudioSender` its shutdown uses: the queue and the tasks are `Option`s
that can be taken. -/
structure AudioSender where
  isPlaying : Bool
  busRunning : Bool
  rtpTx : Bool
  taskHandle : Bool
  taskAborted : Bool
  busHandle : Bool
  nativeShutdown : Bool

/-- What `NativeAudioShutdown` took of its sender. -/
structure NativeAudioShutdown where
  busHandle : Bool

namespace AudioSender

/-- `AudioSender::new`, with or without a bus. -/
def new (bus : Bool) : AudioSender where
  isPlaying := false
  busRunning := true
  rtpTx := true
  taskHandle := true
  taskAborted := false
  busHandle := bus
  nativeShutdown := false

/-- `play`, with the answer of the pipeline. -/
def play (a : AudioSender) (started : Bool) : AudioSender := { a with isPlaying := started }

def takeNativeShutdown (a : AudioSender) : AudioSender × Option NativeAudioShutdown :=
  let a := { a with
    isPlaying := false
    busRunning := false
    rtpTx := false
    taskAborted := a.taskAborted || a.taskHandle }
  if a.nativeShutdown then (a, none)
  else ({ a with nativeShutdown := true, busHandle := false }, some { busHandle := a.busHandle })

/-- `task_handle.take()`. -/
def takeTask (a : AudioSender) : AudioSender × Bool :=
  ({ a with taskHandle := false }, a.taskHandle)

end AudioSender

/-- Where the shutdown of a sender is. -/
inductive CleanupStage where
  | spawned
  /-- Its native stop is with the blocking threads. -/
  | nativeStop (native : NativeAudioShutdown) (task : Bool)
  | joinTask (native : PortResult Unit) (task : Bool)
  | done

/-- The task of `sender.shutdown()`, which owns the sender. -/
structure AudioCleanup where
  sender : ℕ
  stage : CleanupStage

/-- A session whose senders have an identity. -/
structure AudioSession where
  session : SessionCalls
  /-- The sender of the playback. -/
  held : Option ℕ
  senders : ℕ → AudioSender
  nextSender : ℕ
  cleanups : ℕ → Option AudioCleanup
  /-- The native stops so far. -/
  nativeStops : List ℕ

namespace AudioSession

def new (sessionId : ℕ) : AudioSession where
  session := SessionCalls.new sessionId
  held := none
  senders _ := .new true
  nextSender := 0
  cleanups _ := none
  nativeStops := []

def setSender (s : AudioSession) (i : ℕ) (a : AudioSender) : AudioSession :=
  { s with senders := Function.update s.senders i a }

def setCleanup (s : AudioSession) (k : ℕ) (c : AudioCleanup) : AudioSession :=
  { s with cleanups := Function.update s.cleanups k (some c) }

/-- `AudioSender::drop`: what is left to stop is stopped by a task of its own, or here
and now. -/
def dropSender (s : AudioSession) (i : ℕ) : AudioSession :=
  let (a, native) := (s.senders i).takeNativeShutdown
  let s := s.setSender i a.takeTask.1
  match native with
  | some _ => { s with nativeStops := s.nativeStops ++ [i] }
  | none => s

inductive Action where
  /-- A step of the session, other than the end of a shutdown; a sender that is kept
  by it has a bus or not, and starts to play or not. -/
  | session (a : SessionCalls.Action) (bus : Bool) (started : Bool)
  /-- A shutdown goes on, with the answer of what it waits for. -/
  | cleanup (k : ℕ) (answer : PortResult Unit)

/-- `AudioPlayback::play`: the new sender takes the place of what was there. -/
def install (s : AudioSession) (bus started : Bool) : AudioSession :=
  let s := match s.held with
    | some old => s.dropSender old
    | none => s
  { s.setSender s.nextSender ((AudioSender.new bus).play started) with
    held := some s.nextSender
    nextSender := s.nextSender + 1 }

/-- `tokio::spawn(sender.shutdown())`. -/
def handOver (s : AudioSession) (k : ℕ) : AudioSession :=
  match s.held with
  | some i => { s.setCleanup k { sender := i, stage := .spawned } with held := none }
  | none => s

/-- `native_result.and(task_result)`. -/
def both (native task : PortResult Unit) : PortResult Unit :=
  match native with
  | .error e => .error e
  | .ok _ => task

/-- `AudioSender::shutdown` and `complete_audio_shutdown`, from one wait to the next. -/
def runCleanup (o : SessionOptions) (s : AudioSession) (k : ℕ) (c : AudioCleanup)
    (answer : PortResult Unit) : AudioSession :=
  match c.stage with
  | .spawned =>
    let (a, native) := (s.senders c.sender).takeNativeShutdown
    let (a, task) := a.takeTask
    let s := s.setSender c.sender a
    match native with
    | some native => s.setCleanup k { c with stage := .nativeStop native task }
    | none => s.setCleanup k { c with stage := .joinTask (.ok ()) task }
  | .nativeStop _ task =>
    { s with nativeStops := s.nativeStops ++ [c.sender] }.setCleanup k
      { c with stage := .joinTask answer task }
  | .joinTask native task =>
    let result := both native (if task then answer else .ok ())
    let s := (s.setCleanup k { c with stage := .done }).dropSender c.sender
    { s with session := s.session.step o (.shutdownDone k result) }
  | .done => s

def sessionStep (o : SessionOptions) (s : AudioSession) (a : SessionCalls.Action)
    (bus started : Bool) : AudioSession :=
  let session := s.session.step o a
  let next := if s.session.installs a then s.install bus started else s
  let next := if session.nextShutdown ≠ s.session.nextShutdown then
    next.handOver s.session.nextShutdown else next
  { next with session }

def step (o : SessionOptions) (s : AudioSession) : Action → AudioSession
  | .session (.shutdownDone ..) _ _ => s
  | .session a bus started => s.sessionStep o a bus started
  | .cleanup k answer =>
    match s.cleanups k with
    | some c => s.runCleanup o k c answer
    | none => s

end AudioSession

/-- The native shutdown of the sender was taken. -/
def CleanupStage.taken : CleanupStage → Bool
  | .spawned => false
  | _ => true

/-- The native stops of the sender so far. -/
def CleanupStage.stops : CleanupStage → ℕ
  | .spawned | .nativeStop .. => 0
  | .joinTask .. | .done => 1

namespace AudioSession

open SessionCalls (Tidy Sole Moves step_moves step_installs step_tidy)

variable {o : SessionOptions} {s s' : AudioSession}

/-- Each sender is held, or was handed to one shutdown, and the shutdown is as far as
the sender and the session say. -/
structure Kept (s : AudioSession) : Prop where
  tidy : Tidy s.session
  sole : Sole s.session
  held : s.session.sender = s.held.isSome
  below : ∀ i, s.held = some i → i < s.nextSender
  fresh : ∀ k, s.session.nextShutdown ≤ k → s.cleanups k = none
  handed : ∀ k c, s.cleanups k = some c → c.sender < s.nextSender ∧ s.held ≠ some c.sender
  once : ∀ k k' c c', s.cleanups k = some c → s.cleanups k' = some c' → c.sender = c'.sender →
    k = k'
  every : ∀ i < s.nextSender, s.held = some i ∨ ∃ k c, s.cleanups k = some c ∧ c.sender = i
  busy : ∀ k c, s.cleanups k = some c → c.stage ≠ .done →
    ∃ op, s.session.shutdowns k = some { op, result := none }
  finished : ∀ k c, s.cleanups k = some c → c.stage = .done →
    ∃ op result, s.session.shutdowns k = some { op, result := some result }
  idle : ∀ i, s.held = some i → (s.senders i).nativeShutdown = false ∧ s.nativeStops.count i = 0
  stopped : ∀ k c, s.cleanups k = some c →
    (s.senders c.sender).nativeShutdown = c.stage.taken ∧
      s.nativeStops.count c.sender = c.stage.stops
  unused : ∀ i, s.nextSender ≤ i → s.nativeStops.count i = 0

theorem new_kept (sessionId : ℕ) : Kept (new sessionId) where
  tidy := SessionCalls.new_tidy sessionId
  sole := ⟨by simp [new, SessionCalls.new], by simp [new, SessionCalls.new]⟩
  held := rfl
  below := by simp [new]
  fresh _ _ := rfl
  handed := by simp [new]
  once := by simp [new]
  every := by simp [new]
  busy := by simp [new]
  finished := by simp [new]
  idle := by simp [new]
  stopped := by simp [new]
  unused := by simp [new]

/-- The session goes on, and leaves the playback as it is. -/
theorem Kept.session (h : Kept s) {session : SessionCalls} (htidy : Tidy session)
    (hsole : Sole session) (hsender : session.sender = s.session.sender)
    (hnext : session.nextShutdown = s.session.nextShutdown)
    (hshutdowns : session.shutdowns = s.session.shutdowns) : Kept { s with session } where
  tidy := htidy
  sole := hsole
  held := hsender.trans h.held
  below := h.below
  fresh k hk := h.fresh k (hnext ▸ hk)
  handed := h.handed
  once := h.once
  every := h.every
  busy k c hc hstage := by
    obtain ⟨op, hop⟩ := h.busy k c hc hstage
    exact ⟨op, (congrFun hshutdowns k).trans hop⟩
  finished k c hc hstage := by
    obtain ⟨op, result, hop⟩ := h.finished k c hc hstage
    exact ⟨op, result, (congrFun hshutdowns k).trans hop⟩
  idle := h.idle
  stopped := h.stopped
  unused := h.unused

/-- A new sender, when none is held. -/
theorem Kept.install (h : Kept s) (hnone : s.held = none) {session : SessionCalls}
    (htidy : Tidy session) (hsole : Sole session) (hsender : session.sender = true)
    (hnext : session.nextShutdown = s.session.nextShutdown)
    (hshutdowns : session.shutdowns = s.session.shutdowns) (bus started : Bool) :
    Kept { s.install bus started with session } := by
  -- The new sender has a new number, so that the older ones are as they were.
  have hnew : ∀ i < s.nextSender, (s.install bus started).senders i = s.senders i := by
    intro i hi
    rw [AudioSession.install, hnone]
    exact Function.update_of_ne hi.ne _ _
  have hself : ((s.install bus started).senders s.nextSender).nativeShutdown = false := by
    rw [AudioSession.install, hnone]
    show (Function.update s.senders s.nextSender ((AudioSender.new bus).play started)
      s.nextSender).nativeShutdown = false
    rw [Function.update_self]
    rfl
  have hheld : (s.install bus started).held = some s.nextSender := by
    rw [AudioSession.install, hnone]
  have hcleanups : (s.install bus started).cleanups = s.cleanups := by
    rw [AudioSession.install, hnone]
    rfl
  have hcount : (s.install bus started).nextSender = s.nextSender + 1 := by
    rw [AudioSession.install, hnone]
  have hstops : (s.install bus started).nativeStops = s.nativeStops := by
    rw [AudioSession.install, hnone]
    rfl
  refine ⟨htidy, hsole, ?_, ?_, ?_, ?_, ?_, ?_, ?_, ?_, ?_, ?_, ?_⟩
  · rw [hsender, hheld]
    rfl
  · intro i hi
    rw [hheld, Option.some_inj] at hi
    rw [hcount, ← hi]
    exact Nat.lt_succ_self _
  · intro k hk
    rw [hcleanups]
    exact h.fresh k (hnext ▸ hk)
  · intro k c hc
    rw [hcleanups] at hc
    obtain ⟨hlt, -⟩ := h.handed k c hc
    rw [hcount, hheld]
    refine ⟨Nat.lt_succ_of_lt hlt, fun heq => ?_⟩
    exact absurd (Option.some_inj.mp heq) hlt.ne'
  · intro k k' c c' hc hc'
    rw [hcleanups] at hc hc'
    exact h.once k k' c c' hc hc'
  · intro i hi
    rw [hcount] at hi
    rw [hheld, hcleanups]
    rcases Nat.lt_succ_iff_lt_or_eq.mp hi with hi | rfl
    · rcases h.every i hi with heq | hhanded
      · exact absurd (hnone.symm.trans heq) (by simp)
      · exact Or.inr hhanded
    · exact Or.inl rfl
  · intro k c hc hstage
    rw [hcleanups] at hc
    obtain ⟨op, hop⟩ := h.busy k c hc hstage
    exact ⟨op, (congrFun hshutdowns k).trans hop⟩
  · intro k c hc hstage
    rw [hcleanups] at hc
    obtain ⟨op, result, hop⟩ := h.finished k c hc hstage
    exact ⟨op, result, (congrFun hshutdowns k).trans hop⟩
  · intro i hi
    rw [hheld, Option.some_inj] at hi
    rw [← hi, hstops]
    exact ⟨hself, h.unused _ le_rfl⟩
  · intro k c hc
    rw [hcleanups] at hc
    rw [hnew _ (h.handed k c hc).1, hstops]
    exact h.stopped k c hc
  · intro i hi
    rw [hcount] at hi
    rw [hstops]
    exact h.unused i (by omega)

/-- The held sender is handed to a new shutdown. -/
theorem Kept.handOver (h : Kept s) {i : ℕ} (hi : s.held = some i) {op : Op}
    {session : SessionCalls} (htidy : Tidy session) (hsole : Sole session)
    (hsender : session.sender = false)
    (hnext : session.nextShutdown = s.session.nextShutdown + 1)
    (hshutdowns : session.shutdowns = Function.update s.session.shutdowns s.session.nextShutdown
      (some { op, result := none })) :
    Kept { s.handOver s.session.nextShutdown with session } := by
  -- The cleanup that takes the sender gets the number of the shutdown that waits for it.
  have hcleanups : ∀ k, (s.handOver s.session.nextShutdown).cleanups k =
      if k = s.session.nextShutdown then some { sender := i, stage := .spawned }
      else s.cleanups k := by
    intro k
    rw [AudioSession.handOver, hi]
    exact Function.update_apply ..
  have hrest : s.handOver s.session.nextShutdown =
      { s with held := none, cleanups := (s.handOver s.session.nextShutdown).cleanups } := by
    rw [AudioSession.handOver, hi]
    rfl
  have hold : ∀ k c, s.cleanups k = some c → k ≠ s.session.nextShutdown := by
    rintro k c hc rfl
    exact absurd ((h.fresh _ le_rfl).symm.trans hc) (by simp)
  rw [hrest]
  refine ⟨htidy, hsole, hsender, by simp, ?_, ?_, ?_, ?_, ?_, ?_, by simp, ?_, h.unused⟩
  · intro k hk
    show (s.handOver s.session.nextShutdown).cleanups k = none
    change session.nextShutdown ≤ k at hk
    rw [hcleanups, if_neg (by omega)]
    exact h.fresh k (by omega)
  · intro k c hc
    change (s.handOver s.session.nextShutdown).cleanups k = some c at hc
    rw [hcleanups] at hc
    split_ifs at hc with hk
    · rw [← Option.some_inj.mp hc]
      exact ⟨h.below i hi, by simp⟩
    · exact ⟨(h.handed k c hc).1, by simp⟩
  · intro k k' c c' hc hc' heq
    change (s.handOver s.session.nextShutdown).cleanups k = some c at hc
    change (s.handOver s.session.nextShutdown).cleanups k' = some c' at hc'
    rw [hcleanups] at hc hc'
    split_ifs at hc hc' with hk hk' hk'
    · rw [hk, hk']
    · -- the sender was held until now
      rw [← Option.some_inj.mp hc] at heq
      exact absurd (hi.trans (congrArg some heq)) (h.handed k' c' hc').2
    · rw [← Option.some_inj.mp hc'] at heq
      exact absurd (hi.trans (congrArg some heq.symm)) (h.handed k c hc).2
    · exact h.once k k' c c' hc hc' heq
  · intro j hj
    -- Nothing is held any more: each sender has a cleanup, this one the new.
    refine Or.inr ?_
    show ∃ k c, (s.handOver s.session.nextShutdown).cleanups k = some c ∧ c.sender = j
    rcases h.every j hj with heq | ⟨k, c, hc, hcj⟩
    · refine ⟨s.session.nextShutdown, { sender := i, stage := .spawned }, ?_, ?_⟩
      · rw [hcleanups, if_pos rfl]
      · exact Option.some_inj.mp (hi.symm.trans heq)
    · exact ⟨k, c, by rw [hcleanups, if_neg (hold k c hc), hc], hcj⟩
  · intro k c hc hstage
    change (s.handOver s.session.nextShutdown).cleanups k = some c at hc
    show ∃ op, session.shutdowns k = _
    rw [hcleanups] at hc
    rw [hshutdowns]
    split_ifs at hc with hk
    · exact ⟨op, by rw [hk, Function.update_self]⟩
    · rw [Function.update_of_ne hk]
      exact h.busy k c hc hstage
  · intro k c hc hstage
    change (s.handOver s.session.nextShutdown).cleanups k = some c at hc
    show ∃ op result, session.shutdowns k = _
    rw [hcleanups] at hc
    rw [hshutdowns]
    split_ifs at hc with hk
    · rw [← Option.some_inj.mp hc] at hstage
      exact absurd hstage (by simp)
    · rw [Function.update_of_ne hk]
      exact h.finished k c hc hstage
  · intro k c hc
    change (s.handOver s.session.nextShutdown).cleanups k = some c at hc
    rw [hcleanups] at hc
    split_ifs at hc with hk
    · rw [← Option.some_inj.mp hc]
      exact h.idle i hi
    · exact h.stopped k c hc

/-- A shutdown goes on: its stage, and what it has of its sender. -/
theorem Kept.cleanup (h : Kept s) {k : ℕ} {c : AudioCleanup} (hc : s.cleanups k = some c)
    (stage : CleanupStage)
    (hcleanups : s'.cleanups = Function.update s.cleanups k (some { c with stage }))
    (htidy : Tidy s'.session) (hsole : Sole s'.session)
    (hrest : (s'.session.sender, s'.session.nextShutdown, s'.held, s'.nextSender) =
      (s.session.sender, s.session.nextShutdown, s.held, s.nextSender))
    (hshutdowns : ∀ k', k' ≠ k → s'.session.shutdowns k' = s.session.shutdowns k')
    (hbusy : stage ≠ .done → ∃ op, s'.session.shutdowns k = some { op, result := none })
    (hdone : stage = .done →
      ∃ op result, s'.session.shutdowns k = some { op, result := some result })
    (hsenders : ∀ i, i ≠ c.sender → s'.senders i = s.senders i)
    (htaken : (s'.senders c.sender).nativeShutdown = stage.taken)
    (hstops : ∀ i, i ≠ c.sender → s'.nativeStops.count i = s.nativeStops.count i)
    (hstopped : s'.nativeStops.count c.sender = stage.stops) : Kept s' := by
  simp only [Prod.mk.injEq] at hrest
  obtain ⟨hsender, hnext, hheld, hcount⟩ := hrest
  have hlookup : ∀ k' c', s'.cleanups k' = some c' →
      (k' = k ∧ c' = { c with stage }) ∨ (k' ≠ k ∧ s.cleanups k' = some c') := by
    rw [hcleanups]
    exact fun k' c' => Table.of_update
  -- no other shutdown has the sender
  have hother : ∀ k' c', k' ≠ k → s.cleanups k' = some c' → c'.sender ≠ c.sender :=
    fun k' c' hk hc' heq => hk (h.once k' k c' c hc' hc heq)
  obtain ⟨hlt, hnotheld⟩ := h.handed k c hc
  refine ⟨htidy, hsole, ?_, ?_, ?_, ?_, ?_, ?_, ?_, ?_, ?_, ?_, ?_⟩
  · rw [hsender, hheld]
    exact h.held
  · rw [hheld, hcount]
    exact h.below
  · intro k' hk'
    rw [hnext] at hk'
    have hne : k' ≠ k := by
      rintro rfl
      exact absurd ((h.fresh k' hk').symm.trans hc) (by simp)
    rw [hcleanups, Function.update_of_ne hne]
    exact h.fresh k' hk'
  · intro k' c' hc'
    rw [hcount, hheld]
    rcases hlookup k' c' hc' with ⟨-, rfl⟩ | ⟨-, hc'⟩
    · exact ⟨hlt, hnotheld⟩
    · exact h.handed k' c' hc'
  · intro k₁ k₂ c₁ c₂ h₁ h₂ heq
    rcases hlookup k₁ c₁ h₁ with ⟨rfl, rfl⟩ | ⟨hne₁, h₁⟩
    · rcases hlookup k₂ c₂ h₂ with ⟨rfl, -⟩ | ⟨hne₂, h₂⟩
      · rfl
      · exact absurd heq.symm (hother k₂ c₂ hne₂ h₂)
    · rcases hlookup k₂ c₂ h₂ with ⟨rfl, rfl⟩ | ⟨-, h₂⟩
      · exact absurd heq (hother k₁ c₁ hne₁ h₁)
      · exact h.once k₁ k₂ c₁ c₂ h₁ h₂ heq
  · intro i hi
    rw [hcount] at hi
    rw [hheld]
    refine (h.every i hi).imp_right fun ⟨k', c', hc', hci⟩ => ?_
    rw [hcleanups]
    by_cases hk : k' = k
    · subst hk
      rw [hc, Option.some_inj] at hc'
      exact ⟨k', { c with stage }, Function.update_self .., (congrArg _ hc').trans hci⟩
    · exact ⟨k', c', (Function.update_of_ne hk ..).trans hc', hci⟩
  · intro k' c' hc' hstage'
    rcases hlookup k' c' hc' with ⟨rfl, rfl⟩ | ⟨hk, hc'⟩
    · exact hbusy hstage'
    · rw [hshutdowns k' hk]
      exact h.busy k' c' hc' hstage'
  · intro k' c' hc' hstage'
    rcases hlookup k' c' hc' with ⟨rfl, rfl⟩ | ⟨hk, hc'⟩
    · exact hdone hstage'
    · rw [hshutdowns k' hk]
      exact h.finished k' c' hc' hstage'
  · intro i hi
    rw [hheld] at hi
    have hne : i ≠ c.sender := by
      rintro rfl
      exact hnotheld hi
    rw [hsenders i hne, hstops i hne]
    exact h.idle i hi
  · intro k' c' hc'
    rcases hlookup k' c' hc' with ⟨-, rfl⟩ | ⟨hk, hc'⟩
    · exact ⟨htaken, hstopped⟩
    · rw [hsenders _ (hother k' c' hk hc'), hstops _ (hother k' c' hk hc')]
      exact h.stopped k' c' hc'
  · intro i hi
    rw [hcount] at hi
    rw [hstops i (by omega)]
    exact h.unused i hi

/-- Nothing is left to stop when the shutdown drops its sender. -/
theorem dropSender_taken {i : ℕ} (h : (s.senders i).nativeShutdown = true) :
    ∃ a : AudioSender, a.nativeShutdown = true ∧ s.dropSender i = s.setSender i a := by
  have htake : (s.senders i).takeNativeShutdown = ((s.senders i).takeNativeShutdown.1, none) := by
    rw [AudioSender.takeNativeShutdown, if_pos h]
  refine ⟨(s.senders i).takeNativeShutdown.1.takeTask.1, ?_, ?_⟩
  · rw [AudioSender.takeNativeShutdown, if_pos h]
    exact h
  · rw [dropSender, htake]

theorem takeNativeShutdown_fresh {a : AudioSender} (h : a.nativeShutdown = false) :
    ∃ native, a.takeNativeShutdown.2 = some native ∧
      a.takeNativeShutdown.1.nativeShutdown = true := by
  rw [AudioSender.takeNativeShutdown, if_neg (by simp [h])]
  exact ⟨_, rfl, rfl⟩

/-- A step of a shutdown. -/
theorem Kept.runCleanup (h : Kept s) {k : ℕ} {c : AudioCleanup} (hc : s.cleanups k = some c)
    (answer : PortResult Unit) : Kept (s.runCleanup o k c answer) := by
  obtain ⟨htaken, hstops⟩ := h.stopped k c hc
  unfold AudioSession.runCleanup
  cases hstage : c.stage with
  | spawned =>
    have hbusy := h.busy k c hc (by simp [hstage])
    rw [hstage] at htaken hstops
    -- The flag was not taken yet, so that this cleanup gets the native stop, and nobody after it.
    obtain ⟨native, hnative, hflag⟩ := takeNativeShutdown_fresh htaken
    dsimp only
    rcases htake : (s.senders c.sender).takeNativeShutdown with ⟨a, native'⟩
    rw [htake] at hnative hflag
    dsimp only at hnative hflag ⊢
    rw [hnative]
    refine h.cleanup hc (.nativeStop native a.takeTask.2) rfl h.tidy h.sole rfl
      (fun _ _ => rfl) (fun _ => hbusy) (fun hd => absurd hd (by simp))
      (fun i hi => Function.update_of_ne hi ..) ?_ (fun _ _ => rfl) hstops
    show (Function.update s.senders c.sender a.takeTask.1 c.sender).nativeShutdown = true
    rw [Function.update_self]
    exact hflag
  | nativeStop native task =>
    have hbusy := h.busy k c hc (by simp [hstage])
    rw [hstage] at htaken hstops
    refine h.cleanup hc (.joinTask answer task) rfl h.tidy h.sole rfl (fun _ _ => rfl)
      (fun _ => hbusy) (fun hd => absurd hd (by simp)) (fun _ _ => rfl) htaken (fun i hi => ?_) ?_
    · show (s.nativeStops ++ [c.sender]).count i = _
      rw [List.count_append, List.count_singleton, if_neg (by simpa using hi.symm), Nat.add_zero]
    · show (s.nativeStops ++ [c.sender]).count c.sender = 1
      rw [List.count_append, hstops, List.count_singleton_self]
      rfl
  | joinTask native task =>
    obtain ⟨op, hop⟩ := h.busy k c hc (by simp [hstage])
    rw [hstage] at htaken hstops
    -- The drop of the sender finds the native stop taken, and stops nothing again.
    obtain ⟨a, ha, hdrop⟩ := dropSender_taken
      (s := s.setCleanup k { c with stage := .done }) (i := c.sender) htaken
    have hend := fun result => SessionCalls.step_shutdownDone (o := o) hop result
    dsimp only
    rw [hdrop]
    generalize both native (if task then answer else .ok ()) = result
    obtain ⟨hplay, hcalls⟩ := hend result
    simp only [SessionCalls.playback, Prod.mk.injEq] at hplay
    obtain ⟨hsender, hcleanup, hnext, hshutdowns⟩ := hplay
    refine h.cleanup hc .done rfl
      (show Tidy (s.session.step o (.shutdownDone k result)) from step_tidy h.tidy _)
      ⟨?_, ?_⟩ ?_ ?_
      (fun hne => absurd rfl hne) (fun _ => ⟨op, result, ?_⟩)
      (fun i hi => Function.update_of_ne hi ..) ?_ (fun _ _ => rfl) hstops
    · intro hs
      exact hcleanup.trans (h.sole.alone (hsender.symm.trans hs))
    · intro n c₀ st hn hst hquiet
      exact hsender.trans (h.sole.quiet n c₀ st (congrFun hcalls n ▸ hn) hst hquiet)
    · rw [Prod.mk.injEq, Prod.mk.injEq]
      exact ⟨hsender, hnext, rfl⟩
    · intro k' hk'
      exact (congrFun hshutdowns k').trans (Function.update_of_ne hk' ..)
    · exact (congrFun hshutdowns k).trans (Function.update_self ..)
    · show (Function.update s.senders c.sender a c.sender).nativeShutdown = true
      rw [Function.update_self]
      exact ha
  | done => exact h

/-- A step of the session. -/
theorem Kept.sessionStep (h : Kept s) {a : SessionCalls.Action}
    (hdone : ∀ k result, a ≠ .shutdownDone k result) (bus started : Bool) :
    Kept (s.sessionStep o a bus started) := by
  have htidy := step_tidy (o := o) h.tidy a
  rw [AudioSession.sessionStep]
  by_cases hinstalls : s.session.installs a = true
  · obtain ⟨hsender, -, -, hplay, hsole⟩ := step_installs (o := o) h.sole h.tidy hinstalls
    simp only [SessionCalls.playback, Prod.mk.injEq] at hplay
    obtain ⟨hsender', -, hnext, hshutdowns⟩ := hplay
    have hnone : s.held = none := by
      rw [← Option.not_isSome_iff_eq_none, ← h.held, hsender]
      simp
    rw [if_neg (by simp [hnext]), if_pos hinstalls]
    exact h.install hnone htidy hsole hsender' hnext hshutdowns bus started
  · rw [Bool.not_eq_true] at hinstalls
    obtain ⟨hmoves, hsole⟩ := step_moves (o := o) h.sole h.tidy hinstalls hdone
    simp only [hinstalls, Bool.false_eq_true, if_false]
    cases hmoves with
    | stays hplay =>
      simp only [SessionCalls.playback, Prod.mk.injEq] at hplay
      obtain ⟨hsender, -, hnext, hshutdowns⟩ := hplay
      rw [if_neg (not_not.mpr hnext)]
      exact h.session htidy hsole hsender hnext hshutdowns
    | starts op hsender hcleanup hplay =>
      simp only [SessionCalls.playback, Prod.mk.injEq] at hplay
      obtain ⟨hsender', -, hnext, hshutdowns⟩ := hplay
      obtain ⟨i, hi⟩ := Option.isSome_iff_exists.mp (h.held.symm.trans hsender)
      rw [if_pos (hnext.trans_ne (Nat.succ_ne_self _))]
      exact h.handOver hi htidy hsole hsender' hnext hshutdowns
    | forgets hplay =>
      simp only [SessionCalls.playback, Prod.mk.injEq] at hplay
      obtain ⟨hsender, -, hnext, hshutdowns⟩ := hplay
      rw [if_neg (not_not.mpr hnext)]
      exact h.session htidy hsole hsender hnext hshutdowns

theorem step_kept (h : Kept s) (a : Action) : Kept (s.step o a) := by
  cases a with
  | cleanup k answer =>
    rw [step]
    split
    next c hc => exact h.runCleanup hc answer
    next => exact h
  | session a bus started =>
    cases a with
    | shutdownDone k result => exact h
    | _ => exact h.sessionStep (by simp) bus started

theorem run_kept (o : SessionOptions) (sessionId : ℕ) (as : List Action) :
    Kept (Runs.run (step o) (new sessionId) as) :=
  Runs.run_invariant (I := Kept) (fun _ a h => step_kept h a) as (new_kept sessionId)

/-- The sender of a shutdown has been stopped as often as its stage says. -/
theorem Kept.count_le (h : Kept s) (i : ℕ) : s.nativeStops.count i ≤ 1 := by
  by_cases hi : i < s.nextSender
  · rcases h.every i hi with hheld | ⟨k, c, hc, rfl⟩
    · rw [(h.idle i hheld).2]
      exact Nat.zero_le 1
    · rw [(h.stopped k c hc).2]
      cases c.stage <;> simp [CleanupStage.stops]
  · rw [h.unused i (not_lt.mp hi)]
    exact Nat.zero_le 1

/-- A new sender comes when the shutdowns of all others are over. -/
theorem Kept.install_after (h : Kept s) {a : SessionCalls.Action} {bus started : Bool}
    (hnew : (s.step o (.session a bus started)).nextSender ≠ s.nextSender) :
    s.held = none ∧
      ∀ i < s.nextSender, ∃ k c, s.cleanups k = some c ∧ c.sender = i ∧ c.stage = .done := by
  have hinstalls : s.session.installs a = true := by
    by_contra hno
    refine hnew ?_
    cases a with
    | shutdownDone k result => rfl
    | _ =>
      rw [step]
      · rw [AudioSession.sessionStep, if_neg hno]
        split
        · rw [AudioSession.handOver]
          split
          · rfl
          · rfl
        · rfl
      all_goals simp
  obtain ⟨hsender, -, hover, -, -⟩ := step_installs (o := o) h.sole h.tidy hinstalls
  have hnone : s.held = none := by
    rw [← Option.not_isSome_iff_eq_none, ← h.held, hsender]
    simp
  refine ⟨hnone, fun i hi => ?_⟩
  rcases h.every i hi with hheld | ⟨k, c, hc, hci⟩
  · exact absurd (hnone.symm.trans hheld) (by simp)
  · refine ⟨k, c, hc, hci, ?_⟩
    by_contra hstage
    obtain ⟨op, hop⟩ := h.busy k c hc hstage
    exact hover k op hop

/-- Audio playback ownership.  In every run, with any call dropped where it awaits and
any answer of the native side: a sender and a shutdown are never held together; a
sender that was installed is held, or was handed to exactly one shutdown; its native
stop runs at most once, and has run when its shutdown is over; a new sender is
installed only after the shutdowns of all before it; and `stop_audio_sender` leaves
neither. -/
theorem audio_ownership (o : SessionOptions) (sessionId : ℕ) (as : List Action) :
    let s := Runs.run (step o) (new sessionId) as
    s.session.sender = s.held.isSome ∧
    ¬ (s.held.isSome = true ∧ s.session.audioCleanup.isSome = true) ∧
    (∀ i < s.nextSender,
      (s.held = some i ∧ ∀ k c, s.cleanups k = some c → c.sender ≠ i) ∨
      (s.held ≠ some i ∧ ∃! k, ∃ c, s.cleanups k = some c ∧ c.sender = i)) ∧
    (∀ i, s.nativeStops.count i ≤ 1) ∧
    (∀ k c, s.cleanups k = some c → c.stage = .done → s.nativeStops.count c.sender = 1) ∧
    (∀ a bus started, (s.step o (.session a bus started)).nextSender ≠ s.nextSender →
      s.held = none ∧
        ∀ i < s.nextSender, ∃ k c, s.cleanups k = some c ∧ c.sender = i ∧ c.stage = .done) ∧
    ∀ n c st a result, s.session.calls n = some c → c.stage = .held st →
      st.stopping = some a → (s.session.stopAudioSender (c.op n) a).2 = .inr result →
      (s.session.stopAudioSender (c.op n) a).1.sender = false ∧
        (s.session.stopAudioSender (c.op n) a).1.audioCleanup = none := by
  intro s
  have h : Kept s := run_kept o sessionId as
  refine ⟨h.held, ?_, fun i hi => ?_, h.count_le, fun k c hc hstage => ?_,
    fun a bus started hnew => h.install_after hnew, ?_⟩
  · rintro ⟨hsender, hcleanup⟩
    rw [h.sole.alone (h.held.trans hsender)] at hcleanup
    exact absurd hcleanup (by simp)
  · by_cases hheld : s.held = some i
    · refine Or.inl ⟨hheld, fun k c hc heq => ?_⟩
      exact (h.handed k c hc).2 (hheld.trans (congrArg some heq.symm))
    · obtain ⟨k, c, hc, hci⟩ := (h.every i hi).resolve_left hheld
      refine Or.inr ⟨hheld, k, ⟨c, hc, hci⟩, ?_⟩
      rintro k' ⟨c', hc', hci'⟩
      exact h.once k' k c' c hc' hc (hci'.trans hci.symm)
  · rw [(h.stopped k c hc).2, hstage]
    rfl
  · intro n c st a result hc hst hstop hreturns
    have howned := (h.tidy.running_owned hc hst).1
    refine SessionCalls.stopAudioSender_returns _ h.sole.alone (fun k hk => ?_) hreturns
    exact howned.joining k (hstop.trans (congrArg some hk))

end AudioSession

end Unitree
