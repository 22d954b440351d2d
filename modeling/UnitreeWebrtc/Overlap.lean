/-
Operations never overlap.

An operation has the gate until what follows it is over: the error path, or the
tasks that a drop spawns.  The guard goes through all of these, and so do two
handles of tasks that nobody holds alone, the shutdown of an audio sender and the
close of the engine.  What is to be shown is that neither is running when the gate
becomes free.  The log of a session is then one of exclusive tenures.

* `Owned` — the running tasks, by where the holder of the gate is;
* `run_tidy` — every run keeps this;
* `operations_never_overlap` — what follows for two operations.
-/
import UnitreeWebrtc.Tenure
import UnitreeWebrtc.SessionCalls

namespace Unitree

namespace SessionCalls

open Tenure

/-! ### Tenures of the gate -/

inductive Background where
  | close
  | shutdown (k : ℕ)
deriving DecidableEq

def role : CallEvent → Role Op Background
  | .acquired op => .acquired op
  | .runStarted op | .operationStarted op | .ran op _ | .connected op _ | .prepareOffer op
  | .startNewSession op => .work op
  | .closeStarted op => .spawned op .close
  | .closeFinished op => .finished op .close
  | .shutdownStarted op k => .spawned op (.shutdown k)
  | .shutdownFinished op k => .finished op (.shutdown k)
  | .released op => .released op
  | .requested _ | .subscribed _ | .returned .. => .other

/-- What runs in the background. -/
def pending (s : SessionCalls) : Set Background := fun t =>
  match t with
  | .close => ∃ op, s.closeTask = some { op, done := false }
  | .shutdown k => ∃ op, s.shutdowns k = some { op, result := none }

/-- The `stop_audio_sender` that an operation is in. -/
@[simp] def Held.stopping : Held → Option AudioStop
  | .running (.stopAudio a) | .failAudio a | .playStop a | .playFail a | .audioStop a
  | .dropAudio a | .dropOperation a => some a
  | _ => none

/-- A close can be stored there. -/
@[simp] def Held.closes : Held → Bool
  | .running (.closeFirst _) | .running (.offerClosing _) | .running (.offerFailing ..)
  | .failAudio _ | .failStop | .failRollback | .failClose _ | .dropAudio _ | .dropClose _ => true
  | _ => false

/-- Only operations of the validated session have to do with audio. -/
@[simp] def Held.ofSession (stage : Held) : Bool := stage.stopping.isSome || stage.plays

attribute [simp] Held.plays

/-- The tasks of the holder `h`, which is in this `stop_audio_sender`. -/
structure Owned (s : SessionCalls) (h : Option Op) (a : Option AudioStop) (closes : Bool) :
    Prop where
  closing : ∀ t, s.closeTask = some t → h = some t.op ∧ closes = true
  cleaning : ∀ k, s.audioCleanup = some k → a ≠ none ∧ ∃ t, s.shutdowns k = some t ∧ h = some t.op
  joining : ∀ k, a = some (.join k) → s.audioCleanup = some k
  running : ∀ k op, s.shutdowns k = some { op, result := none } → s.audioCleanup = some k
  fresh : ∀ k, s.nextShutdown ≤ k → s.shutdowns k = none
  orderly : Orderly role s.log h s.pending

/-- The current operation has or had the gate. -/
def CallStage.past : CallStage → Bool
  | .begun | .retryLoop | .subscribe | .queued => false
  | _ => true

/-- The operation with this index has or had the gate. -/
def SessionCall.Spent (c : SessionCall) (i : ℕ) : Prop :=
  i < c.index ∨ i = c.index ∧ c.stage.past = true

structure Tidy (s : SessionCalls) : Prop where
  held : ∀ n c st, s.calls n = some c → c.stage = .held st → s.gate = some n
  layer : ∀ n c st, s.calls n = some c → c.stage = .held st → st.ofSession = true →
    c.layer = .session
  free : s.gate = none → Owned s none none false
  owned : ∀ n, s.gate = some n → ∃ c st, s.calls n = some c ∧ c.stage = .held st ∧
    Owned s (some (c.op n)) st.stopping st.closes
  spent : ∀ e ∈ s.log, ∀ op, (role e).owner = some op →
    ∃ c, s.calls op.call = some c ∧ c.Spent op.index
  unused : ∀ n, s.nextCall ≤ n → s.calls n = none

variable {o : SessionOptions} {s s' s'' : SessionCalls} {op : Op} {h : Option Op}
  {a a' : Option AudioStop} {b b' : Bool} {n : ℕ} {c c' : SessionCall} {st st' : Held}

/-! ### The parts of an operation -/

/-- Only the tasks and the log matter. -/
theorem Owned.keep (hs : Owned s h a b)
    (heq : (s'.closeTask, s'.audioCleanup, s'.shutdowns, s'.nextShutdown, s'.log) =
      (s.closeTask, s.audioCleanup, s.shutdowns, s.nextShutdown, s.log)) : Owned s' h a b := by
  simp only [Prod.mk.injEq] at heq
  obtain ⟨hclose, hcleanup, hshutdowns, hnext, hlog⟩ := heq
  have hpending : s'.pending = s.pending := by
    unfold pending
    rw [hclose, hshutdowns]
  refine ⟨?_, ?_, ?_, ?_, ?_, ?_⟩
  · rw [hclose]
    exact hs.closing
  · rw [hcleanup, hshutdowns]
    exact hs.cleaning
  · rw [hcleanup]
    exact hs.joining
  · rw [hcleanup, hshutdowns]
    exact hs.running
  · rw [hnext, hshutdowns]
    exact hs.fresh
  · rw [hlog, hpending]
    exact hs.orderly

/-- It goes on to a stage where more can be stored. -/
theorem Owned.weaken (hs : Owned s h a b) (ha : a ≠ none → a' ≠ none)
    (hjoin : ∀ k, a' ≠ some (.join k)) (hb : b = true → b' = true) : Owned s h a' b' :=
  ⟨fun t ht => ⟨(hs.closing t ht).1, hb (hs.closing t ht).2⟩,
    fun k hk => ⟨ha (hs.cleaning k hk).1, (hs.cleaning k hk).2⟩,
    fun k hk => absurd hk (hjoin k), hs.running, hs.fresh, hs.orderly⟩

theorem Owned.idle (hs : Owned s h none false) :
    s.closeTask = none ∧ s.audioCleanup = none ∧ s.pending = ∅ := by
  have hclose : s.closeTask = none :=
    Option.eq_none_iff_forall_ne_some.mpr fun t ht => absurd (hs.closing t ht).2 (by simp)
  have hcleanup : s.audioCleanup = none :=
    Option.eq_none_iff_forall_ne_some.mpr fun k hk => absurd rfl (hs.cleaning k hk).1
  refine ⟨hclose, hcleanup, ?_⟩
  ext t
  refine ⟨fun ht => ?_, fun ht => absurd ht (Set.notMem_empty t)⟩
  cases t with
  | close =>
    obtain ⟨_, ht⟩ := ht
    exact absurd (hclose.symm.trans ht) (by simp)
  | shutdown k =>
    obtain ⟨op, ht⟩ := ht
    exact absurd (hcleanup.symm.trans (hs.running k op ht)) (by simp)

/-- Without tasks the gate can change hands. -/
theorem Owned.handOver (hs : Owned s h none false) {h' : Option Op} {e : CallEvent}
    (hstep : Step role s.log (role e) h ∅ h' ∅) : Owned (s.record e) h' none false := by
  obtain ⟨hclose, hcleanup, hempty⟩ := hs.idle
  refine ⟨fun t ht => absurd (hclose.symm.trans ht) (by simp),
    fun k hk => absurd (hcleanup.symm.trans hk) (by simp), fun k hk => absurd hk (by simp),
    hs.running, hs.fresh, ?_⟩
  have horderly := hs.orderly
  rw [hempty] at horderly
  have hnext : Orderly role (s.log ++ [e]) h' ∅ := .snoc horderly hstep
  rw [← hempty] at hnext
  exact hnext

/-- A part of an operation: its own events, and what it leaves to the next stage. -/
structure Serves (op : Op) (s s' : SessionCalls) (a : Option AudioStop) (b : Bool) : Prop where
  owned : Owned s' (some op) a b
  calls : s'.calls = s.calls
  gate : s'.gate = s.gate
  nextCall : s'.nextCall = s.nextCall
  log : ∃ es, s'.log = s.log ++ es ∧ ∀ e ∈ es, ∀ op', (role e).owner = some op' → op' = op

theorem Serves.refl (hs : Owned s (some op) a b) : Serves op s s a b :=
  ⟨hs, rfl, rfl, rfl, [], by simp, by simp⟩

theorem Serves.trans (h₁ : Serves op s s' a b) (h₂ : Serves op s' s'' a' b') :
    Serves op s s'' a' b' := by
  obtain ⟨es₁, hlog₁, hes₁⟩ := h₁.log
  obtain ⟨es₂, hlog₂, hes₂⟩ := h₂.log
  refine ⟨h₂.owned, h₂.calls.trans h₁.calls, h₂.gate.trans h₁.gate,
    h₂.nextCall.trans h₁.nextCall, es₁ ++ es₂, ?_, fun e he => ?_⟩
  · rw [hlog₂, hlog₁, List.append_assoc]
  · rcases List.mem_append.mp he with he | he
    · exact hes₁ e he
    · exact hes₂ e he

theorem Serves.weaken (hs : Serves op s s' a b) (ha : a ≠ none → a' ≠ none)
    (hjoin : ∀ k, a' ≠ some (.join k)) (hb : b = true → b' = true) : Serves op s s' a' b' :=
  ⟨hs.owned.weaken ha hjoin hb, hs.calls, hs.gate, hs.nextCall, hs.log⟩

/-- An event that starts and finishes nothing. -/
theorem Owned.work (hs : Owned s (some op) a b) {e : CallEvent} (he : role e = .work op) :
    Serves op s (s.record e) a b := by
  refine ⟨⟨hs.closing, hs.cleaning, hs.joining, hs.running, hs.fresh, .snoc hs.orderly ?_⟩,
    rfl, rfl, rfl, [e], rfl, fun x hx op' hop => ?_⟩
  · rw [he]
    exact .work op _
  · rw [List.mem_singleton.mp hx, he] at hop
    exact (Option.some_inj.mp hop).symm

theorem Owned.setConnected (hs : Owned s (some op) a b) (value : Bool) :
    Serves op s (s.setConnected op value) a b := by
  have hkeep : Owned { s with isConnected := value } (some op) a b := hs.keep rfl
  have hwork := hkeep.work (e := .connected op value) rfl
  exact ⟨hwork.owned, rfl, rfl, rfl, hwork.log⟩

theorem Owned.startNewSession (hs : Owned s (some op) a b) :
    Serves op s (s.startNewSession op) a b := by
  have hkeep : Owned { s with sessionId := s.sessionId + 1 } (some op) a b := hs.keep rfl
  have hwork := hkeep.work (e := .startNewSession op) rfl
  exact ⟨hwork.owned, rfl, rfl, rfl, hwork.log⟩

theorem pending_close (s : SessionCalls) (op : Op) :
    ({ s with closeTask := some { op, done := false } }.record (.closeStarted op)).pending =
      insert .close s.pending := by
  ext t
  cases t with
  | close => exact ⟨fun _ => Set.mem_insert .., fun _ => ⟨op, rfl⟩⟩
  | shutdown k =>
    refine ⟨fun ht => Set.mem_insert_of_mem _ ht, fun ht => ?_⟩
    rcases ht with ht | ht
    · exact absurd ht (by simp)
    · exact ht

/-- A close that is over can be forgotten. -/
theorem pending_forget {t : CloseTask} (ht : s.closeTask = some t) (hdone : t.done = true) :
    ({ s with closeTask := none } : SessionCalls).pending = s.pending := by
  ext x
  cases x with
  | close =>
    refine ⟨fun ⟨_, h⟩ => absurd h (by simp), fun ⟨_, h⟩ => ?_⟩
    rw [ht, Option.some_inj] at h
    exact absurd hdone (by simp [h])
  | shutdown k => exact Iff.rfl

/-- After the wait nothing is stored. -/
theorem close_serves (hs : Owned s (some op) a b) (r : Run) :
    Serves op s (s.close op r).1 a (s.close op r).2.isSome := by
  have hstay : Serves op s s a true :=
    .refl ⟨fun t ht => ⟨(hs.closing t ht).1, rfl⟩, hs.cleaning, hs.joining, hs.running, hs.fresh,
      hs.orderly⟩
  unfold close
  cases r with
  | enter =>
    dsimp only
    split
    · exact hstay
    · refine ⟨⟨fun t ht => ?_, hs.cleaning, hs.joining, hs.running, hs.fresh, ?_⟩,
        rfl, rfl, rfl, [.closeStarted op], rfl, fun x hx op' hop => ?_⟩
      · exact ⟨by rw [← Option.some_inj.mp ht], rfl⟩
      · rw [pending_close]
        exact .snoc hs.orderly (.spawned op Background.close _)
      · rw [List.mem_singleton.mp hx] at hop
        exact (Option.some_inj.mp hop).symm
  | wait =>
    dsimp only
    split
    next ht =>
      refine ⟨⟨fun t ht => absurd ht (by simp), hs.cleaning, hs.joining, hs.running, hs.fresh, ?_⟩,
        rfl, rfl, rfl, [], by simp, by simp⟩
      rw [pending_forget ht rfl]
      exact hs.orderly
    next => exact hstay

theorem pending_start (k : ℕ) (op : Op) (hclose : s'.closeTask = s.closeTask)
    (hshutdowns : s'.shutdowns = Function.update s.shutdowns k (some { op, result := none })) :
    s'.pending = insert (.shutdown k) s.pending := by
  ext t
  cases t with
  | close =>
    show (∃ op, s'.closeTask = _) ↔ _
    rw [hclose]
    refine ⟨fun ht => Set.mem_insert_of_mem _ ht, fun ht => ?_⟩
    rcases ht with ht | ht
    · exact absurd ht (by simp)
    · exact ht
  | shutdown k' =>
    show (∃ op, s'.shutdowns k' = _) ↔ _
    rw [hshutdowns]
    by_cases hk : k' = k
    · subst hk
      exact ⟨fun _ => Set.mem_insert .., fun _ => ⟨op, Function.update_self ..⟩⟩
    · rw [Function.update_of_ne hk]
      refine ⟨fun ht => Set.mem_insert_of_mem _ ht, fun ht => ?_⟩
      rcases ht with ht | ht
      · exact absurd (Background.shutdown.inj ht) hk
      · exact ht

theorem stopAudioSender_serves (stop : AudioStop) (hs : Owned s (some op) (some stop) b) :
    Serves op s (s.stopAudioSender op stop).1 (s.stopAudioSender op stop).2.getLeft? b := by
  unfold stopAudioSender
  cases stop with
  | lock =>
    dsimp only
    split
    next k hk =>
      refine .refl ⟨hs.closing, fun k hk => ⟨by simp, (hs.cleaning k hk).2⟩, fun k' hk' => ?_,
        hs.running, hs.fresh, hs.orderly⟩
      rw [hk]
      exact congrArg some (AudioStop.join.inj (Option.some_inj.mp hk'))
    next hnone _ =>
      have hfresh := hs.fresh s.nextShutdown (le_refl _)
      have hidle : ∀ k op, s.shutdowns k ≠ some { op, result := none } := by
        intro k op' hk
        exact absurd (hnone.symm.trans (hs.running k op' hk)) (by simp)
      refine ⟨⟨hs.closing, fun k hk => ⟨by simp, { op, result := none }, ?_, rfl⟩, fun k hk => ?_,
        fun k op' hk => ?_, fun k hk => ?_, ?_⟩,
        rfl, rfl, rfl, [.shutdownStarted op s.nextShutdown], rfl, fun x hx op' hop => ?_⟩
      · rw [← Option.some_inj.mp hk]
        exact Function.update_self ..
      · exact congrArg some (AudioStop.join.inj (Option.some_inj.mp hk))
      · rcases Table.of_update hk with ⟨hkn, -⟩ | ⟨-, hold⟩
        · exact congrArg some hkn.symm
        · exact absurd hold (hidle k op')
      · change s.nextShutdown + 1 ≤ k at hk
        refine (Function.update_of_ne ?_ ..).trans (hs.fresh k ?_)
        · omega
        · omega
      · rw [pending_start (s := s) s.nextShutdown op ?_ ?_]
        · exact .snoc hs.orderly (.spawned op (Background.shutdown s.nextShutdown) _)
        · rfl
        · rfl
      · rw [List.mem_singleton.mp hx] at hop
        exact (Option.some_inj.mp hop).symm
    next hnone _ =>
      exact .refl ⟨hs.closing, fun k hk => absurd (hnone.symm.trans hk) (by simp), fun k hk =>
        absurd hk (by simp), hs.running, hs.fresh, hs.orderly⟩
  | join k =>
    dsimp only
    have hk := hs.joining k rfl
    split
    next op' result hresult =>
      refine ⟨⟨hs.closing, fun k hk => absurd hk (by simp), fun k hk => absurd hk (by simp),
        fun k' op'' hrun => ?_, hs.fresh, hs.orderly⟩, rfl, rfl, rfl, [], by simp, by simp⟩
      -- the only shutdown that could run is over
      have hk' : some k = some k' := hk.symm.trans (hs.running k' op'' hrun)
      change s.shutdowns k' = _ at hrun
      rw [← Option.some_inj.mp hk', hresult] at hrun
      exact absurd hrun (by simp)
    next => exact .refl hs

/-! ### The operation in `run` -/

/-- Where the operation is next, or that it is over. -/
def Progress.stopping : Progress → Option AudioStop
  | .at stage => (Held.running stage).stopping
  | .done _ => none

def Progress.closes : Progress → Bool
  | .at stage => (Held.running stage).closes
  | .done _ => false

theorem connectInner_serves (hs : Owned s (some op) none false) :
    Serves op s (s.connectInner o op).1 (s.connectInner o op).2.stopping
      (s.connectInner o op).2.closes := by
  unfold connectInner
  split
  · exact (hs.work rfl).weaken (by simp) (by simp [Progress.stopping, Held.stopping]) (by simp)
  · exact .refl hs

theorem connectInAttempt_serves (hs : Owned s (some op) none false) :
    Serves op s (s.connectInAttempt o op).1 (s.connectInAttempt o op).2.stopping
      (s.connectInAttempt o op).2.closes := by
  have hfirst := hs.setConnected false
  unfold connectInAttempt
  split
  · exact hfirst.trans (connectInner_serves hfirst.owned)
  · have hsecond := hfirst.trans (hfirst.owned.setConnected false)
    exact hsecond.weaken (by simp) (by simp [Progress.stopping, Held.stopping]) (by simp)

theorem firstPoll_serves (hs : Owned s (some op) none false) :
    Serves op s (s.firstPoll o op).1 (s.firstPoll o op).2.stopping (s.firstPoll o op).2.closes := by
  have hfirst : Serves op s (s.record (.operationStarted op)) none false := hs.work rfl
  unfold firstPoll
  split
  · refine hfirst.weaken (by simp) ?_ (by simp)
    simp [Progress.stopping, Held.stopping]
  · exact hfirst.trans (connectInAttempt_serves hfirst.owned)

theorem running_serves {stage : Running}
    (hs : Owned s (some op) (Held.running stage).stopping (Held.running stage).closes)
    (outcome : PortResult String) (isOpen : Bool) :
    Serves op s (s.running o op outcome isOpen stage).1
      (s.running o op outcome isOpen stage).2.stopping
      (s.running o op outcome isOpen stage).2.closes := by
  have hstay : Serves op s s (Held.running stage).stopping (Held.running stage).closes := .refl hs
  unfold running
  cases stage with
  | unpolled => exact hstay
  | stopAudio stop =>
    have hstop := stopAudioSender_serves stop hs
    dsimp only
    generalize s.stopAudioSender op stop = out at hstop ⊢
    rcases out with ⟨s', next | error | _⟩
    · exact hstop
    · exact hstop
    -- The sender is stopped before the new session starts, both by this operation.
    · have hnew := hstop.trans hstop.owned.startNewSession
      dsimp only
      split
      · exact hnew.trans (connectInAttempt_serves hnew.owned)
      · exact hnew
  | closeFirst r =>
    have hclose := close_serves hs r
    dsimp only
    generalize s.close op r = out at hclose ⊢
    rcases out with ⟨s', _ | r⟩
    -- The close has returned, so that the next call finds no cleanup under way.
    · exact hclose.trans (connectInner_serves hclose.owned)
    · exact hclose
  | offerClosing r =>
    have hclose := close_serves hs r
    dsimp only
    generalize s.close op r = out at hclose ⊢
    rcases out with ⟨s', _ | r⟩
    · exact hclose
    · exact hclose
  | offering =>
    dsimp only
    split
    · exact hstay
    · exact hstay.weaken (by simp [Held.stopping]) (by simp [Progress.stopping, Held.stopping])
        (by simp [Held.closes])
  | offerFailing r e =>
    have hclose := close_serves hs r
    dsimp only
    generalize s.close op r = out at hclose ⊢
    rcases out with ⟨s', _ | r⟩
    · exact hclose
    · exact hclose
  | exchangeSdp =>
    dsimp only
    split
    · exact hstay
    · exact hstay
  | applyAnswer =>
    dsimp only
    split
    · have hset := hs.setConnected true
      split
      · exact hset
      · exact hset
    · exact hstay
  | waitDatachannelOpen =>
    dsimp only
    split
    · exact hstay
    · split
      · exact hstay
      · exact hstay

theorem connectInner_stopping : (s.connectInner o op).2.stopping = none := by
  unfold connectInner
  split
  · rfl
  · rfl

theorem connectInAttempt_stopping : (s.connectInAttempt o op).2.stopping = none := by
  unfold connectInAttempt
  split
  · exact connectInner_stopping
  · rfl

theorem firstPoll_stopping (h : (s.firstPoll o op).2.stopping ≠ none) :
    op.operation.layer = .session := by
  unfold firstPoll at h
  split at h
  next hl => exact hl
  next => exact absurd connectInAttempt_stopping h

/-- Nothing comes back to the audio. -/
theorem running_stopping {stage : Running} {outcome : PortResult String} {isOpen : Bool}
    (hstage : (Held.running stage).stopping = none) :
    (s.running o op outcome isOpen stage).2.stopping = none := by
  unfold running
  cases stage with
  | unpolled => rfl
  | stopAudio => exact absurd hstage (by simp)
  | closeFirst r =>
    dsimp only
    split
    · rfl
    · exact connectInner_stopping
  | offerClosing r =>
    dsimp only
    split
    · rfl
    · rfl
  | offering | exchangeSdp =>
    dsimp only
    split
    · rfl
    · rfl
  | offerFailing r e =>
    dsimp only
    split
    · rfl
    · rfl
  | applyAnswer =>
    dsimp only
    split
    · split
      · rfl
      · rfl
    · rfl
  | waitDatachannelOpen =>
    dsimp only
    split
    · rfl
    · split
      · rfl
      · rfl

/-! ### Steps -/

theorem Owned.put (hs : Owned s h a b) (n : ℕ) (c : SessionCall) : Owned (s.put n c) h a b :=
  hs.keep rfl

theorem SessionCall.Spent.keep {i : ℕ} (h : c.Spent i) (hindex : c'.index = c.index)
    (hpast : c.stage.past = true → c'.stage.past = true) : c'.Spent i := by
  rcases h with hlt | ⟨heq, hc⟩
  · exact Or.inl (hindex ▸ hlt)
  · exact Or.inr ⟨heq.trans hindex.symm, hpast hc⟩

theorem SessionCall.Spent.next {i : ℕ} (h : c.Spent i) (hindex : c'.index = c.index + 1) :
    c'.Spent i := by
  refine Or.inl ?_
  rcases h with hlt | ⟨heq, -⟩
  · omega
  · omega

/-- What others do between the operations. -/
structure Idle (s s' : SessionCalls) : Prop where
  calls : s'.calls = s.calls
  gate : s'.gate = s.gate
  nextCall : s'.nextCall = s.nextCall
  owned : ∀ h a b, Owned s h a b → Owned s' h a b
  log : ∃ es, s'.log = s.log ++ es ∧ ∀ e ∈ es, (role e).owner = none

theorem Idle.refl (s : SessionCalls) : Idle s s :=
  ⟨rfl, rfl, rfl, fun _ _ _ h => h, [], by simp, by simp⟩

theorem Idle.record (s : SessionCalls) {e : CallEvent} (he : role e = .other) :
    Idle s (s.record e) := by
  refine ⟨rfl, rfl, rfl, fun h a b hs => ?_, [e], rfl, fun x hx => ?_⟩
  · refine ⟨hs.closing, hs.cleaning, hs.joining, hs.running, hs.fresh, .snoc hs.orderly ?_⟩
    rw [he]
    exact .other _ _
  · rw [List.mem_singleton.mp hx, he]
    rfl

/-- Any other call keeps its place. -/
theorem put_ne {m : ℕ} (hm : m ≠ n) : (s.put n c).calls m = s.calls m := by
  rw [put_calls, if_neg hm]

theorem put_self : (s.put n c).calls n = some c := by rw [put_calls, if_pos rfl]

/-- The logged operations are still spent when a call goes on. -/
theorem Tidy.spent_put (ht : Tidy s) (hc : s.calls n = some c) (hcalls : s'.calls = s.calls)
    (hlog : ∃ es, s'.log = s.log ++ es ∧
      ∀ e ∈ es, ∀ op, (role e).owner = some op → op.call = n ∧ c'.Spent op.index)
    (hspent : ∀ i, c.Spent i → c'.Spent i) :
    ∀ e ∈ (s'.put n c').log, ∀ op, (role e).owner = some op →
      ∃ c, (s'.put n c').calls op.call = some c ∧ c.Spent op.index := by
  obtain ⟨es, hlog, hes⟩ := hlog
  intro e he op hop
  change e ∈ s'.log at he
  rw [hlog] at he
  rcases List.mem_append.mp he with he | he
  · obtain ⟨c₀, hc₀, hs₀⟩ := ht.spent e he op hop
    by_cases hn : op.call = n
    · rw [hn, put_self]
      rw [hn, hc, Option.some_inj] at hc₀
      exact ⟨c', rfl, hspent _ (hc₀ ▸ hs₀)⟩
    · rw [put_ne hn, hcalls]
      exact ⟨c₀, hc₀, hs₀⟩
  · obtain ⟨hn, hs₀⟩ := hes e he op hop
    rw [hn, put_self]
    exact ⟨c', rfl, hs₀⟩

theorem Tidy.unused_put (ht : Tidy s) (hc : s.calls n = some c) (hcalls : s'.calls = s.calls)
    (hnext : s'.nextCall = s.nextCall) (m : ℕ) (hm : (s'.put n c').nextCall ≤ m) :
    (s'.put n c').calls m = none := by
  change s'.nextCall ≤ m at hm
  rw [hnext] at hm
  by_cases hn : m = n
  · have := ht.unused m hm
    rw [hn, hc] at this
    exact absurd this (by simp)
  · rw [put_ne hn, hcalls]
    exact ht.unused m hm

/-- A call without the gate goes on. -/
theorem Tidy.idle (ht : Tidy s) (hc : s.calls n = some c) (hidle : Idle s s')
    (hst : ∀ st, c.stage ≠ .held st) (hst' : ∀ st, c'.stage ≠ .held st)
    (hspent : ∀ i, c.Spent i → c'.Spent i) : Tidy (s'.put n c') where
  held m c₀ st hm hstage := by
    by_cases hn : m = n
    · rw [hn, put_self, Option.some_inj] at hm
      exact absurd (hm ▸ hstage) (hst' st)
    · rw [put_ne hn, hidle.calls] at hm
      exact hidle.gate.trans (ht.held m c₀ st hm hstage)
  layer m c₀ st hm hstage := by
    by_cases hn : m = n
    · rw [hn, put_self, Option.some_inj] at hm
      exact absurd (hm ▸ hstage) (hst' st)
    · rw [put_ne hn, hidle.calls] at hm
      exact ht.layer m c₀ st hm hstage
  free hfree := (hidle.owned _ _ _ (ht.free (hidle.gate.symm.trans hfree))).put n c'
  owned m hm := by
    obtain ⟨c₀, st, hc₀, hstage, howned⟩ := ht.owned m (hidle.gate.symm.trans hm)
    have hn : m ≠ n := by
      rintro rfl
      rw [hc, Option.some_inj] at hc₀
      exact hst st (hc₀ ▸ hstage)
    refine ⟨c₀, st, ?_, hstage, (hidle.owned _ _ _ howned).put n c'⟩
    rw [put_ne hn, hidle.calls]
    exact hc₀
  spent := by
    obtain ⟨es, hlog, hes⟩ := hidle.log
    refine ht.spent_put hc hidle.calls ⟨es, hlog, fun e he op hop => ?_⟩ hspent
    exact absurd ((hes e he).symm.trans hop) (by simp)
  unused := ht.unused_put hc hidle.calls hidle.nextCall

/-- The operation with the gate goes on to another stage. -/
theorem Tidy.serve (ht : Tidy s) (hc : s.calls n = some c) (hst : c.stage = .held st)
    (hc' : c'.stage = .held st') (hserves : Serves (c.op n) s s' st'.stopping st'.closes)
    (hmethod : c'.method = c.method) (hindex : c'.index = c.index)
    (hlayer : st'.ofSession = true → c.layer = .session) : Tidy (s'.put n c') where
  held m c₀ st₀ hm hstage := by
    have hgate := ht.held n c st hc hst
    by_cases hn : m = n
    · rw [hn]
      exact hserves.gate.trans hgate
    · rw [put_ne hn, hserves.calls] at hm
      exact hserves.gate.trans (ht.held m c₀ st₀ hm hstage)
  layer m c₀ st₀ hm hstage hof := by
    by_cases hn : m = n
    · rw [hn, put_self, Option.some_inj] at hm
      subst hm
      rw [hc', CallStage.held.injEq] at hstage
      rw [SessionCall.layer, hmethod]
      exact hlayer (hstage ▸ hof)
    · rw [put_ne hn, hserves.calls] at hm
      exact ht.layer m c₀ st₀ hm hstage hof
  free hfree :=
    absurd ((ht.held n c st hc hst).symm.trans (hserves.gate.symm.trans hfree)) (by simp)
  owned m hm := by
    have hgate := (ht.held n c st hc hst).symm.trans (hserves.gate.symm.trans hm)
    rw [← Option.some_inj.mp hgate]
    refine ⟨c', st', put_self, hc', ?_⟩
    have hop : c'.op n = c.op n := by rw [SessionCall.op, SessionCall.op, hmethod, hindex]
    rw [hop]
    exact hserves.owned.put n c'
  spent := by
    obtain ⟨es, hlog, hes⟩ := hserves.log
    refine ht.spent_put hc hserves.calls ⟨es, hlog, fun e he op hop => ?_⟩ fun i hi => ?_
    · rw [hes e he op hop]
      exact ⟨rfl, Or.inr ⟨hindex.symm, by rw [hc']; rfl⟩⟩
    · exact hi.keep hindex fun _ => by rw [hc']; rfl
  unused := ht.unused_put hc hserves.calls hserves.nextCall

/-- The gate is released, with nothing left in the background. -/
theorem Tidy.release (ht : Tidy s) (hc : s.calls n = some c) (hst : c.stage = .held st)
    (hserves : Serves (c.op n) s s' none false) {stage : CallStage}
    (hstage : ∀ st', stage ≠ .held st')
    (hpast : (c.goto stage).Spent c.index) : Tidy ((s'.release (c.op n)).put n (c.goto stage)) := by
  have hgate := ht.held n c st hc hst
  have hcalls : (s'.release (c.op n)).calls = s.calls := hserves.calls
  have hother : ∀ m c₀ st₀, ((s'.release (c.op n)).put n (c.goto stage)).calls m = some c₀ →
      c₀.stage ≠ .held st₀ := by
    intro m c₀ st₀ hm hheld
    by_cases hn : m = n
    · rw [hn, put_self, Option.some_inj] at hm
      subst hm
      exact hstage st₀ hheld
    · rw [put_ne hn, hcalls] at hm
      exact hn (Option.some_inj.mp ((ht.held m c₀ st₀ hm hheld).symm.trans hgate))
  refine ⟨fun m c₀ st₀ hm hheld => absurd hheld (hother m c₀ st₀ hm),
    fun m c₀ st₀ hm hheld => absurd hheld (hother m c₀ st₀ hm), fun _ => ?_,
    fun m hm => absurd (show none = some m from hm) (by simp), ?_,
    ht.unused_put hc hcalls hserves.nextCall⟩
  · have hfree : Owned (s'.release (c.op n)) none none false :=
      (hserves.owned.handOver (e := .released (c.op n)) (.released _)).keep rfl
    exact hfree.put n _
  · obtain ⟨es, hlog, hes⟩ := hserves.log
    refine ht.spent_put hc hcalls ⟨es ++ [.released (c.op n)], ?_, fun e he op hop => ?_⟩
      fun i hi => ?_
    · show s'.log ++ _ = _
      rw [hlog, List.append_assoc]
    · have hown : op = c.op n := by
        rcases List.mem_append.mp he with he | he
        · exact hes e he op hop
        · rw [List.mem_singleton.mp he] at hop
          exact (Option.some_inj.mp hop).symm
      rw [hown]
      exact ⟨rfl, hpast⟩
    · rcases hi with hi | ⟨rfl, -⟩
      · exact Or.inl hi
      · exact hpast

theorem recovery_stopping (c : SessionCall) : ∀ k, c.recovery.stopping ≠ some (.join k) := by
  intro k
  unfold SessionCall.recovery
  split
  · simp [Held.stopping]
  · simp [Held.stopping]

theorem recovery_closes (c : SessionCall) : c.recovery.closes = true := by
  unfold SessionCall.recovery
  split
  · rfl
  · rfl

theorem recovery_layer (h : c.recovery.ofSession = true) : c.layer = .session := by
  unfold SessionCall.recovery at h
  split at h
  next hl => exact hl
  next => exact absurd h (by decide)

/-- `run` returned an error, from wherever the operation was. -/
theorem Tidy.fail (ht : Tidy s) (hc : s.calls n = some c) (hst : c.stage = .held st)
    (hserves : Serves (c.op n) s s' a b) (ha : a ≠ none → c.layer = .session) (error : String) :
    Tidy (s'.progress n c (.done (.error error))) := by
  have hran : Serves (c.op n) s (s'.record (.ran (c.op n) false)) a b :=
    hserves.trans (hserves.owned.work rfl)
  refine ht.serve hc hst rfl (hran.weaken (fun hne => ?_) (recovery_stopping c)
    fun _ => recovery_closes c) rfl rfl recovery_layer
  rw [SessionCall.recovery, ha hne]
  simp

/-- `run` returned, or goes on. -/
theorem Tidy.progress (ht : Tidy s) (hc : s.calls n = some c) (hst : c.stage = .held st)
    {p : Progress} (hserves : Serves (c.op n) s s' p.stopping p.closes)
    (hlayer : p.stopping ≠ none → c.layer = .session) : Tidy (s'.progress n c p) := by
  cases p with
  | «at» stage =>
    refine ht.serve hc hst rfl hserves rfl rfl fun hof => hlayer ?_
    intro hnone
    change (Held.running stage).stopping = none at hnone
    rw [Held.ofSession, hnone] at hof
    exact absurd hof (by simp)
  | done result =>
    cases result with
    | ok =>
      have hran : Serves (c.op n) s (s'.record (.ran (c.op n) true)) none false :=
        hserves.trans (hserves.owned.work rfl)
      exact ht.serve hc hst rfl hran rfl rfl (by simp)
    | error => exact ht.fail hc hst hserves hlayer _

theorem Tidy.held_step (ht : Tidy s) (hc : s.calls n = some c) (hst : c.stage = .held st)
    (outcome : PortResult String) (isOpen : Bool) : Tidy (s.held o n c outcome isOpen st) := by
  obtain ⟨c₀, st₀, hc₀, hst₀, hs⟩ := ht.owned n (ht.held n c st hc hst)
  rw [hc, Option.some_inj] at hc₀
  subst hc₀
  rw [hst, CallStage.held.injEq] at hst₀
  subst hst₀
  have hl := ht.layer n c st hc hst
  have hstay : Serves (c.op n) s s st.stopping st.closes := .refl hs
  unfold SessionCalls.held
  cases st with
  | acquired =>
    dsimp only
    split
    · split
      · split
        · exact ht.serve hc hst rfl hstay rfl rfl (by simp)
        · exact ht.serve hc hst rfl hstay rfl rfl (by simp)
      · exact ht.serve hc hst rfl hstay rfl rfl (by simp)
    · exact ht.serve hc hst rfl
        (hstay.weaken (by simp) (recovery_stopping c) fun _ => recovery_closes c)
        rfl rfl recovery_layer
    next hop =>
      refine ht.serve hc hst rfl (hstay.weaken (by simp) (by simp) (by simp)) rfl rfl fun _ => ?_
      rw [SessionCall.layer, hop]
      rfl
    next hop =>
      refine ht.serve hc hst rfl (hstay.weaken (by simp) (by simp) (by simp)) rfl rfl fun _ => ?_
      rw [SessionCall.layer, hop]
      rfl
  | run =>
    dsimp only
    split
    · exact ht.progress hc hst (p := .done _) hstay (by simp [Progress.stopping])
    -- The flag belongs to no operation, so that clearing it touches nobody.
    · have hclear : Owned { s with intentionalDisconnect := false } (some (c.op n)) none false :=
        hs.keep rfl
      have hrun := hclear.work (e := .runStarted (c.op n)) rfl
      exact ht.serve hc hst rfl ⟨hrun.owned, rfl, rfl, rfl, hrun.log⟩ rfl rfl (by simp)
  | running stage =>
    -- Only a call of the session layer stops the sender, and it stays in its layer.
    refine ht.progress hc hst (running_serves hs outcome isOpen) fun hne => ?_
    by_contra hlayer
    refine hne (running_stopping (Option.not_isSome_iff_eq_none.mp fun hsome => hlayer (hl ?_)))
    rw [Held.ofSession, hsome]
    rfl
  | failAudio a =>
    have hstop := stopAudioSender_serves a hs
    dsimp only
    generalize s.stopAudioSender (c.op n) a = out at hstop ⊢
    rcases out with ⟨s', next | _⟩
    · exact ht.serve hc hst rfl hstop rfl rfl fun _ => hl rfl
    · exact ht.serve hc hst rfl hstop rfl rfl (by simp)
  | failStop => exact ht.serve hc hst rfl hs.startNewSession rfl rfl (by simp)
  | failRollback => exact ht.serve hc hst rfl (hs.setConnected false) rfl rfl (by simp)
  | failClose r =>
    have hclose := close_serves hs r
    dsimp only
    generalize s.close (c.op n) r = out at hclose ⊢
    rcases out with ⟨s', _ | r⟩
    · exact ht.serve hc hst rfl hclose rfl rfl (by simp)
    · exact ht.serve hc hst rfl hclose rfl rfl (by simp)
  | playStop a =>
    have hstop := stopAudioSender_serves a hs
    dsimp only
    generalize s.stopAudioSender (c.op n) a = out at hstop ⊢
    rcases out with ⟨s', next | error | _⟩
    · exact ht.serve hc hst rfl hstop rfl rfl fun _ => hl rfl
    · exact ht.serve hc hst rfl hstop rfl rfl (by simp)
    · dsimp only
      split
      · exact ht.serve hc hst rfl hstop rfl rfl fun _ => hl rfl
      · exact ht.serve hc hst rfl hstop rfl rfl (by simp)
  | playTrack =>
    dsimp only
    split
    · exact ht.serve hc hst rfl hstay rfl rfl fun _ => hl rfl
    · exact ht.serve hc hst rfl hstay rfl rfl (by simp)
  | playNew =>
    dsimp only
    split
    · exact ht.serve hc hst rfl hstay rfl rfl fun _ => hl rfl
    · exact ht.serve hc hst rfl hstay rfl rfl (by simp)
  | playStart =>
    have hsender : Serves (c.op n) s { s with sender := true } none false :=
      ⟨hs.keep rfl, rfl, rfl, rfl, [], by simp, by simp⟩
    dsimp only
    split
    · exact ht.serve hc hst rfl hsender rfl rfl (by simp)
    · exact ht.serve hc hst rfl (hsender.weaken (by simp) (by simp) (by simp)) rfl rfl
        fun _ => hl rfl
  | playFail a =>
    have hstop := stopAudioSender_serves a hs
    dsimp only
    generalize s.stopAudioSender (c.op n) a = out at hstop ⊢
    rcases out with ⟨s', next | _⟩
    · exact ht.serve hc hst rfl hstop rfl rfl fun _ => hl rfl
    · exact ht.serve hc hst rfl hstop rfl rfl (by simp)
  | audioStop a =>
    have hstop := stopAudioSender_serves a hs
    dsimp only
    generalize s.stopAudioSender (c.op n) a = out at hstop ⊢
    rcases out with ⟨s', next | _⟩
    · exact ht.serve hc hst rfl hstop rfl rfl fun _ => hl rfl
    · exact ht.serve hc hst rfl hstop rfl rfl (by simp)
  | finish => exact ht.release hc hst hstay (by simp) (Or.inr ⟨rfl, rfl⟩)
  | giveUp => exact ht.release hc hst hstay (by simp) (Or.inr ⟨rfl, rfl⟩)
  | dropAudio a =>
    have hstop := stopAudioSender_serves a hs
    dsimp only
    generalize s.stopAudioSender (c.op n) a = out at hstop ⊢
    rcases out with ⟨s', next | _⟩
    · exact ht.serve hc hst rfl hstop rfl rfl fun _ => hl rfl
    · exact ht.serve hc hst rfl (hstop.trans (hstop.owned.setConnected false)) rfl rfl (by simp)
  | dropClose r =>
    have hclose := close_serves hs r
    dsimp only
    generalize s.close (c.op n) r = out at hclose ⊢
    rcases out with ⟨s', _ | r⟩
    · exact ht.release hc hst hclose (by simp) (Or.inr ⟨rfl, rfl⟩)
    · exact ht.serve hc hst rfl hclose rfl rfl (by simp)
  | dropOperation a =>
    have hstop := stopAudioSender_serves a hs
    dsimp only
    generalize s.stopAudioSender (c.op n) a = out at hstop ⊢
    rcases out with ⟨s', next | _⟩
    · exact ht.serve hc hst rfl hstop rfl rfl fun _ => hl rfl
    · exact ht.release hc hst hstop (by simp) (Or.inr ⟨rfl, rfl⟩)

theorem Tidy.return (ht : Tidy s) (hc : s.calls n = some c) (hst : ∀ st, c.stage ≠ .held st)
    (answer : Answer) : Tidy (s.return' n c answer) :=
  ht.idle hc (.record s rfl) hst (by simp [SessionCall.goto]) fun _ hi => hi.keep rfl fun _ => rfl

/-- A call that does not have the gate only changes its place. -/
theorem Tidy.goto (ht : Tidy s) (hc : s.calls n = some c) (hst : ∀ st, c.stage ≠ .held st)
    {stage : CallStage} (hst' : ∀ st, stage ≠ .held st)
    (hpast : c.stage.past = true → stage.past = true) : Tidy (s.put n (c.goto stage)) :=
  ht.idle hc (.refl s) hst hst' fun _ hi => hi.keep rfl hpast

theorem Tidy.afterwards (ht : Tidy s) (hc : s.calls n = some c) {again : Bool}
    (hst : c.stage = .released again) : Tidy (s.afterwards n c again) := by
  have hne : ∀ st, c.stage ≠ .held st := by simp [hst]
  unfold SessionCalls.afterwards
  split
  · split
    · exact ht.return hc hne _
    · split
      · exact ht.idle hc (.refl s) hne (by simp) fun _ hi => hi.next rfl
      · exact ht.goto hc hne (by simp) fun _ => rfl
  · exact ht.return hc hne _
  · exact ht.return hc hne _

theorem Tidy.resume (ht : Tidy s) (hc : s.calls n = some c) (outcome : PortResult String)
    (isOpen : Bool) : Tidy (s.resume o n c outcome isOpen) := by
  unfold SessionCalls.resume
  cases hst : c.stage with
  | begun =>
    have hne : ∀ st, c.stage ≠ .held st := by simp [hst]
    dsimp only
    split
    · have hask : Idle s ({ s with
          intentionalDisconnect := true
          cancellation := s.cancellation + 1 }.record (.requested n)) := by
        have hrecord := Idle.record { s with
          intentionalDisconnect := true
          cancellation := s.cancellation + 1 } (e := .requested n) rfl
        exact ⟨rfl, rfl, rfl, fun h a b hs => hrecord.owned h a b (hs.keep rfl), hrecord.log⟩
      exact ht.idle hc hask hne (by simp [SessionCall.goto])
        fun _ hi => hi.keep rfl (by simp [hst, CallStage.past])
    · split
      · exact ht.return hc hne _
      · exact ht.goto hc hne (by simp) (by simp [hst, CallStage.past])
    · exact ht.goto hc hne (by simp) (by simp [hst, CallStage.past])
  | retryLoop =>
    have hne : ∀ st, c.stage ≠ .held st := by simp [hst]
    dsimp only
    split
    · split
      · exact ht.goto hc hne (by simp) (by simp [hst, CallStage.past])
      · exact ht.return hc hne _
    · exact ht
  | subscribe =>
    have hne : ∀ st, c.stage ≠ .held st := by simp [hst]
    refine ht.idle hc ?_ hne (by simp) fun _ hi => hi.keep rfl (by simp [hst, CallStage.past])
    split
    · exact .record s rfl
    · exact .refl s
  | held st => exact ht.held_step hc hst outcome isOpen
  | released again => exact ht.afterwards hc hst
  | sleeping =>
    have hne : ∀ st, c.stage ≠ .held st := by simp [hst]
    exact ht.idle hc (.refl s) hne (by simp) fun _ hi => hi.next rfl
  | queued | returned | gone => exact ht

theorem Tidy.dropFuture (ht : Tidy s) (hc : s.calls n = some c) : Tidy (s.dropFuture n c) := by
  unfold SessionCalls.dropFuture
  cases hst : c.stage with
  | queued | sleeping => exact ht.goto hc (by simp [hst]) (by simp) fun _ => rfl
  | held st =>
    obtain ⟨c₀, st₀, hc₀, hst₀, hs⟩ := ht.owned n (ht.held n c st hc hst)
    rw [hc, Option.some_inj] at hc₀
    subst hc₀
    rw [hst, CallStage.held.injEq] at hst₀
    subst hst₀
    have hl := ht.layer n c st hc hst
    dsimp only
    split
    · split
      next hplays =>
        have hcloses : st.closes = false := by
          cases st <;> first | rfl | exact absurd hplays (by simp)
        refine ht.serve hc hst rfl ((Serves.refl hs).weaken (by simp) (by simp)
          fun hb => absurd (hcloses.symm.trans hb) (by simp)) rfl rfl fun _ => hl ?_
        rw [Held.ofSession, hplays, Bool.or_true]
      next =>
        split
        next hlayer =>
          exact ht.serve hc hst rfl (hs.startNewSession.weaken (by simp) (by simp) (by simp))
            rfl rfl fun _ => hlayer
        next hlayer =>
          -- the audio is not the business of these
          have hstop : st.stopping = none := by
            by_contra hne
            have hsession := hl (by
              rw [Held.ofSession, Option.isSome_iff_ne_none.mpr hne]
              rfl)
            exact absurd (hlayer.symm.trans hsession) (by simp)
          refine ht.serve hc hst rfl ((hs.setConnected false).weaken ?_ (by simp) (by simp))
            rfl rfl (by simp)
          rw [hstop]
          exact fun h => absurd rfl h
    · exact ht
  | _ => exact ht

theorem Tidy.acquire (ht : Tidy s) (hc : s.calls n = some c) (hgate : s.gate = none)
    (hst : c.stage = .queued) :
    Tidy (({ s with gate := some n }.record (.acquired (c.op n))).put n (c.at' .acquired)) := by
  have hs := ht.free hgate
  have hnone : ∀ m c₀ st, s.calls m = some c₀ → c₀.stage ≠ .held st := fun m c₀ st hm hheld =>
    absurd (hgate.symm.trans (ht.held m c₀ st hm hheld)) (by simp)
  -- the operation was not here before
  have hfresh : ∀ e ∈ s.log, (role e).owner ≠ some (c.op n) := by
    intro e he hop
    obtain ⟨c₀, hc₀, hspent⟩ := ht.spent e he _ hop
    rw [show (c.op n).call = n from rfl, hc, Option.some_inj] at hc₀
    subst hc₀
    rcases hspent with hlt | ⟨-, hpast⟩
    · exact absurd hlt (lt_irrefl _)
    · rw [hst] at hpast
      exact absurd hpast (by decide)
  have howned : Owned
      (({ s with gate := some n }.record (.acquired (c.op n))).put n (c.at' .acquired))
      (some (c.op n)) none false := by
    have hheld : Owned ({ s with gate := some n }.record (.acquired (c.op n))) (some (c.op n))
        none false :=
      (hs.handOver (e := .acquired (c.op n)) (.acquired _ hfresh)).keep rfl
    exact hheld.put n _
  have hcall : ∀ m c₀ st, (({ s with gate := some n }.record (.acquired (c.op n))).put n
      (c.at' .acquired)).calls m = some c₀ → c₀.stage = .held st →
      m = n ∧ c₀ = c.at' .acquired := by
    intro m c₀ st hm hheld
    by_cases hn : m = n
    · rw [hn, put_self, Option.some_inj] at hm
      exact ⟨hn, hm.symm⟩
    · rw [put_ne hn] at hm
      exact absurd hheld (hnone m c₀ st hm)
  refine ⟨fun m c₀ st hm hheld => ?_, fun m c₀ st hm hheld hof => ?_,
    fun hfree => absurd (show some n = none from hfree) (by simp), fun m hm => ?_, ?_,
    ht.unused_put hc rfl rfl⟩
  · rw [(hcall m c₀ st hm hheld).1]
    rfl
  · rw [(hcall m c₀ st hm hheld).2, SessionCall.at', CallStage.held.injEq] at hheld
    subst hheld
    exact absurd hof (by simp)
  · rw [← Option.some_inj.mp (show some n = some m from hm)]
    exact ⟨_, .acquired, put_self, rfl, howned⟩
  · refine ht.spent_put hc rfl ⟨[.acquired (c.op n)], rfl, fun e he op hop => ?_⟩
      fun _ hi => hi.keep rfl fun _ => rfl
    rw [List.mem_singleton.mp he] at hop
    rw [← Option.some_inj.mp (show some (c.op n) = some op from hop)]
    exact ⟨rfl, Or.inr ⟨rfl, rfl⟩⟩

/-! ### The tasks in the background -/

/-- A task of `op` runs, so that it has the gate. -/
theorem Tidy.spent_of_owned (ht : Tidy s) (hop : ∀ h a b, Owned s h a b → h = some op) :
    ∃ c, s.calls op.call = some c ∧ c.Spent op.index := by
  cases hgate : s.gate with
  | none => exact absurd (hop _ _ _ (ht.free hgate)) (by simp)
  | some n =>
    obtain ⟨c, st, hc, hst, hs⟩ := ht.owned n hgate
    rw [← Option.some_inj.mp (hop _ _ _ hs)]
    exact ⟨c, hc, Or.inr ⟨rfl, by rw [hst]; rfl⟩⟩

/-- A task finishes. -/
theorem Tidy.finished (ht : Tidy s) {e : CallEvent} (hcalls : s'.calls = s.calls)
    (hgate : s'.gate = s.gate) (hnext : s'.nextCall = s.nextCall) (hlog : s'.log = s.log ++ [e])
    (he : (role e).owner = some op) (hop : ∀ h a b, Owned s h a b → h = some op)
    (howned : ∀ a b, Owned s (some op) a b → Owned s' (some op) a b) : Tidy s' where
  held n c st hc hst := by
    rw [hcalls] at hc
    exact hgate.trans (ht.held n c st hc hst)
  layer n c st hc := by
    rw [hcalls] at hc
    exact ht.layer n c st hc
  free hfree := absurd (hop _ _ _ (ht.free (hgate.symm.trans hfree))) (by simp)
  owned n hn := by
    obtain ⟨c, st, hc, hst, hs⟩ := ht.owned n (hgate.symm.trans hn)
    have hown := hop _ _ _ hs
    refine ⟨c, st, hcalls ▸ hc, hst, ?_⟩
    rw [hown] at hs ⊢
    exact howned _ _ hs
  spent x hx op' hop' := by
    rw [hcalls]
    rw [hlog] at hx
    rcases List.mem_append.mp hx with hx | hx
    · exact ht.spent x hx op' hop'
    · rw [List.mem_singleton.mp hx, he, Option.some_inj] at hop'
      exact hop' ▸ ht.spent_of_owned hop
  unused n hn := by
    rw [hcalls]
    exact ht.unused n (hnext ▸ hn)

theorem Tidy.closeDone (ht : Tidy s) (htask : s.closeTask = some { op, done := false }) :
    Tidy ({ s with closeTask := some { op, done := true } }.record (.closeFinished op)) := by
  refine ht.finished rfl rfl rfl rfl rfl (fun h a b hs => (hs.closing _ htask).1) fun a b hs => ?_
  have hpending : ({ s with closeTask := some { op, done := true } }.record
      (.closeFinished op)).pending = s.pending \ {.close} := by
    ext t
    cases t with
    | close =>
      refine ⟨fun ⟨_, h⟩ => absurd h (by simp [record]), fun h => absurd rfl h.2⟩
    | shutdown k => exact ⟨fun h => ⟨h, by simp⟩, fun h => h.1⟩
  refine ⟨fun t ht => ?_, hs.cleaning, hs.joining, hs.running, hs.fresh, ?_⟩
  · obtain rfl := Option.some_inj.mp ht
    exact ⟨rfl, (hs.closing _ htask).2⟩
  · rw [hpending]
    exact .snoc hs.orderly (Step.finished op Background.close _)

theorem Tidy.shutdownDone (ht : Tidy s) {k : ℕ}
    (htask : s.shutdowns k = some { op, result := none })
    (result : PortResult Unit) :
    Tidy ((s.setShutdown k { op, result := some result }).record (.shutdownFinished op k)) := by
  have hcleanup : ∀ h a b, Owned s h a b → h = some op := fun h a b hs => by
    obtain ⟨-, t, ht, hop⟩ := hs.cleaning k (hs.running k op htask)
    rw [htask, Option.some_inj] at ht
    rw [hop, ← ht]
  refine ht.finished rfl rfl rfl rfl rfl hcleanup fun a b hs => ?_
  have hself : (s.setShutdown k { op, result := some result }).shutdowns k =
      some { op, result := some result } := Function.update_self ..
  have hother : ∀ k', k' ≠ k → (s.setShutdown k { op, result := some result }).shutdowns k' =
      s.shutdowns k' := fun k' hk => Function.update_of_ne hk ..
  have hpending : ((s.setShutdown k { op, result := some result }).record
      (.shutdownFinished op k)).pending = s.pending \ {.shutdown k} := by
    ext t
    cases t with
    | close => exact ⟨fun h => ⟨h, by simp⟩, fun h => h.1⟩
    | shutdown k' =>
      by_cases hk : k' = k
      · subst hk
        refine ⟨fun ⟨_, h⟩ => ?_, fun h => absurd rfl h.2⟩
        exact absurd (hself.symm.trans h) (by simp)
      · refine ⟨fun ⟨op', h⟩ => ⟨⟨op', (hother k' hk).symm.trans h⟩, by simpa using hk⟩,
          fun ⟨⟨op', h⟩, _⟩ => ⟨op', (hother k' hk).trans h⟩⟩
  refine ⟨hs.closing, fun k' hk' => ⟨(hs.cleaning k' hk').1, ?_⟩, hs.joining, fun k' op' hk' => ?_,
    fun k' hk' => ?_, ?_⟩
  · by_cases hk : k' = k
    · subst hk
      exact ⟨_, hself, rfl⟩
    · obtain ⟨-, t, ht, hop⟩ := hs.cleaning k' hk'
      exact ⟨t, (hother k' hk).trans ht, hop⟩
  · by_cases hk : k' = k
    · subst hk
      exact absurd (hself.symm.trans hk') (by simp)
    · exact hs.running k' op' ((hother k' hk).symm.trans hk')
  · have hk : k' ≠ k := by
      rintro rfl
      exact absurd (htask.symm.trans (hs.fresh k' hk')) (by simp)
    exact (hother k' hk).trans (hs.fresh k' hk')
  · rw [hpending]
    exact .snoc hs.orderly (Step.finished op (Background.shutdown k) _)

theorem Tidy.call (ht : Tidy s) (method : Method) :
    Tidy { s.put s.nextCall (.begun method) with nextCall := s.nextCall + 1 } := by
  have hnone := ht.unused s.nextCall (le_refl _)
  have hother : ∀ m c₀, s.calls m = some c₀ → m ≠ s.nextCall := by
    rintro m c₀ hm rfl
    exact absurd (hnone.symm.trans hm) (by simp)
  have hcall : ∀ m c₀ st, (s.put s.nextCall (.begun method)).calls m = some c₀ →
      c₀.stage = .held st → s.calls m = some c₀ := by
    intro m c₀ st hm hheld
    by_cases hn : m = s.nextCall
    · rw [hn, put_self, Option.some_inj] at hm
      rw [← hm] at hheld
      exact absurd hheld (by simp [SessionCall.begun])
    · rwa [put_ne hn] at hm
  refine ⟨fun m c₀ st hm hheld => ht.held m c₀ st (hcall m c₀ st hm hheld) hheld,
    fun m c₀ st hm hheld => ht.layer m c₀ st (hcall m c₀ st hm hheld) hheld,
    fun hfree => (ht.free hfree).keep rfl, fun m hm => ?_, fun e he op hop => ?_, fun m hm => ?_⟩
  · obtain ⟨c₀, st, hc₀, hst, hs⟩ := ht.owned m hm
    exact ⟨c₀, st, (put_ne (hother m c₀ hc₀)).trans hc₀, hst, hs.keep rfl⟩
  · obtain ⟨c₀, hc₀, hspent⟩ := ht.spent e he op hop
    exact ⟨c₀, (put_ne (hother _ c₀ hc₀)).trans hc₀, hspent⟩
  · change s.nextCall + 1 ≤ m at hm
    refine (put_ne ?_).trans (ht.unused m ?_)
    · omega
    · omega

theorem Tidy.withCall (ht : Tidy s) {f : SessionCall → SessionCalls}
    (hf : ∀ c, s.calls n = some c → Tidy (f c)) : Tidy (s.withCall n f) := by
  unfold SessionCalls.withCall
  split
  · exact ht
  next c hc => exact hf c hc

theorem Tidy.withRunning (ht : Tidy s) {f : SessionCall → Running → SessionCalls}
    (hf : ∀ c stage, s.calls n = some c → c.stage = .held (.running stage) → Tidy (f c stage)) :
    Tidy (s.withRunning n f) := by
  refine ht.withCall fun c hc => ?_
  split
  next stage hst => exact hf c stage hc hst
  next => exact ht

/-- The operation that `run` polls has its tasks. -/
theorem Tidy.running_owned (ht : Tidy s) (hc : s.calls n = some c) (hst : c.stage = .held st) :
    Owned s (some (c.op n)) st.stopping st.closes ∧ (st.stopping ≠ none → c.layer = .session) := by
  obtain ⟨c₀, st₀, hc₀, hst₀, hs⟩ := ht.owned n (ht.held n c st hc hst)
  rw [hc, Option.some_inj] at hc₀
  subst hc₀
  rw [hst, CallStage.held.injEq] at hst₀
  subst hst₀
  refine ⟨hs, fun hne => ht.layer n c st hc hst ?_⟩
  rw [Held.ofSession, Option.isSome_iff_ne_none.mpr hne]
  rfl

theorem step_tidy (ht : Tidy s) (action : Action) : Tidy (s.step o action) := by
  cases action with
  | call method => exact ht.call method
  | resume n outcome isOpen => exact ht.withCall fun c hc => ht.resume hc outcome isOpen
  | acquire n =>
    refine ht.withCall fun c hc => ?_
    split
    next hfree => exact ht.acquire hc hfree.1 hfree.2
    next => exact ht
  | firstPoll n =>
    refine ht.withRunning fun c stage hc hst => ?_
    obtain ⟨hs, -⟩ := ht.running_owned hc hst
    split
    next hunpolled =>
      subst hunpolled
      exact ht.progress hc hst (firstPoll_serves hs) firstPoll_stopping
    next => exact ht
  | cancel n =>
    refine ht.withRunning fun c stage hc hst => ?_
    obtain ⟨hs, hlayer⟩ := ht.running_owned hc hst
    split
    · exact ht.fail hc hst (.refl hs) hlayer _
    · exact ht
  | elapse n diagnostic =>
    refine ht.withRunning fun c stage hc hst => ?_
    obtain ⟨hs, hlayer⟩ := ht.running_owned hc hst
    unfold elapsed
    split
    · exact ht.fail hc hst (.refl hs) hlayer _
    · split
      · exact ht.fail hc hst (.refl hs) hlayer _
      · exact ht.progress hc hst (p := .at stage) (.refl hs) hlayer
  | dropFuture n => exact ht.withCall fun c hc => ht.dropFuture hc
  | shutdownDone k result =>
    unfold step
    dsimp only
    split
    next hk => exact ht.shutdownDone hk result
    next => exact ht
  | closeDone =>
    unfold step
    dsimp only
    split
    next hclose => exact ht.closeDone hclose
    next => exact ht
  | newSession =>
    exact ⟨ht.held, ht.layer, fun hfree => (ht.free hfree).keep rfl, fun n hn => by
      obtain ⟨c, st, hc, hst, hs⟩ := ht.owned n hn
      exact ⟨c, st, hc, hst, hs.keep rfl⟩, ht.spent, ht.unused⟩

theorem new_tidy (sessionId : ℕ) : Tidy (new sessionId) := by
  have hempty : (new sessionId).pending = ∅ := by
    ext t
    refine ⟨fun ht => ?_, fun ht => absurd ht (Set.notMem_empty t)⟩
    cases t with
    | close =>
      obtain ⟨_, ht⟩ := ht
      exact absurd ht (by simp [new])
    | shutdown k =>
      obtain ⟨_, ht⟩ := ht
      exact absurd ht (by simp [new])
  refine ⟨by simp [new], by simp [new], fun _ => ?_, by simp [new], by simp [new], by simp [new]⟩
  refine ⟨by simp [new], by simp [new], by simp, by simp [new], by simp [new], ?_⟩
  rw [hempty]
  exact .nil

theorem run_tidy (o : SessionOptions) (sessionId : ℕ) (as : List Action) :
    Tidy (Runs.run (step o) (new sessionId) as) :=
  Runs.run_invariant (I := Tidy) (fun _ a h => step_tidy h a) as (new_tidy sessionId)

theorem Tidy.orderly (ht : Tidy s) : ∃ h, Orderly role s.log h s.pending := by
  cases hgate : s.gate with
  | none => exact ⟨none, (ht.free hgate).orderly⟩
  | some n =>
    obtain ⟨c, st, -, -, hs⟩ := ht.owned n hgate
    exact ⟨some (c.op n), hs.orderly⟩

/-! ### Two operations -/

theorem role_released {e : CallEvent} (h : role e = .released op) : e = .released op := by
  cases e <;> simp_all [role]

theorem role_finished_close {e : CallEvent} (h : role e = .finished op .close) :
    e = .closeFinished op := by
  cases e <;> simp_all [role]

theorem role_finished_shutdown {e : CallEvent} {k : ℕ} (h : role e = .finished op (.shutdown k)) :
    e = .shutdownFinished op k := by
  cases e <;> simp_all [role]

/-- Whose event it is. -/
def CallEvent.owner (e : CallEvent) : Option Op := (role e).owner

theorem operations_never_overlap (o : SessionOptions) (sessionId : ℕ) (as : List Action) :
    -- an operation that is in the gate, with its error path or what its drop spawned, has it
    (∀ n c st, (Runs.run (step o) (new sessionId) as).calls n = some c → c.stage = .held st →
      (Runs.run (step o) (new sessionId) as).gate = some n) ∧
    -- and the close and the shutdown that run are its own
    (∀ t, (Runs.run (step o) (new sessionId) as).closeTask = some t →
      ∃ n c, (Runs.run (step o) (new sessionId) as).gate = some n ∧
        (Runs.run (step o) (new sessionId) as).calls n = some c ∧ t.op = c.op n) ∧
    (∀ k t, (Runs.run (step o) (new sessionId) as).shutdowns k = some t → t.result = none →
      ∃ n c, (Runs.run (step o) (new sessionId) as).gate = some n ∧
        (Runs.run (step o) (new sessionId) as).calls n = some c ∧ t.op = c.op n) ∧
    -- no other one passes before it released
    (∀ a b l₁ l₂ l₃, (Runs.run (step o) (new sessionId) as).log =
        l₁ ++ .acquired a :: (l₂ ++ .acquired b :: l₃) → .released a ∈ l₂) ∧
    -- which is after all it does
    (∀ a l₁ l₂, (Runs.run (step o) (new sessionId) as).log = l₁ ++ .released a :: l₂ →
      ∀ e ∈ l₂, e.owner ≠ some a) ∧
    -- no close of an earlier one runs once a later one prepares its offer
    (∀ a b l₁ l₂, (Runs.run (step o) (new sessionId) as).log = l₁ ++ .prepareOffer b :: l₂ →
      a ≠ b → .acquired a ∈ l₁ →
      (.closeStarted a ∉ l₂ ∧ .closeFinished a ∉ l₂) ∧
        ∀ k₁ k₂, l₁ = k₁ ++ .closeStarted a :: k₂ → .closeFinished a ∈ k₂) ∧
    -- nor a shutdown once it starts its session
    ∀ a b l₁ l₂, (Runs.run (step o) (new sessionId) as).log = l₁ ++ .startNewSession b :: l₂ →
      a ≠ b → .acquired a ∈ l₁ →
      ∀ k, (.shutdownStarted a k ∉ l₂ ∧ .shutdownFinished a k ∉ l₂) ∧
        ∀ k₁ k₂, l₁ = k₁ ++ .shutdownStarted a k :: k₂ → .shutdownFinished a k ∈ k₂ := by
  have ht := run_tidy o sessionId as
  generalize Runs.run (step o) (new sessionId) as = s at ht ⊢
  obtain ⟨h, horderly⟩ := ht.orderly
  refine ⟨ht.held, fun t htask => ?_, fun k t hk hrun => ?_, fun a b l₁ l₂ l₃ hl => ?_,
    fun a l₁ l₂ hl => ?_, fun a b l₁ l₂ hl hab ha => ?_, fun a b l₁ l₂ hl hab ha k => ?_⟩
  · cases hgate : s.gate with
    | none => exact absurd ((ht.free hgate).closing t htask).1 (by simp)
    | some n =>
      obtain ⟨c, st, hc, -, hs⟩ := ht.owned n hgate
      exact ⟨n, c, rfl, hc, (Option.some_inj.mp (hs.closing t htask).1).symm⟩
  · obtain ⟨op, result⟩ := t
    obtain rfl : result = none := hrun
    cases hgate : s.gate with
    | none =>
      have hs := ht.free hgate
      exact absurd rfl (hs.cleaning k (hs.running k op hk)).1
    | some n =>
      obtain ⟨c, st, hc, -, hs⟩ := ht.owned n hgate
      obtain ⟨-, t, ht', hop⟩ := hs.cleaning k (hs.running k op hk)
      rw [hk, Option.some_inj] at ht'
      exact ⟨n, c, rfl, hc, by rw [ht', Option.some_inj.mp hop]⟩
  · rw [hl] at horderly
    obtain ⟨z, hz, hrel⟩ := horderly.released_between rfl rfl
    exact role_released hrel ▸ hz
  · rw [hl] at horderly
    exact (horderly.released_for_good rfl).2
  · rw [hl] at horderly
    obtain ⟨hlater, hearlier⟩ := horderly.earlier (a := a) rfl hab ha rfl
    refine ⟨⟨fun hmem => hlater _ hmem rfl, fun hmem => hlater _ hmem rfl⟩, fun k₁ k₂ hk => ?_⟩
    obtain ⟨y, hy, hfin⟩ := hearlier k₁ _ k₂ _ hk rfl
    exact role_finished_close hfin ▸ hy
  · rw [hl] at horderly
    obtain ⟨hlater, hearlier⟩ := horderly.earlier (a := a) rfl hab ha rfl
    refine ⟨⟨fun hmem => hlater _ hmem rfl, fun hmem => hlater _ hmem rfl⟩, fun k₁ k₂ hk => ?_⟩
    obtain ⟨y, hy, hfin⟩ := hearlier k₁ _ k₂ _ hk rfl
    exact role_finished_shutdown hfin ▸ hy

def station : SessionOptions where
  connectionMethod := .localSTA
  ip := some "10.0.0.1"
  validationTimeout := .finite 5
  fits _ := true

/-- A connect, a playback, and a reconnect that is dropped while it stops the audio. -/
def interrupted : List Action := List.flatten [
  [.call (.connect .session), .resume 0 (.ok "") true, .resume 0 (.ok "") true, .acquire 0,
    .resume 0 (.ok "") true, .resume 0 (.ok "") true, .firstPoll 0, .resume 0 (.ok "") true,
    .resume 0 (.ok "") true, .closeDone],
  List.replicate 7 (.resume 0 (.ok "") true),
  [.call .playAudio, .resume 1 (.ok "") true, .resume 1 (.ok "") true, .acquire 1],
  List.replicate 7 (.resume 1 (.ok "") true),
  [.call (.reconnect .session), .resume 2 (.ok "") true, .resume 2 (.ok "") true, .acquire 2,
    .resume 2 (.ok "") true, .resume 2 (.ok "") true, .firstPoll 2, .resume 2 (.ok "") true,
    .dropFuture 2]]

/-- What its drop spawned, and a disconnect after that. -/
def cleaned : List Action := List.flatten [
  [.call (.disconnect .session), .resume 3 (.ok "") true, .resume 3 (.ok "") true, .acquire 3,
    .resume 2 (.ok "") true, .shutdownDone 0 (.ok ()), .resume 2 (.ok "") true,
    .resume 2 (.ok "") true, .closeDone, .resume 2 (.ok "") true, .acquire 3]]

/-- The reconnect keeps the gate until it is closed. -/
theorem operations_never_overlap_interrupted :
    (Runs.run (step station) (new 3) interrupted).gate = some 2 ∧
      .released ⟨2, 0, .connect .session .reconnect⟩ ∈
        ((Runs.run (step station) (new 3) (interrupted ++ cleaned)).log.drop 18).take 11 := by
  constructor
  · exact (operations_never_overlap station 3 interrupted).1 2
      { method := .reconnect .session, index := 0, seen := 0, result := .ok ()
        stage := .held (.dropAudio .lock) } (.dropAudio .lock) (by decide +kernel) rfl
  · exact (operations_never_overlap station 3 (interrupted ++ cleaned)).2.2.2.1
      ⟨2, 0, .connect .session .reconnect⟩ ⟨3, 0, .disconnect .session⟩
      ((Runs.run (step station) (new 3) (interrupted ++ cleaned)).log.take 17) _ []
      (by decide +kernel)

end SessionCalls

end Unitree
