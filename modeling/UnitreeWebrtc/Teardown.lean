/-
Closing an engine leaves nothing behind.

`CloseTask::run` drops its own cleanup when it finds a handle, and the handle can be
an old one: of a cleanup whose caller was cancelled, running or long finished.  That
this is no harm rests on an invariant.  A handle is only left behind by a call that
was cancelled while it waited, and nothing is put into the slots before the next
`prepare_offer` has waited for that handle.  So a stored handle stands for a cleanup
that empties, or has emptied, every slot that is filled.

* `Tidy` — the invariant: what is stored and not released is in its slot, or in the
  hands of the cleanup;
* `step_tidy` — every step keeps it, a cancelled call included;
* `close_returns` — when a `close` returns, everything that was stored is released.
-/
import UnitreeWebrtc.Engine

namespace Unitree

/-- The slots that the cleanup has emptied by now. -/
def Cleanup.passed : Cleanup → List Slot
  | .start | .dropSender => []
  | .takeTask => [.commandTx]
  | .join _ | .dropAudio => [.commandTx, .commandTask]
  | .takeResources => [.commandTx, .commandTask, .audioTrack]
  | .closeResources _ | .takeChannel _ => [.commandTx, .commandTask, .audioTrack, .peerResources]
  | .closeChannel _ | .takeConnection _ =>
    [.commandTx, .commandTask, .audioTrack, .peerResources, .dataChannel]
  | .closeConnection _ | .finish | .done =>
    [.commandTx, .commandTask, .audioTrack, .peerResources, .dataChannel, .peerConnection]

/-- What the cleanup has taken and not yet closed or joined. -/
def Cleanup.held : Cleanup → Option (Slot × ℕ)
  | .join n => some (.commandTask, n)
  | .closeResources n => some (.peerResources, n)
  | .closeChannel n => some (.dataChannel, n)
  | .closeConnection n => some (.peerConnection, n)
  | _ => none

/-- The peer that the cleanup works on, where it knows. -/
def Cleanup.peer : Cleanup → Option ℕ
  | .join n | .closeResources n | .closeChannel n | .closeConnection n => some n
  | .takeChannel owned | .takeConnection owned => owned
  | _ => none

/-- `prepare_offer` between its two calls of `close`. -/
def PrepareStage.inner : PrepareStage → Bool
  | .closing _ | .failing _ => false
  | _ => true

/-- The slots that `prepare_offer` has not filled by now. -/
def PrepareStage.unfilled : PrepareStage → List Slot
  | .resetState | .setConnecting | .loadGeneration | .createPeer =>
    [.commandTx, .commandTask, .audioTrack, .peerResources, .dataChannel, .peerConnection]
  | .setup | .storeConnection =>
    [.commandTx, .commandTask, .audioTrack, .dataChannel, .peerConnection]
  | .storeChannel => [.commandTx, .commandTask, .audioTrack, .dataChannel]
  | .storeAudio => [.commandTx, .commandTask, .audioTrack]
  | .installCommands => [.commandTx, .commandTask]
  | .closing _ | .offering | .failing _ => []

/-- The peer's resources are registered. -/
def PrepareStage.registered : PrepareStage → Bool
  | .setup | .storeConnection | .storeChannel | .storeAudio | .installCommands | .offering => true
  | _ => false

/-- A call that is not in the middle of `prepare_offer`. -/
def Call.outer : Call → Bool
  | .prepareOffer stage => !stage.inner
  | _ => true

theorem PrepareStage.outer_unfilled {stage : PrepareStage} (h : stage.inner = false) :
    stage.unfilled = [] ∧ stage.registered = false := by
  cases stage <;> first | exact ⟨rfl, rfl⟩ | exact absurd h (by simp [PrepareStage.inner])

namespace RtcEngine

/-- What is stored and not released can be found again. -/
structure Tidy (e : RtcEngine) : Prop where
  slots : ∀ k n, e.slot k = some n → n = e.current
  tracked : ∀ k n, (k, n) ∈ e.stored → (k, n) ∈ e.released ∨ e.slot k = some n ∨
    ∃ stage, e.closeTask = some stage ∧ stage.held = some (k, n)
  passed : ∀ stage, e.closeTask = some stage → ∀ k ∈ stage.passed, e.slot k = none
  peer : ∀ stage, e.closeTask = some stage → ∀ n, stage.peer = some n → n = e.current
  inner : ∀ stage, e.call = some (.prepareOffer stage) → stage.inner = true → e.closeTask = none
  unfilled : ∀ stage, e.call = some (.prepareOffer stage) → ∀ k ∈ stage.unfilled, e.slot k = none
  registered : ∀ stage, e.call = some (.prepareOffer stage) → stage.registered = true →
    e.slot .peerResources = some e.current
  workers : ∀ n w, e.worker n = some w → w.stage ≠ .stopped →
    e.slot .commandTask = some n ∨ e.closeTask = some (.join n)

variable {e e' : RtcEngine}

theorem new_tidy : new.Tidy where
  slots _ _ h := absurd h (by simp [new])
  tracked _ _ h := absurd h (by simp [new])
  passed _ h := absurd h (by simp [new])
  peer _ h := absurd h (by simp [new])
  inner _ h := absurd h (by simp [new])
  unfilled _ h := absurd h (by simp [new])
  registered _ h := absurd h (by simp [new])
  workers _ _ h := absurd h (by simp [new])

/-- Everything but the slots, the calls and the cleanup; workers can end, but not
begin, and things can be released. -/
structure Outside (e e' : RtcEngine) : Prop where
  slot : e'.slot = e.slot
  current : e'.current = e.current
  stored : e'.stored = e.stored
  released : ∀ x ∈ e.released, x ∈ e'.released
  closeTask : e'.closeTask = e.closeTask
  call : e'.call = e.call
  worker : ∀ n w', e'.worker n = some w' → w'.stage ≠ .stopped →
    ∃ w, e.worker n = some w ∧ w.stage ≠ .stopped

theorem Outside.refl (e : RtcEngine) : Outside e e :=
  ⟨rfl, rfl, rfl, fun _ hx => hx, rfl, rfl, fun _ w hw hs => ⟨w, hw, hs⟩⟩

theorem Outside.trans {e₁ e₂ e₃ : RtcEngine} (h : Outside e₁ e₂) (h' : Outside e₂ e₃) :
    Outside e₁ e₃ where
  slot := h'.slot.trans h.slot
  current := h'.current.trans h.current
  stored := h'.stored.trans h.stored
  released x hx := h'.released x (h.released x hx)
  closeTask := h'.closeTask.trans h.closeTask
  call := h'.call.trans h.call
  worker n w hw hs := by
    obtain ⟨w', hw', hs'⟩ := h'.worker n w hw hs
    exact h.worker n w' hw' hs'

theorem Tidy.outside (h : e.Tidy) (ho : Outside e e') : e'.Tidy where
  slots := by rw [ho.slot, ho.current]; exact h.slots
  tracked k n hmem := by
    rw [ho.stored] at hmem
    rw [ho.slot, ho.closeTask]
    exact (h.tracked k n hmem).imp_left (ho.released _)
  passed := by rw [ho.slot, ho.closeTask]; exact h.passed
  peer := by rw [ho.current, ho.closeTask]; exact h.peer
  inner := by rw [ho.call, ho.closeTask]; exact h.inner
  unfilled := by rw [ho.call, ho.slot]; exact h.unfilled
  registered := by rw [ho.call, ho.slot, ho.current]; exact h.registered
  workers n w hw hs := by
    obtain ⟨w', hw', hs'⟩ := ho.worker n w hw hs
    rw [ho.slot, ho.closeTask]
    exact h.workers n w' hw' hs'

/-! ### Steps outside -/

/-- A worker goes on, or ends. -/
theorem setWorker_outside {n : ℕ} {w w' : Worker} (hw : e.worker n = some w)
    (hs : w'.stage ≠ .stopped → w.stage ≠ .stopped) : Outside e (e.setWorker n w') := by
  refine ⟨rfl, rfl, rfl, fun _ hx => hx, rfl, rfl, fun m v hv hstage => ?_⟩
  rw [setWorker_worker] at hv
  split at hv
  next hm =>
    rw [Option.some_inj] at hv
    subst hm hv
    exact ⟨w, hw, hs hstage⟩
  next => exact ⟨v, hv, hstage⟩

theorem setIngressGeneration_outside (e : RtcEngine) (generation : ℕ) :
    Outside e (e.setIngressGeneration generation) := by
  rw [setIngressGeneration]
  dsimp only
  split
  · exact ⟨rfl, rfl, rfl, fun _ hx => hx, rfl, rfl, fun _ w hw hs => ⟨w, hw, hs⟩⟩
  · exact ⟨rfl, rfl, rfl, fun _ hx => hx, rfl, rfl, fun _ w hw hs => ⟨w, hw, hs⟩⟩

theorem fire_outside (e : RtcEngine) (n : ℕ) (event : RtcStateEvent) :
    Outside e (e.fire n event) := by
  rw [fire]
  split
  · exact Outside.refl e
  · split
    · exact ⟨rfl, rfl, rfl, fun _ hx => hx, rfl, rfl, fun _ w hw hs => ⟨w, hw, hs⟩⟩
    · exact ⟨rfl, rfl, rfl, fun _ hx => hx, rfl, rfl, fun _ w hw hs => ⟨w, hw, hs⟩⟩

theorem apply_outside (e : RtcEngine) (i : ℕ) : Outside e (e.apply i) := by
  rw [apply]
  split
  · exact Outside.refl e
  · exact ⟨rfl, rfl, rfl, fun _ hx => hx, rfl, rfl, fun _ w hw hs => ⟨w, hw, hs⟩⟩

theorem trySend_outside (e : RtcEngine) (n : ℕ) (command : EngineCommand) :
    Outside e (e.trySend n command) := by
  rw [trySend]
  split
  · exact Outside.refl e
  next w hw =>
    split
    · exact setWorker_outside hw (fun h => h)
    · exact Outside.refl e

theorem recordTransportFault_outside (e : RtcEngine) (n : ℕ) (room : Bool) :
    Outside e (e.recordTransportFault n room) := by
  rw [recordTransportFault]
  split
  · exact Outside.refl e
  · split
    · exact Outside.refl e
    · exact ⟨rfl, rfl, rfl, fun _ hx => hx, rfl, rfl, fun _ w hw hs => ⟨w, hw, hs⟩⟩

theorem recordTransportFault_worker (e : RtcEngine) (n : ℕ) (room : Bool) :
    (e.recordTransportFault n room).worker = e.worker := by
  rw [recordTransportFault]
  split
  · rfl
  · split <;> rfl

theorem workerStep_outside (e : RtcEngine) (n : ℕ) (ok room ends : Bool) :
    Outside e (e.workerStep n ok room ends) := by
  rw [workerStep]
  split
  · exact Outside.refl e
  next w hw =>
    split
    next hstage =>
      split
      · exact setWorker_outside hw (fun h => absurd rfl h)
      · split
        · exact setWorker_outside hw (fun _ => by rw [hstage]; simp)
        · split
          · exact setWorker_outside hw (fun h => absurd rfl h)
          · exact Outside.refl e
    next command hstage =>
      split
      · exact setWorker_outside hw (fun _ => by rw [hstage]; simp)
      · exact setWorker_outside hw (fun h => absurd rfl h)
    next command generation hstage =>
      split
      · exact setWorker_outside hw (fun _ => by rw [hstage]; simp)
      · exact setWorker_outside hw (fun _ => by rw [hstage]; simp)
    next hstage =>
      split
      · exact setWorker_outside hw (fun h => absurd rfl h)
      · exact setWorker_outside hw (fun _ => by rw [hstage]; simp)
    next hstage =>
      refine (recordTransportFault_outside e n room).trans
        (setWorker_outside (w := w) ?_ (fun h => absurd rfl h))
      rw [recordTransportFault_worker]
      exact hw
    next => exact Outside.refl e

theorem abort_outside (e : RtcEngine) (n : ℕ) : Outside e (e.abort n) := by
  rw [abort]
  split
  · exact Outside.refl e
  next w hw => exact setWorker_outside hw (fun h => h)

/-! ### The cleanup goes on -/

/-- A step of the cleanup: slots are only emptied, and what was in them is released
or held after it. -/
structure Clears (e e' : RtcEngine) (stage stage' : Cleanup) : Prop where
  stored : e'.stored = e.stored
  current : e'.current = e.current
  call : e'.call = e.call
  released : ∀ x ∈ e.released, x ∈ e'.released
  emptied : ∀ k n, e'.slot k = some n → e.slot k = some n
  kept : ∀ k n, e.slot k = some n →
    e'.slot k = some n ∨ (k, n) ∈ e'.released ∨ stage'.held = some (k, n)
  held : ∀ k n, stage.held = some (k, n) → (k, n) ∈ e'.released ∨ stage'.held = some (k, n)
  passed : ∀ k ∈ stage'.passed, e'.slot k = none
  peer : ∀ n, stage'.peer = some n → n = e.current
  workers : ∀ n w, e'.worker n = some w → w.stage ≠ .stopped →
    e'.slot .commandTask = some n ∨ stage' = .join n

theorem Tidy.clears (h : e.Tidy) {stage stage' : Cleanup} (hstage : e.closeTask = some stage)
    (hc : Clears e e' stage stage') : Tidy { e' with closeTask := some stage' } where
  slots k n hk := by
    show n = e'.current
    rw [hc.current]
    exact h.slots k n (hc.emptied k n hk)
  tracked k n hmem := by
    change (k, n) ∈ e'.stored at hmem
    rw [hc.stored] at hmem
    -- What was stored is released, in its slot, or in the hands of the cleanup.
    rcases h.tracked k n hmem with hr | hs | ⟨st, hst, hh⟩
    · exact Or.inl (hc.released _ hr)
    · rcases hc.kept k n hs with hslot | hr | hh
      · exact Or.inr (Or.inl hslot)
      · exact Or.inl hr
      · exact Or.inr (Or.inr ⟨stage', rfl, hh⟩)
    · rw [hstage, Option.some_inj] at hst
      subst hst
      rcases hc.held k n hh with hr | hh'
      · exact Or.inl hr
      · exact Or.inr (Or.inr ⟨stage', rfl, hh'⟩)
  passed st hst := by
    rw [Option.some_inj] at hst
    subst hst
    exact hc.passed
  peer st hst n hn := by
    rw [Option.some_inj] at hst
    subst hst
    show n = e'.current
    rw [hc.current]
    exact hc.peer n hn
  inner st hcall hin := by
    change e'.call = _ at hcall
    rw [hc.call] at hcall
    rw [h.inner st hcall hin] at hstage
    exact absurd hstage (by simp)
  unfilled st hcall k hk := by
    change e'.call = _ at hcall
    rw [hc.call] at hcall
    have hnone := h.unfilled st hcall k hk
    show e'.slot k = none
    -- A cleanup fills no slot.
    by_contra hsome
    obtain ⟨n, hn⟩ := Option.ne_none_iff_exists'.mp hsome
    rw [hc.emptied k n hn] at hnone
    exact absurd hnone (by simp)
  registered st hcall hreg := by
    change e'.call = _ at hcall
    rw [hc.call] at hcall
    have hin : st.inner = true := by
      cases st <;> first | rfl | exact absurd hreg (by simp [PrepareStage.registered])
    rw [h.inner st hcall hin] at hstage
    exact absurd hstage (by simp)
  workers n w hw hs := by
    rcases hc.workers n w hw hs with hslot | rfl
    · exact Or.inl hslot
    · exact Or.inr rfl

theorem set_outside (e : RtcEngine) (state : RtcReadyState) (event : Event) :
    Outside e ((e.set state).record event) :=
  ⟨rfl, rfl, rfl, fun _ hx => hx, rfl, rfl, fun _ w hw hs => ⟨w, hw, hs⟩⟩

theorem release_outside (e : RtcEngine) (k : Slot) (n : ℕ) : Outside e (e.release k n) :=
  ⟨rfl, rfl, rfl, fun _ hx => List.mem_append_left _ hx, rfl, rfl, fun _ w hw hs => ⟨w, hw, hs⟩⟩

theorem mem_release (e : RtcEngine) (k : Slot) (n : ℕ) : (k, n) ∈ (e.release k n).released :=
  List.mem_append_right _ (List.mem_singleton.mpr rfl)

section

variable {stage stage' : Cleanup}

/-- Nothing is taken out of the slots in this step. -/
theorem Tidy.clears_outside (h : e.Tidy) (hstage : e.closeTask = some stage) (ho : Outside e e')
    (hheld : ∀ k n, stage.held = some (k, n) → (k, n) ∈ e'.released ∨ stage'.held = some (k, n))
    (hpassed : ∀ k ∈ stage'.passed, k ∈ stage.passed ∨ e.slot k = none)
    (hpeer : ∀ n, stage'.peer = some n → stage.peer = some n)
    (hjoin : ∀ n, stage = .join n → e.joined n = true ∨ stage' = .join n) :
    Clears e e' stage stage' where
  stored := ho.stored
  current := ho.current
  call := ho.call
  released := ho.released
  emptied k n hk := by rw [← ho.slot]; exact hk
  kept k n hk := Or.inl (by rw [ho.slot]; exact hk)
  held := hheld
  passed k hk := by
    rw [ho.slot]
    rcases hpassed k hk with hp | hnone
    · exact h.passed stage hstage k hp
    · exact hnone
  peer n hn := h.peer stage hstage n (hpeer n hn)
  workers n w hw hs := by
    obtain ⟨w', hw', hs'⟩ := ho.worker n w hw hs
    rw [ho.slot]
    rcases h.workers n w' hw' hs' with hslot | hcl
    · exact Or.inl hslot
    · rw [hstage, Option.some_inj] at hcl
      rcases hjoin n hcl with hjoined | hj
      · rw [joined, hw'] at hjoined
        exact absurd (by simpa using hjoined) hs'
      · exact Or.inr hj

/-- One slot is emptied in this step. -/
theorem Tidy.clears_take (h : e.Tidy) (hstage : e.closeTask = some stage) {k : Slot} {n : ℕ}
    (hk : e.slot k = some n) (ho : Outside (e.empty k) e')
    (hgone : (k, n) ∈ e'.released ∨ stage'.held = some (k, n)) (hheld : stage.held = none)
    (hpassed : ∀ j ∈ stage'.passed, j = k ∨ j ∈ stage.passed)
    (hpeer : ∀ m, stage'.peer = some m → m = n ∨ stage.peer = some m)
    (hjoin : k = .commandTask → stage' = .join n) : Clears e e' stage stage' where
  stored := ho.stored
  current := ho.current
  call := ho.call
  released := ho.released
  emptied j m hj := by
    rw [ho.slot, empty_slot] at hj
    split at hj
    · exact absurd hj (by simp)
    · exact hj
  kept j m hj := by
    by_cases hjk : j = k
    · subst hjk
      rw [hk, Option.some_inj] at hj
      subst hj
      exact Or.inr hgone
    · left
      rw [ho.slot, empty_slot, if_neg hjk]
      exact hj
  held j m hj := by
    rw [hheld] at hj
    exact absurd hj (by simp)
  passed j hj := by
    rw [ho.slot, empty_slot]
    split
    · rfl
    next hjk => exact h.passed stage hstage j ((hpassed j hj).resolve_left hjk)
  peer m hm := by
    rcases hpeer m hm with rfl | hp
    · exact h.slots k m hk
    · exact h.peer stage hstage m hp
  workers m w hw hs := by
    obtain ⟨w', hw', hs'⟩ := ho.worker m w hw hs
    rcases h.workers m w' hw' hs' with hslot | hcl
    -- Only the worker's own slot matters, and taking that one leads to the join.
    · by_cases hkt : k = .commandTask
      · subst hkt
        rw [hk, Option.some_inj] at hslot
        subst hslot
        exact Or.inr (hjoin rfl)
      · left
        rw [ho.slot, empty_slot, if_neg (Ne.symm hkt)]
        exact hslot
    · -- the cleanup joins nothing before this step
      rw [hstage, Option.some_inj] at hcl
      rw [hcl] at hheld
      exact absurd hheld (by simp [Cleanup.held])

/-- Nothing happens but that the cleanup goes on. -/
theorem Tidy.clears_skip (h : e.Tidy) (hstage : e.closeTask = some stage)
    (hheld : stage.held = none) (hpassed : ∀ k ∈ stage'.passed, k ∈ stage.passed ∨ e.slot k = none)
    (hpeer : ∀ n, stage'.peer = some n → stage.peer = some n) : Clears e e stage stage' :=
  h.clears_outside hstage (Outside.refl e) (fun k n hh => absurd hh (by rw [hheld]; simp)) hpassed
    hpeer (fun n hj => absurd hheld (by rw [hj]; simp [Cleanup.held]))

/-- A slot whose content is dropped at once. -/
theorem Tidy.clears_vacate (h : e.Tidy) (hstage : e.closeTask = some stage) {k : Slot}
    (hheld : stage.held = none) (hpassed : ∀ j ∈ stage'.passed, j = k ∨ j ∈ stage.passed)
    (hpeer : ∀ m, stage'.peer = some m → stage.peer = some m) (hk : k ≠ .commandTask) :
    Clears e (e.vacate k) stage stage' := by
  rw [vacate]
  split
  next hnone =>
    refine h.clears_skip hstage hheld (fun j hj => ?_) hpeer
    rcases hpassed j hj with rfl | hp
    · exact Or.inr hnone
    · exact Or.inl hp
  next n hn =>
    exact h.clears_take hstage hn (release_outside _ k n) (Or.inl (mem_release _ k n)) hheld
      hpassed (fun m hm => Or.inr (hpeer m hm)) (fun hkt => absurd hkt hk)

/-- A slot whose content belongs to the peer that was just closed. -/
theorem Tidy.clears_owned (h : e.Tidy) (hstage : e.closeTask = some stage) {k : Slot} {n m : ℕ}
    (hk : e.slot k = some n) (hm : stage.peer = some m) (hheld : stage.held = none)
    (hpassed : ∀ j ∈ stage'.passed, j = k ∨ j ∈ stage.passed)
    (hpeer : ∀ m, stage'.peer = some m → stage.peer = some m) (hkt : k ≠ .commandTask) :
    Clears e (if n = m then (e.empty k).release k n else e.empty k) stage stage' := by
  -- both are of the current peer
  rw [if_pos ((h.slots k n hk).trans (h.peer stage hstage m hm).symm)]
  exact h.clears_take hstage hk (release_outside _ k n) (Or.inl (mem_release _ k n)) hheld hpassed
    (fun m hm => Or.inr (hpeer m hm)) (fun hkt' => absurd hkt' hkt)

end

/-- Every step of `close_inner`. -/
theorem closeInner_clears (h : e.Tidy) {stage : Cleanup} (hstage : e.closeTask = some stage) :
    Clears e (e.closeInner stage).1 stage (e.closeInner stage).2 := by
  cases stage with
  | start | finish =>
    rw [closeInner]
    exact h.clears_outside hstage (set_outside e .closed .engineClosed) (by simp [Cleanup.held])
      (by simp [Cleanup.passed]) (by simp [Cleanup.peer]) (by simp)
  | dropSender | dropAudio =>
    rw [closeInner]
    exact h.clears_vacate hstage rfl (by simp [Cleanup.passed]) (by simp [Cleanup.peer]) (by simp)
  | takeTask =>
    rw [closeInner]
    split
    next hnone =>
      exact h.clears_skip hstage rfl (by simp [Cleanup.passed, hnone]) (by simp [Cleanup.peer])
    next n hn =>
      exact h.clears_take hstage hn (abort_outside _ n) (Or.inr rfl) rfl
        (by simp [Cleanup.passed]) (by simp [Cleanup.peer]) (fun _ => rfl)
  | join n =>
    rw [closeInner]
    split
    next hjoined =>
      exact h.clears_outside hstage (release_outside e .commandTask n)
        (by simp [Cleanup.held, release]) (by simp [Cleanup.passed]) (by simp [Cleanup.peer])
        (fun m hm => Or.inl (by cases hm; exact hjoined))
    next =>
      exact h.clears_outside hstage (Outside.refl e) (by simp [Cleanup.held])
        (by simp [Cleanup.passed]) (by simp [Cleanup.peer]) (fun m hm => Or.inr hm)
  | takeResources =>
    rw [closeInner]
    split
    next hnone =>
      exact h.clears_skip hstage rfl (by simp [Cleanup.passed, hnone]) (by simp [Cleanup.peer])
    next n hn =>
      exact h.clears_take hstage hn (Outside.refl _) (Or.inr rfl) rfl (by simp [Cleanup.passed])
        (by simp [Cleanup.peer]) (by simp)
  | closeResources n | closeChannel n | closeConnection n =>
    rw [closeInner]
    exact h.clears_outside hstage (release_outside e _ n) (by simp [Cleanup.held, release])
      (by simp [Cleanup.passed]) (by simp [Cleanup.peer]) (by simp)
  | takeChannel owned | takeConnection owned =>
    rw [closeInner.eq_def]
    dsimp only
    split
    next hnone =>
      exact h.clears_skip hstage rfl (by simp [Cleanup.passed, hnone]) (by simp [Cleanup.peer])
    next n hn =>
      exact h.clears_take hstage hn (Outside.refl _) (Or.inr rfl) rfl (by simp [Cleanup.passed])
        (by simp [Cleanup.peer]) (by simp)
    next n m hn =>
      exact h.clears_owned hstage hn rfl rfl (by simp [Cleanup.passed]) (by simp [Cleanup.peer])
        (by simp)
  | done => exact h.clears_skip hstage rfl (fun k hk => Or.inl hk) (fun n hn => hn)

theorem cleanup_tidy (h : e.Tidy) : e.cleanup.Tidy := by
  rw [cleanup]
  split
  · exact h
  next stage hstage => exact h.clears hstage (closeInner_clears h hstage)

/-! ### The calls go on -/

/-- Only the call changes. -/
theorem Tidy.calling (h : e.Tidy) {call : Option Call}
    (hinner : ∀ stage, call = some (.prepareOffer stage) → stage.inner = true →
      e.closeTask = none)
    (hunfilled : ∀ stage, call = some (.prepareOffer stage) → ∀ k ∈ stage.unfilled,
      e.slot k = none)
    (hregistered : ∀ stage, call = some (.prepareOffer stage) → stage.registered = true →
      e.slot .peerResources = some e.current) : Tidy { e with call } where
  slots := h.slots
  tracked := h.tracked
  passed := h.passed
  peer := h.peer
  inner := hinner
  unfilled := hunfilled
  registered := hregistered
  workers := h.workers

theorem Tidy.outer (h : e.Tidy) {call : Option Call} (hcall : ∀ c, call = some c → c.outer) :
    Tidy { e with call } := by
  have houter : ∀ stage, call = some (.prepareOffer stage) → stage.inner = false := by
    intro stage hstage
    simpa [Call.outer] using hcall _ hstage
  refine h.calling (fun stage hstage hin => ?_) (fun stage hstage k hk => ?_)
    (fun stage hstage hreg => ?_)
  · rw [houter stage hstage] at hin
    exact absurd hin (by simp)
  · rw [(PrepareStage.outer_unfilled (houter stage hstage)).1] at hk
    exact absurd hk (by simp)
  · rw [(PrepareStage.outer_unfilled (houter stage hstage)).2] at hreg
    exact absurd hreg (by simp)

/-- A slot is empty once a cleanup is done. -/
theorem Tidy.done_slot (h : e.Tidy) (hdone : e.closeTask = some .done) (k : Slot) :
    e.slot k = none := by
  apply h.passed _ hdone
  cases k <;> simp [Cleanup.passed]

/-- With empty slots and no cleanup everything is released. -/
theorem Tidy.all_released (h : e.Tidy) (hslot : ∀ k, e.slot k = none) (hclose : e.closeTask = none ∨
    e.closeTask = some .done) : ∀ x ∈ e.stored, x ∈ e.released := by
  rintro ⟨k, n⟩ hmem
  rcases h.tracked k n hmem with hr | hs | ⟨stage, hstage, hheld⟩
  · exact hr
  · rw [hslot k] at hs
    exact absurd hs (by simp)
  · rcases hclose with hnone | hdone
    · rw [hnone] at hstage
      exact absurd hstage (by simp)
    · rw [hdone, Option.some_inj] at hstage
      subst hstage
      exact absurd hheld (by simp [Cleanup.held])

/-- Neither is any worker left. -/
theorem Tidy.no_worker (h : e.Tidy) (hslot : ∀ k, e.slot k = none) (hclose : e.closeTask = none ∨
    e.closeTask = some .done) {n : ℕ} {w : Worker} (hw : e.worker n = some w) :
    w.stage = .stopped := by
  by_contra hs
  rcases h.workers n w hw hs with hk | hj
  · rw [hslot] at hk
    exact absurd hk (by simp)
  · rcases hclose with hnone | hdone
    · rw [hnone] at hj
      exact absurd hj (by simp)
    · rw [hdone] at hj
      exact absurd hj (by simp)

/-- `CloseTask::run` before it returns: a handle is there, and was there before or
stands for a cleanup that has not begun. -/
theorem Tidy.enter (h : e.Tidy) (hcall : ∀ c, e.call = some c → c.outer) :
    Tidy { e with closeTask := some (e.closeTask.getD .start) } := by
  cases hclose : e.closeTask with
  | some stage =>
    have : { e with closeTask := some ((some stage).getD .start) } = e := by
      rw [Option.getD_some, ← hclose]
    rw [this]
    exact h
  | none =>
    rw [Option.getD_none]
    refine ⟨h.slots, fun k n hmem => ?_, fun st hst k hk => ?_, fun st hst n hn => ?_,
      fun st hst hin => ?_, h.unfilled, h.registered, fun n w hw hs => ?_⟩
    · rcases h.tracked k n hmem with hr | hs | ⟨st, hst, -⟩
      · exact Or.inl hr
      · exact Or.inr (Or.inl hs)
      · rw [hclose] at hst
        exact absurd hst (by simp)
    · rw [← Option.some_inj.mp hst] at hk
      exact absurd hk (by simp [Cleanup.passed])
    · rw [← Option.some_inj.mp hst] at hn
      exact absurd hn (by simp [Cleanup.peer])
    · have := hcall _ hst
      rw [Call.outer, hin] at this
      exact absurd this (by simp)
    · rcases h.workers n w hw hs with hk | hj
      · exact Or.inl hk
      · rw [hclose] at hj
        exact absurd hj (by simp)

/-- It returns: the handle is taken. -/
theorem Tidy.returned (h : e.Tidy) (hdone : e.closeTask = some .done) :
    Tidy (record { e with closeTask := none } .closeReturned) where
  slots := h.slots
  tracked k n hmem := Or.inl (h.all_released (h.done_slot hdone) (Or.inr hdone) _ hmem)
  passed _ hst := absurd hst (by simp [record])
  peer _ hst := absurd hst (by simp [record])
  inner _ _ _ := rfl
  unfilled := h.unfilled
  registered := h.registered
  workers _ _ hw hs := absurd (h.no_worker (h.done_slot hdone) (Or.inr hdone) hw) hs

/-- `CloseTask::run`, up to the next point or to its return. -/
theorem run_tidy (h : e.Tidy) (hcall : ∀ c, e.call = some c → c.outer) (r : Run) :
    (e.run r).1.Tidy ∧ (e.run r).1.call = e.call ∧
      ((e.run r).2 = none → (e.run r).1.closeTask = none ∧ ∀ k, (e.run r).1.slot k = none) := by
  cases r with
  | enter => exact ⟨h.enter hcall, rfl, fun hnone => absurd hnone (by simp [run])⟩
  | wait =>
    rw [run]
    split
    next hdone => exact ⟨h.returned hdone, rfl, fun _ => ⟨rfl, h.done_slot hdone⟩⟩
    next => exact ⟨h, rfl, fun hnone => absurd hnone (by simp)⟩

/-- Parts of the new peer are put into their slots, and its worker is spawned with
its task. -/
theorem Tidy.fills (h : e.Tidy) {stage stage' : PrepareStage}
    (hcall : e.call = some (.prepareOffer stage)) (hin : stage.inner = true) (ks : List Slot)
    (hks : ∀ k ∈ ks, k ∈ stage.unfilled) (htask : .commandTask ∈ stage.unfilled)
    (hslot : ∀ k, e'.slot k = if k ∈ ks then some e.current else e.slot k)
    (hstored : e'.stored = e.stored ++ ks.map fun k => (k, e.current))
    (hcurrent : e'.current = e.current) (hreleased : e'.released = e.released)
    (hclose : e'.closeTask = e.closeTask)
    (hworkers : ∀ n w, e'.worker n = some w → w.stage ≠ .stopped →
      e.worker n = some w ∨ n = e.current ∧ .commandTask ∈ ks)
    (hunfilled : ∀ k ∈ stage'.unfilled, k ∉ ks ∧ k ∈ stage.unfilled)
    (hregistered : stage'.registered = true → .peerResources ∈ ks ∨
      stage.registered = true ∧ .peerResources ∉ ks) :
    Tidy { e' with call := some (.prepareOffer stage') } := by
  -- Inside the preparation no cleanup runs.
  have hnone : e.closeTask = none := h.inner stage hcall hin
  refine ⟨fun k n hk => ?_, fun k n hmem => ?_, fun st hst => ?_, fun st hst => ?_,
    fun _ _ _ => ?_, fun st hst k hk => ?_, fun st hst hreg => ?_, fun n w hw hs => ?_⟩
  · change e'.slot k = some n at hk
    rw [hslot] at hk
    show n = e'.current
    rw [hcurrent]
    split at hk
    · exact (Option.some_inj.mp hk).symm
    · exact h.slots k n hk
  · change (k, n) ∈ e'.stored at hmem
    rw [hstored] at hmem
    show (k, n) ∈ e'.released ∨ e'.slot k = some n ∨ _
    rw [hreleased, hslot]
    rcases List.mem_append.mp hmem with hold | hnew
    · rcases h.tracked k n hold with hr | hs | ⟨st, hst, -⟩
      · exact Or.inl hr
      · -- it cannot be one of those that are filled now
        rw [if_neg fun hk => by
          rw [h.unfilled stage hcall k (hks k hk)] at hs
          exact absurd hs (by simp)]
        exact Or.inr (Or.inl hs)
      · rw [hnone] at hst
        exact absurd hst (by simp)
    · obtain ⟨j, hj, hjn⟩ := List.mem_map.mp hnew
      rw [Prod.mk.injEq] at hjn
      obtain ⟨rfl, rfl⟩ := hjn
      rw [if_pos hj]
      exact Or.inr (Or.inl rfl)
  · change e'.closeTask = some st at hst
    rw [hclose, hnone] at hst
    exact absurd hst (by simp)
  · change e'.closeTask = some st at hst
    rw [hclose, hnone] at hst
    exact absurd hst (by simp)
  · show e'.closeTask = none
    rw [hclose, hnone]
  · cases hst
    obtain ⟨hk', hk''⟩ := hunfilled k hk
    show e'.slot k = none
    rw [hslot, if_neg hk']
    exact h.unfilled stage hcall k hk''
  · cases hst
    show e'.slot .peerResources = some e'.current
    rw [hslot, hcurrent]
    rcases hregistered hreg with hk | ⟨hold, hk⟩
    · rw [if_pos hk]
    · rw [if_neg hk]
      exact h.registered stage hcall hold
  · show e'.slot .commandTask = some n ∨ _
    rcases hworkers n w hw hs with hold | ⟨rfl, hk⟩
    · rcases h.workers n w hold hs with hk | hj
      · rw [h.unfilled stage hcall _ htask] at hk
        exact absurd hk (by simp)
      · rw [hnone] at hj
        exact absurd hj (by simp)
    · rw [hslot, if_pos hk]
      exact Or.inl rfl

theorem Tidy.stores (h : e.Tidy) {stage stage' : PrepareStage}
    (hcall : e.call = some (.prepareOffer stage)) (hin : stage.inner = true) {k : Slot}
    (hk : k ∈ stage.unfilled) (htask : .commandTask ∈ stage.unfilled)
    (hunfilled : ∀ j ∈ stage'.unfilled, j ≠ k ∧ j ∈ stage.unfilled)
    (hregistered : stage'.registered = true → k = .peerResources ∨
      stage.registered = true ∧ k ≠ .peerResources) :
    Tidy { e.store k with call := some (.prepareOffer stage') } :=
  h.fills hcall hin [k] (fun j hj => by rw [List.mem_singleton.mp hj]; exact hk) htask
    (fun j => by rw [store_slot]; simp) rfl rfl rfl rfl (fun n w hw _ => Or.inl hw)
    (fun j hj => by simpa using hunfilled j hj)
    (fun hreg => by
      rcases hregistered hreg with rfl | ⟨hr, hne⟩
      · exact Or.inl (by simp)
      · exact Or.inr ⟨hr, by simpa using Ne.symm hne⟩)

theorem Tidy.installs (h : e.Tidy) (hcall : e.call = some (.prepareOffer .installCommands)) :
    Tidy { (((e.store .commandTx).setWorker e.current .spawned).store .commandTask) with
      call := some (.prepareOffer .offering) } := by
  refine h.fills hcall rfl [.commandTx, .commandTask] (by simp [PrepareStage.unfilled])
    (by simp [PrepareStage.unfilled]) (fun k => ?_) (by simp [store, setWorker]) rfl rfl rfl
    (fun n w hw _ => ?_) (by simp [PrepareStage.unfilled])
    (fun _ => Or.inr ⟨rfl, by simp⟩)
  · rw [store_slot]
    show (if k = .commandTask then some e.current else (e.store .commandTx).slot k) = _
    rw [store_slot]
    cases k <;> simp
  · change ((e.store .commandTx).setWorker e.current .spawned).worker n = some w at hw
    rw [setWorker_worker] at hw
    split at hw
    next hn => exact Or.inr ⟨hn, by simp⟩
    next => exact Or.inl hw

/-- A new cell: the peer of the old one is gone. -/
theorem Tidy.resets (h : e.Tidy) (hcall : e.call = some (.prepareOffer .resetState)) :
    Tidy { e with
      current := e.current + 1
      cell := Function.update e.cell (e.current + 1) .closed
      call := some (.prepareOffer .setConnecting) } := by
  have hnone : e.closeTask = none := h.inner _ hcall rfl
  have hslot : ∀ k, e.slot k = none := by
    intro k
    apply h.unfilled _ hcall
    cases k <;> simp [PrepareStage.unfilled]
  refine ⟨fun k n hk => ?_, fun k n hmem => ?_, fun st hst => ?_, fun st hst => ?_,
    fun _ _ _ => hnone, fun _ _ k _ => hslot k, fun st hst hreg => ?_, fun n w hw hs => ?_⟩
  · exact absurd hk (by simp [hslot k])
  · exact Or.inl (h.all_released hslot (Or.inl hnone) _ hmem)
  · exact absurd hst (by simp [hnone])
  · exact absurd hst (by simp [hnone])
  · cases hst
    exact absurd hreg (by simp [PrepareStage.registered])
  · exact absurd (h.no_worker hslot (Or.inl hnone) hw) hs

/-- The resources of the peer are registered, so that the worker is not aborted. -/
theorem prepareOffer_installCommands (h : e.Tidy)
    (hcall : e.call = some (.prepareOffer .installCommands)) (ok : Bool) :
    e.prepareOffer ok .installCommands =
      (((e.store .commandTx).setWorker e.current .spawned).store .commandTask,
        some .offering) := by
  have hreg : ((e.store .commandTx).setWorker e.current .spawned).slot .peerResources ≠ none := by
    show (e.store .commandTx).slot .peerResources ≠ none
    rw [store_slot, if_neg (by simp), h.registered _ hcall rfl]
    simp
  rw [prepareOffer]
  exact if_neg hreg

theorem outer_of_call {call : Call} (hcall : e.call = some call) (ho : call.outer = true) :
    ∀ c, e.call = some c → c.outer = true := by
  intro c hc
  rw [← Option.some_inj.mp (hcall.symm.trans hc)]
  exact ho

/-- `prepare_offer`, up to the next point or to its return. -/
theorem prepareOffer_tidy (h : e.Tidy) {stage : PrepareStage} (ok : Bool)
    (hcall : e.call = some (.prepareOffer stage)) :
    Tidy { (e.prepareOffer ok stage).1 with
      call := (e.prepareOffer ok stage).2.map .prepareOffer } := by
  cases stage with
  | closing r =>
    obtain ⟨ht, -, hreturned⟩ := run_tidy h (outer_of_call hcall rfl) r
    rw [prepareOffer_closing]
    cases hrun : (e.run r).2 with
    | none =>
      -- The preparation starts from empty slots, since the close before it has returned.
      obtain ⟨hnone, hslot⟩ := hreturned hrun
      exact ht.calling (fun _ _ _ => hnone) (fun _ _ k _ => hslot k)
        (fun st hst hreg => by cases hst; exact absurd hreg (by simp [PrepareStage.registered]))
    | some r' => exact ht.outer (fun c hc => by cases hc; rfl)
  | failing r =>
    obtain ⟨ht, -, -⟩ := run_tidy h (outer_of_call hcall rfl) r
    rw [prepareOffer_failing]
    cases (e.run r).2 with
    | none => exact ht.outer (fun c hc => absurd hc (by simp))
    | some r' => exact ht.outer (fun c hc => by cases hc; rfl)
  | resetState => exact h.resets hcall
  | setConnecting =>
    have hset := h.outside (set_outside e .connecting (.connecting e.current))
    exact hset.calling (fun _ _ _ => h.inner _ hcall rfl)
      (fun st hst k hk => by cases hst; exact h.unfilled _ hcall k hk)
      (fun st hst hreg => by cases hst; exact absurd hreg (by simp [PrepareStage.registered]))
  | loadGeneration =>
    have hload : Tidy { e with
        captured := Function.update e.captured e.current (some e.ingressGeneration) } :=
      h.outside ⟨rfl, rfl, rfl, fun _ hx => hx, rfl, rfl, fun _ w hw hs => ⟨w, hw, hs⟩⟩
    exact hload.calling (fun _ _ _ => h.inner _ hcall rfl)
      (fun st hst k hk => by cases hst; exact h.unfilled _ hcall k hk)
      (fun st hst hreg => by cases hst; exact absurd hreg (by simp [PrepareStage.registered]))
  | createPeer =>
    rw [prepareOffer]
    split
    · exact h.stores hcall rfl (by simp [PrepareStage.unfilled]) (by simp [PrepareStage.unfilled])
        (by simp [PrepareStage.unfilled]) (fun _ => Or.inl rfl)
    · exact h.outer (fun c hc => by cases hc; rfl)
  | setup =>
    rw [prepareOffer]
    split
    · exact h.calling (fun _ _ _ => h.inner _ hcall rfl)
        (fun st hst k hk => by cases hst; exact h.unfilled _ hcall k hk)
        (fun st hst _ => h.registered _ hcall rfl)
    · exact h.outer (fun c hc => by cases hc; rfl)
  | storeConnection | storeChannel | storeAudio =>
    exact h.stores hcall rfl (by simp [PrepareStage.unfilled]) (by simp [PrepareStage.unfilled])
      (by simp [PrepareStage.unfilled]) (fun _ => Or.inr ⟨rfl, by simp⟩)
  | installCommands =>
    rw [prepareOffer_installCommands h hcall]
    exact h.installs hcall
  | offering =>
    rw [prepareOffer]
    split
    · exact h.outer (fun c hc => absurd hc (by simp))
    · exact h.outer (fun c hc => by cases hc; rfl)

theorem advance_tidy (h : e.Tidy) (ok : Bool) : (e.advance ok).Tidy := by
  rw [advance.eq_def]
  split
  · exact h
  next stage hcall => exact prepareOffer_tidy h ok hcall
  next hcall =>
    have hnone : Tidy { e with call := none } := h.outer (fun c hc => absurd hc (by simp))
    split
    · exact hnone
    · split
      · have hanswer : Tidy { e with call := some (.applyAnswer true) } :=
          h.outer (fun c hc => by cases hc; rfl)
        exact hanswer.outside ⟨rfl, rfl, rfl, fun _ hx => hx, rfl, rfl,
          fun _ w hw hs => ⟨w, hw, hs⟩⟩
      · exact hnone
  next hcall =>
    split
    · exact h.outer (fun c hc => absurd hc (by simp))
    · exact h
  next r hcall =>
    obtain ⟨ht, -, -⟩ := run_tidy h (outer_of_call hcall rfl) r
    refine ht.outer (fun c hc => ?_)
    obtain ⟨r', -, rfl⟩ := Option.map_eq_some_iff.mp hc
    rfl

/-- A call that is dropped leaves the slots and the handle as they are. -/
theorem cancel_tidy (h : e.Tidy) : e.cancel.Tidy := by
  rw [cancel]
  split
  · exact h
  · split
    · exact h.outer (fun c hc => absurd hc (by simp))
    · exact h

theorem begin_tidy (h : e.Tidy) (call : Call) : (e.begin call).Tidy := by
  rw [begin]
  split
  next hfirst =>
    refine h.outer (fun c hc => ?_)
    cases hc
    rcases call with stage | _ | _
    · have : stage = .closing .enter := by simpa [Call.isFirst] using hfirst.2
      rw [this]
      rfl
    · rfl
    · rfl
  next => exact h

theorem step_tidy (e : RtcEngine) (a : Action) (h : e.Tidy) : (e.step a).Tidy := by
  cases a with
  | setIngressGeneration generation => exact h.outside (setIngressGeneration_outside e generation)
  | takeTransportError =>
    exact h.outside ⟨rfl, rfl, rfl, fun _ hx => hx, rfl, rfl, fun _ w hw hs => ⟨w, hw, hs⟩⟩
  | fire n event => exact h.outside (fire_outside e n event)
  | apply i => exact h.outside (apply_outside e i)
  | trySend n command => exact h.outside (trySend_outside e n command)
  | worker n ok room ends => exact h.outside (workerStep_outside e n ok room ends)
  | begin call => exact begin_tidy h call
  | advance ok => exact advance_tidy h ok
  | cancel => exact cancel_tidy h
  | cleanup => exact cleanup_tidy h

theorem run_tidy_new (as : List Action) : (Runs.run step new as).Tidy :=
  Runs.run_invariant step_tidy as new_tidy

/-! ### The return of a close -/

/-- A step in which no `close` returns. -/
def Stays (e e' : RtcEngine) : Prop :=
  e'.log = e.log ∨ ∃ event, event ≠ .closeReturned ∧ e'.log = e.log ++ [event]

theorem Stays.refl (e : RtcEngine) : Stays e e := Or.inl rfl

theorem Stays.not_returned (h : Stays e e') : e'.log ≠ e.log ++ [.closeReturned] := by
  rcases h with h | ⟨event, hne, h⟩
  · rw [h]
    simp
  · rw [h]
    simpa using hne

theorem setWorker_log (e : RtcEngine) (n : ℕ) (w : Worker) : (e.setWorker n w).log = e.log := rfl

theorem abort_log (e : RtcEngine) (n : ℕ) : (e.abort n).log = e.log := by
  rw [abort]
  split <;> rfl

theorem vacate_log (e : RtcEngine) (k : Slot) : (e.vacate k).log = e.log := by
  rw [vacate]
  split <;> rfl

theorem setIngressGeneration_stays (e : RtcEngine) (generation : ℕ) :
    Stays e (e.setIngressGeneration generation) := by
  rw [setIngressGeneration]
  dsimp only
  split
  · exact Or.inr ⟨.generationChanged, by simp, rfl⟩
  · exact Or.inl rfl

theorem fire_stays (e : RtcEngine) (n : ℕ) (event : RtcStateEvent) : Stays e (e.fire n event) := by
  rw [fire]
  split
  · exact Stays.refl e
  · split
    · exact Or.inr ⟨.callback n event, by simp, rfl⟩
    · exact Or.inl rfl

theorem apply_stays (e : RtcEngine) (i : ℕ) : Stays e (e.apply i) := by
  rw [apply]
  split
  · exact Stays.refl e
  next n event _ => exact Or.inr ⟨.callback n event, by simp, rfl⟩

theorem trySend_stays (e : RtcEngine) (n : ℕ) (command : EngineCommand) :
    Stays e (e.trySend n command) := by
  rw [trySend]
  split
  · exact Stays.refl e
  · split
    · exact Or.inl rfl
    · exact Stays.refl e

theorem workerStep_stays (e : RtcEngine) (n : ℕ) (ok room ends : Bool) :
    Stays e (e.workerStep n ok room ends) := by
  rw [workerStep]
  split
  · exact Stays.refl e
  · split
    · split
      · exact Or.inl rfl
      · split
        · exact Or.inl rfl
        · split
          · exact Or.inl rfl
          · exact Stays.refl e
    · split <;> exact Or.inl rfl
    · split <;> exact Or.inl rfl
    · split <;> exact Or.inl rfl
    · show Stays e ((e.recordTransportFault n room).setWorker n _)
      rw [Stays, setWorker_log, recordTransportFault]
      split
      · exact Or.inl rfl
      · split
        · exact Or.inl rfl
        next generation _ _ => exact Or.inr ⟨.fault generation, by simp, rfl⟩
    · exact Stays.refl e

theorem cleanup_stays (e : RtcEngine) : Stays e e.cleanup := by
  rw [cleanup]
  split
  · exact Stays.refl e
  next stage _ =>
    show Stays e (e.closeInner stage).1
    cases stage with
    | start | finish => exact Or.inr ⟨.engineClosed, by simp, rfl⟩
    | dropSender | dropAudio => exact Or.inl (vacate_log e _)
    | takeTask =>
      rw [closeInner]
      split
      · exact Stays.refl e
      · exact Or.inl (abort_log _ _)
    | join n =>
      rw [closeInner]
      split <;> exact Or.inl rfl
    | takeResources =>
      rw [closeInner]
      split <;> exact Or.inl rfl
    | takeChannel owned | takeConnection owned =>
      rw [closeInner.eq_def]
      dsimp only
      split
      · exact Or.inl rfl
      · exact Or.inl rfl
      · dsimp only
        split <;> exact Or.inl rfl
    | closeResources n | closeChannel n | closeConnection n | done => exact Or.inl rfl

/-- What is stored, released and running is the same. -/
structure SameParts (e e' : RtcEngine) : Prop where
  slot : e'.slot = e.slot
  stored : e'.stored = e.stored
  released : e'.released = e.released
  worker : e'.worker = e.worker

/-- `CloseTask::run` returns where the cleanup is done, and nowhere else. -/
theorem run_returned (e : RtcEngine) (r : Run) :
    Stays e (e.run r).1 ∨ e.closeTask = some .done ∧ SameParts e (e.run r).1 := by
  cases r with
  | enter => exact Or.inl (Or.inl rfl)
  | wait =>
    rw [run]
    split
    next hdone => exact Or.inr ⟨hdone, rfl, rfl, rfl, rfl⟩
    next => exact Or.inl (Stays.refl e)

theorem advance_returned (e : RtcEngine) (ok : Bool) :
    Stays e (e.advance ok) ∨ e.closeTask = some .done ∧ SameParts e (e.advance ok) := by
  rw [advance.eq_def]
  split
  · exact Or.inl (Stays.refl e)
  next stage _ =>
    cases stage with
    | closing r =>
      rw [prepareOffer_closing]
      exact (run_returned e r).imp_right fun h =>
        ⟨h.1, h.2.slot, h.2.stored, h.2.released, h.2.worker⟩
    | failing r =>
      rw [prepareOffer_failing]
      exact (run_returned e r).imp_right fun h =>
        ⟨h.1, h.2.slot, h.2.stored, h.2.released, h.2.worker⟩
    | setConnecting => exact Or.inl (Or.inr ⟨.connecting e.current, by simp, rfl⟩)
    | createPeer =>
      dsimp only [prepareOffer]
      split <;> exact Or.inl (Or.inl rfl)
    | installCommands =>
      dsimp only [prepareOffer]
      split
      · exact Or.inl (Or.inl (abort_log _ _))
      · exact Or.inl (Or.inl rfl)
    | _ => exact Or.inl (Or.inl rfl)
  next =>
    split
    · exact Or.inl (Or.inl rfl)
    · split <;> exact Or.inl (Or.inl rfl)
  next => split <;> exact Or.inl (Or.inl rfl)
  next r _ =>
    exact (run_returned e r).imp_right fun h =>
      ⟨h.1, h.2.slot, h.2.stored, h.2.released, h.2.worker⟩

theorem step_returned (e : RtcEngine) (a : Action)
    (h : (e.step a).log = e.log ++ [.closeReturned]) :
    e.closeTask = some .done ∧ SameParts e (e.step a) := by
  cases a with
  | setIngressGeneration generation =>
    exact absurd h (setIngressGeneration_stays e generation).not_returned
  | takeTransportError => exact absurd h (Stays.not_returned (Or.inl rfl))
  | fire n event => exact absurd h (fire_stays e n event).not_returned
  | apply i => exact absurd h (apply_stays e i).not_returned
  | trySend n command => exact absurd h (trySend_stays e n command).not_returned
  | worker n ok room ends => exact absurd h (workerStep_stays e n ok room ends).not_returned
  | begin call =>
    refine absurd h (Stays.not_returned (Or.inl ?_))
    rw [step, begin]
    split <;> rfl
  | advance ok => exact (advance_returned e ok).resolve_left fun hs => hs.not_returned h
  | cancel =>
    refine absurd h (Stays.not_returned (Or.inl ?_))
    rw [step, cancel]
    split
    · rfl
    · split <;> rfl
  | cleanup => exact absurd h (cleanup_stays e).not_returned

/-- Whenever a `close` returns, in whatever run: everything that any `prepare_offer`
stored by then has been taken out of the engine and is closed or joined, and no
command worker runs. -/
theorem close_complete (as : List Action) (a : Action)
    (h : (Runs.run step new (as ++ [a])).log = (Runs.run step new as).log ++ [.closeReturned]) :
    (∀ x ∈ (Runs.run step new (as ++ [a])).stored, x ∈ (Runs.run step new (as ++ [a])).released) ∧
    (∀ k, (Runs.run step new (as ++ [a])).slot k = none) ∧
    ∀ n w, (Runs.run step new (as ++ [a])).worker n = some w → w.stage = .stopped := by
  rw [Runs.run_concat] at h ⊢
  have ht := run_tidy_new as
  obtain ⟨hdone, hsame⟩ := step_returned _ a h
  rw [hsame.slot, hsame.stored, hsame.released, hsame.worker]
  exact ⟨ht.all_released (ht.done_slot hdone) (Or.inr hdone), ht.done_slot hdone,
    fun n w => ht.no_worker (ht.done_slot hdone) (Or.inr hdone)⟩

/-- An offer is cancelled when everything is stored.  The close after it is cancelled
while it waits, the cleanup finishes on its own, and another close finds its handle. -/
def adoption : List Action := List.flatten [
  [.begin (.prepareOffer (.closing .enter)), .advance true], List.replicate 9 .cleanup,
  List.replicate 11 (.advance true), [.cancel, .begin (.close .enter), .advance true, .cancel],
  List.replicate 3 .cleanup, [.worker 1 true true true], List.replicate 9 .cleanup,
  [.begin (.close .enter), .advance true]]

/-- That close returns at once, and nothing is left. -/
theorem close_complete_adoption :
    (Runs.run step new (adoption ++ [.advance true])).stored.length = 6 ∧
    ∀ x ∈ (Runs.run step new (adoption ++ [.advance true])).stored,
      x ∈ (Runs.run step new (adoption ++ [.advance true])).released :=
  ⟨by decide +kernel, (close_complete adoption (.advance true) (by decide +kernel)).1⟩

end RtcEngine

end Unitree
