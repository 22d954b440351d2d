/-
A request and the chunks before it.

A chunk message can do more than store its chunk: it takes a slot of the throttle, is
a sign of life, settles a request, or crowds the chunks of other keys out of the
store.  Where those of a key do nothing of the kind, the run without them stays in step
with the run.  What is left to tell the two apart is a transfer that is still stored
when a request registers: it is stored whether or not a request is pending, and a
request that is answered by an unchunked message leaves it behind.

* `handlePayload_sheds` — all that a chunk that is only stored changes;
* `step_twins`, `step_trifling` — what both runs do, and what only one does, keeps them
  in step;
* `run_withoutChunks` — so they are, in the end;
* `earlier_chunks_iff` — a request is unaffected by earlier chunks exactly when it
  finds no transfer under its key;
* `leftover_chunk_mixed` — a response that mixes the chunks of two requests.
-/
import UnitreeWebrtc.Throttle
import UnitreeWebrtc.Twins

namespace Unitree

namespace Service

variable {off : Option String} {s s' t t' : Service}

/-! ### A chunk that is only stored -/

/-- The chunk is stored, or was before, and its transfer goes on waiting. -/
def Waits (env : Env) (a : ChunkAssembler) (message : Value) : Prop :=
  ∃ c index total bytes, chunkView message = some c ∧ c.parse = .ok (index, total, bytes) ∧
    (a.Repeats (incomingKey message) c.schema.path index total bytes env.now ∨
      a.Fits (incomingKey message) c.schema.path index total bytes env.now ∧
        ((a.entry (incomingKey message) c.schema.path total env.now).store index bytes).chunks.size
          ≠ total)

/-- What a chunk message does besides storing its chunk: nothing.  It takes no slot of the
throttle, it is no sign of life, and it settles no request. -/
structure Trifling (env : Env) (s : Service) (payload : DcMessage) (message : Value) : Prop where
  slot : ∀ limit, throttleLimit (strOf message "topic") = some limit →
    env.due limit ((s.lastProcessTime.lookup (strOf message "topic")).getD 0) env.dispatchTime
      = false
  frame : ∀ bytes, payload = .binary bytes → throttleLimit (topicOrType message) = none
  life : ∀ text, payload = .text text → strOf message "type" ≠ DcType.heartbeat ∧
    (strOf message "type" = DcType.validation →
      (message.get "data").bind Value.asStr ≠ some "Validation Ok.")
  request : s.pendingCallbacks.lookup (incomingKey message) = none ∨
    Waits env s.chunkDataStorage message

/-- Only the transfer of `key` is not as it was. -/
structure Sheds (key : String) (s t : Service) : Prop where
  chunks : t.chunkDataStorage.remove key = s.chunkDataStorage.remove key
  rest : Twins none { s with chunkDataStorage := t.chunkDataStorage } t

theorem Sheds.twins {key : String} (h : Sheds key s t) (htwins : Twins (some key) s s') :
    Twins (some key) t s' where
  pending := htwins.pending.trans h.rest.pending.symm
  chunks := htwins.chunks.trans h.chunks.symm
  heard := htwins.heard.trans h.rest.heard.symm
  running := htwins.running.trans h.rest.running.symm
  throttle := htwins.throttle.trans h.rest.throttle.symm
  decoder := htwins.decoder.trans h.rest.decoder.symm
  session := htwins.session.trans h.rest.session.symm
  sequence := htwins.sequence.trans h.rest.sequence.symm
  nextId := htwins.nextId.trans h.rest.nextId.symm
  completions := htwins.completions.trans h.rest.completions.symm

theorem Sheds.then {key : String} (h : Sheds key s t) (ht : Twins none t t') : Sheds key s t' where
  chunks := by
    rw [ht.chunks]
    exact h.chunks
  rest := by
    rw [ht.chunks]
    exact h.rest.trans ht

theorem settle_idle {key : String} (h : s.pendingCallbacks.lookup key = none)
    (answer : PendingCallback → PortResult Value) : s.settle key answer = s := by
  rw [settle, h]

theorem settleChunk_idle {message : Value}
    (h : s.pendingCallbacks.lookup (incomingKey message) = none) (schema : ChunkSchema)
    (result : PortResult (Option (List UInt8))) :
    s.settleChunk message schema result = s ∨ s.settleChunk message schema result =
      { s with chunkDataStorage := s.chunkDataStorage.remove (incomingKey message) } := by
  rcases result with e | _ | bytes
  · exact Or.inr (settle_idle (s := { s with
      chunkDataStorage := s.chunkDataStorage.remove (incomingKey message) }) h _)
  · exact Or.inl rfl
  · refine Or.inl ?_
    simp only [settleChunk]
    split
    · exact settle_idle h _
    · split
      · exact settle_idle h _
      · rfl

theorem runResolve_sheds (env : Env) {message : Value} {c : ChunkView}
    (hvalid : s.chunkDataStorage.Valid) (htype : (message.get "type").isSome)
    (hc : chunkView message = some c)
    (hrequest : s.pendingCallbacks.lookup (incomingKey message) = none ∨
      Waits env s.chunkDataStorage message) :
    Sheds (incomingKey message) s (s.runResolve env message) := by
  have hresolve : s.runResolve env message =
      settleChunk { s with
        chunkDataStorage := (feedChunk env s.chunkDataStorage (incomingKey message) c).2 } message
        c.schema (feedChunk env s.chunkDataStorage (incomingKey message) c).1 := by
    rw [runResolve, if_neg (by simpa [Option.isSome_iff_ne_none] using htype),
      handleChunkedResponse, hc]
    rfl
  have hfed : (feedChunk env s.chunkDataStorage (incomingKey message) c).2.remove
      (incomingKey message) = s.chunkDataStorage.remove (incomingKey message) := by
    rw [feedChunk]
    split
    · rfl
    · exact ChunkAssembler.insert_remove _ _ _ _ _ _ _
  rw [hresolve]
  rcases hrequest with hnone | ⟨c', index, total, bytes, hc', hp, hwaits⟩
  · rcases settleChunk_idle (s := { s with chunkDataStorage :=
        (feedChunk env s.chunkDataStorage (incomingKey message) c).2 }) hnone c.schema
        (feedChunk env s.chunkDataStorage (incomingKey message) c).1 with h | h
    · rw [h]
      exact ⟨hfed, .refl _⟩
    · rw [h]
      exact ⟨(ChunkAssembler.remove_remove _ _).trans hfed, .refl _⟩
  · -- a chunk that waits settles nothing, whether or not somebody does
    obtain rfl : c' = c := Option.some_inj.mp (hc'.symm.trans hc)
    have hnothing : (feedChunk env s.chunkDataStorage (incomingKey message) c').1 = .ok none := by
      rw [feedChunk, hp]
      rcases hwaits with hrepeats | ⟨hfits, hsize⟩
      · exact congrArg Prod.fst (ChunkAssembler.insert_of_repeats hvalid hrepeats)
      · exact congrArg Prod.fst ((ChunkAssembler.insert_of_fits hfits).trans (if_neg hsize))
    rw [hnothing]
    exact ⟨hfed, .refl _⟩

theorem handleTextResponse_trifling (p : Platform) (env : Env) {message : Value}
    (hbeat : strOf message "type" ≠ DcType.heartbeat)
    (hok : strOf message "type" = DcType.validation →
      (message.get "data").bind Value.asStr ≠ some "Validation Ok.") (s : Service) :
    Twins none s (s.handleTextResponse p env message) := by
  simp only [handleTextResponse, if_neg hbeat]
  split
  next hvalidation =>
    rw [handleValidation]
    split
    · exact .refl s
    next key hkey =>
      have hne : key ≠ "Validation Ok." := by
        rintro rfl
        exact hok hvalidation hkey
      rw [if_neg hne]
      exact (twins_flags s _ _ _ _ _).trans (sendValidation_twins p env _ _)
  split
  · exact handleRtcInnerReq_twins env s message
  split
  · exact handleValidationErr_twins p env s message
  · exact .refl s

theorem dispatchSubscription_trifling {env : Env} {message : Value}
    (hslot : ∀ limit, throttleLimit (strOf message "topic") = some limit →
      env.due limit ((s.lastProcessTime.lookup (strOf message "topic")).getD 0) env.dispatchTime
        = false) : Twins none s (s.dispatchSubscription env message) := by
  refine Twins.trans ?_ (dispatchSubscription_twins env s message)
  split
  · exact .refl s
  · rw [shouldProcess]
    split
    · exact .refl s
    next limit hlimit =>
      simp only [hslot limit hlimit, Bool.false_eq_true, if_false]
      exact .refl s

/-- A frame on a topic without a limit is routed without a trace. -/
theorem dealArrayBuffer_unlimited {p : Platform} {env : Env} {bytes : List UInt8} {parsed : Value}
    (h : s.dealArrayBuffer p env bytes = (some parsed, t))
    (hfree : throttleLimit (topicOrType parsed) = none) : t = s := by
  rw [dealArrayBuffer] at h
  split at h
  · exact absurd h (by simp)
  split at h
  · exact absurd h (by simp)
  next frame header body _ =>
    simp only [processBinaryPayload] at h
    split at h
    · exact absurd h (by simp)
    split at h
    · exact absurd h (by simp)
    split at h
    · exact absurd h (by simp)
    split at h
    · exact absurd h (by simp)
    next u hasked =>
      simp only [Prod.mk.injEq, Option.some_inj] at h
      obtain ⟨rfl, rfl⟩ := h
      have hkey : topicOrType (injectBinaryData header body) = topicOrType header := by
        rw [topicOrType, topicOrType, get_injectBinaryData_ne (by decide),
          strOf_congr (get_injectBinaryData_ne (by decide) body)]
      rw [hkey] at hfree
      rw [shouldProcess_unlimited hfree, Prod.mk.injEq] at hasked
      exact hasked.2.symm

/-- All that a chunk of `key` that is only stored changes is the transfer of `key`. -/
theorem handlePayload_sheds {p : Platform} {env : Env} {payload : DcMessage} {message : Value}
    {c : ChunkView} (hvalid : s.chunkDataStorage.Valid)
    (hrouted : routedValue p env s payload = some message)
    (htype : (message.get "type").isSome) (hc : chunkView message = some c)
    (h : Trifling env s payload message) :
    Sheds (incomingKey message) s (s.handlePayload p env payload) := by
  have hresolved := runResolve_sheds env hvalid htype hc h.request
  cases payload with
  | transportFault error => exact absurd hrouted (by simp [routedValue])
  | text text =>
    rw [handlePayload]
    rw [routedValue] at hrouted
    rcases hp : parseJson p.serde (asBytes text) with e | parsed
    · rw [hp] at hrouted
      exact absurd hrouted (by simp)
    · rw [hp] at hrouted
      obtain rfl := Option.some_inj.mp hrouted
      obtain ⟨hbeat, hok⟩ := h.life text rfl
      have hanswered := hresolved.then (handleTextResponse_trifling p env hbeat hok _)
      refine hanswered.then (dispatchSubscription_trifling fun limit hlimit => ?_)
      rw [hanswered.rest.throttle]
      exact h.slot limit hlimit
  | binary bytes =>
    rw [handlePayload]
    rw [routedValue] at hrouted
    rcases hd : s.dealArrayBuffer p env bytes with ⟨_ | parsed, t⟩
    · rw [hd] at hrouted
      exact absurd hrouted (by simp)
    · rw [hd] at hrouted
      obtain rfl := Option.some_inj.mp hrouted
      obtain rfl := dealArrayBuffer_unlimited hd (h.frame bytes rfl)
      refine hresolved.then (dispatchSubscription_trifling fun limit hlimit => ?_)
      rw [hresolved.rest.throttle]
      exact h.slot limit hlimit

end Service

/-! ### Systems in step -/

namespace Sys

open Service

/-- The services are in step, and the same calls wait and have returned. -/
structure Twins (off : Option String) (y y' : Sys) : Prop where
  service : Service.Twins off y.service y'.service
  live : y'.live = y.live
  returned : y'.returned = y.returned

/-- The step processes a chunk of `key`. -/
def chunkOf (p : Platform) (key : String) (y : Sys) : Action → Bool
  | .processIngress env message =>
    message.generation = y.service.sessionId &&
      (routedValue p env y.service message.payload).any fun parsed =>
        (parsed.get "type").isSome && (chunkView parsed).isSome && incomingKey parsed = key
  | _ => false

/-- The actions of a run, but for the chunks of `key`. -/
def withoutChunks (p : Platform) (key : String) : Sys → List Action → List Action
  | _, [] => []
  | y, a :: as =>
    if chunkOf p key y a then withoutChunks p key (y.step p a) as
    else a :: withoutChunks p key (y.step p a) as

/-- What the step does apart from the transfer of `key` does not depend on it: a chunk of
`key` does nothing but store its chunk, a chunk of another key finds as much room as it
would without, and nobody waits for `key` when its transfer expires. -/
def Negligible (p : Platform) (key : String) (y : Sys) : Action → Prop
  | .processIngress env message =>
    message.generation = y.service.sessionId → ∀ parsed c,
      routedValue p env y.service message.payload = some parsed → (parsed.get "type").isSome →
        chunkView parsed = some c →
          (incomingKey parsed = key → Trifling env y.service message.payload parsed) ∧
          (incomingKey parsed ≠ key → ∀ index total bytes, c.parse = .ok (index, total, bytes) →
            y.service.chunkDataStorage.Uncrowded key (incomingKey parsed) bytes)
  | .expireChunks env =>
    key ∈ y.service.chunkDataStorage.expired env.now →
      y.service.pendingCallbacks.lookup key = none
  | _ => True

theorem chunkOf_iff {p : Platform} {key : String} {y : Sys} {env : Env}
    {message : IngressMessage} :
    chunkOf p key y (.processIngress env message) = true ↔
      message.generation = y.service.sessionId ∧ ∃ parsed c,
        routedValue p env y.service message.payload = some parsed ∧
          (parsed.get "type").isSome ∧ chunkView parsed = some c ∧ incomingKey parsed = key := by
  rw [chunkOf, Bool.and_eq_true, decide_eq_true_eq, Option.any_eq_true]
  refine and_congr_right fun _ => ?_
  simp only [Bool.and_eq_true, decide_eq_true_eq, Option.isSome_iff_exists]
  constructor
  · rintro ⟨parsed, hrouted, ⟨htype, c, hc⟩, hkey⟩
    exact ⟨parsed, c, hrouted, htype, hc, hkey⟩
  · rintro ⟨parsed, c, hrouted, htype, hc, hkey⟩
    exact ⟨parsed, hrouted, ⟨htype, c, hc⟩, hkey⟩

variable {p : Platform} {off : Option String} {y y' : Sys} {key : String}

theorem started_congr (h : Twins off y y') {r r' : PortResult (String × ℕ) × Service}
    (hverdict : r'.1 = r.1) (htwins : Service.Twins off r.2 r'.2) :
    Twins off (y.started r) (y'.started r') := by
  rcases r with ⟨e | ⟨key, token⟩, s⟩ <;> rcases r' with ⟨e' | ⟨key', token'⟩, s'⟩
  · exact ⟨htwins, h.live, h.returned⟩
  · exact absurd hverdict (by simp)
  · exact absurd hverdict (by simp)
  · simp only [Except.ok.injEq, Prod.mk.injEq] at hverdict
    obtain ⟨rfl, rfl⟩ := hverdict
    refine ⟨htwins, ?_, h.returned⟩
    exact congrArg (fun live => AList.insert token' key' live) h.live

theorem finish_congr (h : Twins off y y') (token : ℕ) (key : String)
    (result : Option (PortResult Value)) :
    Twins off (y.finish token key result) (y'.finish token key result) :=
  ⟨dropGuard_congr h.service key token, congrArg (AList.erase token) h.live,
    congrArg (· ++ _) h.returned⟩

/-- What both do keeps them in step. -/
theorem step_twins (h : Twins off y y') {a : Action}
    (hkept : ∀ key, off = some key → Negligible p key y a ∧ chunkOf p key y a = false) :
    Twins off (y.step p a) (y'.step p a) := by
  have hs := h.service
  cases a with
  | publish fits env topic data msgType timeout =>
    obtain ⟨hverdict, htwins⟩ := publish_congr hs fits env topic data msgType timeout
    exact started_congr h hverdict htwins
  | publishRequestNew fits env topic options timeout =>
    obtain ⟨hverdict, htwins⟩ := publishRequestNew_congr hs p fits env topic options timeout
    exact started_congr h hverdict htwins
  | publishWithoutCallback env topic data msgType =>
    exact ⟨hs.after (sendMessageLocked_twins env _ _ _ _) (sendMessageLocked_twins env _ _ _ _),
      h.live, h.returned⟩
  | subscribe env topic =>
    refine ⟨?_, h.live, h.returned⟩
    simp only [step, subscribe_eq]
    exact hs.after ((sendMessageLocked_twins env _ _ _ _).trans (twins_flags _ _ _ _ _ _))
      ((sendMessageLocked_twins env _ _ _ _).trans (twins_flags _ _ _ _ _ _))
  | unsubscribe env topic =>
    refine ⟨?_, h.live, h.returned⟩
    simp only [step, unsubscribe_eq]
    exact hs.after ((sendMessageLocked_twins env _ _ _ _).trans (twins_flags _ _ _ _ _ _))
      ((sendMessageLocked_twins env _ _ _ _).trans (twins_flags _ _ _ _ _ _))
  | poll token =>
    simp only [step, answerOf, h.live, hs.completions]
    split
    · exact finish_congr h _ _ _
    · exact h
  | giveUp token error =>
    simp only [step, h.live]
    split
    · exact finish_congr h _ _ _
    · exact h
  | processIngress env message =>
    refine ⟨processIngress_congr hs p env message fun hgen parsed hrouted => ?_, h.live,
      h.returned⟩
    intro key hkey htype c index total bytes hc hp
    obtain ⟨hnegligible, hnot⟩ := hkept key hkey
    have hne : incomingKey parsed ≠ key := by
      intro heq
      rw [chunkOf_iff.mpr ⟨hgen, parsed, c, hrouted, htype, hc, heq⟩] at hnot
      exact absurd hnot (by simp)
    exact ⟨hne, (hnegligible hgen parsed c hrouted htype hc).2 hne index total bytes hp⟩
  | expireChunks env =>
    exact ⟨expireChunks_congr hs env fun key hkey => (hkept key hkey).1, h.live, h.returned⟩
  | heartbeatTick env epoch => exact ⟨heartbeatTick_congr hs env epoch, h.live, h.returned⟩
  | store which =>
    refine ⟨?_, h.live, h.returned⟩
    cases which with
    | heartbeatRunning =>
      exact ⟨hs.pending, hs.chunks, hs.heard, rfl, hs.throttle, hs.decoder, hs.session,
        hs.sequence, hs.nextId, hs.completions⟩
    | heartbeatStopTx => exact hs.after (twins_flags _ _ _ _ _ none) (twins_flags _ _ _ _ _ none)
    | networkProbeRunning =>
      exact hs.after (twins_flags _ _ _ _ false _) (twins_flags _ _ _ _ false _)
    | dataChannelOpened =>
      exact hs.after (twins_flags _ _ _ false _ _) (twins_flags _ _ _ false _ _)
  | startNewSession => exact ⟨startNewSession_congr hs, h.live, h.returned⟩

/-- A chunk that only one of them processes does, too. -/
theorem step_trifling (h : Twins (some key) y y') {a : Action}
    (hvalid : y.service.chunkDataStorage.Valid) (hnegligible : Negligible p key y a)
    (hchunk : chunkOf p key y a = true) : Twins (some key) (y.step p a) y' := by
  cases a with
  | processIngress env message =>
    obtain ⟨hgen, parsed, c, hrouted, htype, hc, hkey⟩ := chunkOf_iff.mp hchunk
    have htrifling := (hnegligible hgen parsed c hrouted htype hc).1 hkey
    have hsheds := handlePayload_sheds hvalid hrouted htype hc htrifling
    rw [hkey] at hsheds
    refine ⟨?_, h.live, h.returned⟩
    rw [step, processIngress, if_neg (not_not.mpr hgen)]
    exact hsheds.twins h.service
  | _ => exact absurd hchunk (by simp [chunkOf])

/-- Where every step is negligible, the run and the run without the chunks of `key` stay
in step. -/
theorem run_withoutChunks : ∀ (as : List Action) {y y' : Sys}, Twins (some key) y y' →
    y.service.chunkDataStorage.Valid →
    (∀ q a, q ++ [a] <+: as → Negligible p key (Runs.run (step p) y q) a) →
      Twins (some key) (Runs.run (step p) y as)
        (Runs.run (step p) y' (withoutChunks p key y as)) := by
  intro as
  induction as with
  | nil => intro y y' h _ _; exact h
  | cons a rest ih =>
    intro y y' h hvalid hnegligible
    have ha : Negligible p key y a := hnegligible [] a (List.prefix_append [a] rest)
    have hrest : ∀ q b, q ++ [b] <+: rest →
        Negligible p key (Runs.run (step p) (y.step p a) q) b :=
      fun q b hq => hnegligible (a :: q) b (List.cons_prefix_cons.mpr ⟨rfl, hq⟩)
    have hvalid' := step_chunks_valid p y a hvalid
    rw [Runs.run_cons, withoutChunks]
    split
    next hchunk => exact ih (step_trifling h hvalid ha hchunk) hvalid' hrest
    next hchunk =>
      refine ih (step_twins h fun key' hkey => ?_) hvalid' hrest
      obtain rfl := Option.some_inj.mp hkey
      exact ⟨ha, by simpa using hchunk⟩

/-- Twins without a difference stay twins, whatever happens. -/
theorem run_twins (h : Twins none y y') (as : List Action) :
    Twins none (Runs.run (step p) y as) (Runs.run (step p) y' as) := by
  induction as generalizing y y' with
  | nil => exact h
  | cons a rest ih => exact ih (step_twins h fun key hkey => absurd hkey (by simp))

theorem registers_congr (h : Twins off y y') (a : Action) :
    registers p y' a = registers p y a := by
  cases a with
  | publish fits env topic data msgType timeout =>
    rw [registers, registers, (publish_congr h.service fits env topic data msgType timeout).1]
  | publishRequestNew fits env topic options timeout =>
    rw [registers, registers,
      (publishRequestNew_congr h.service p fits env topic options timeout).1]
  | _ => rfl

/-- Twins but for the transfer of a key are twins when there is none. -/
theorem Twins.complete (h : Twins (some key) y y')
    (hnone : y.service.chunkDataStorage.transfers.lookup key = none) : Twins none y y' := by
  have hs := h.service
  refine ⟨{ hs with chunks := hs.chunks.trans ?_, completions := hs.completions }, h.live,
    h.returned⟩
  exact congrArg ChunkAssembler.mk (Table.erase_of_lookup_none hnone)

/-- What became of the call of a token: its answer, and what it returned. -/
def outcome (y : Sys) (token : ℕ) : Option (PortResult Value) × List (PortResult Value) :=
  (answerOf y.service token, (y.returned.filter fun e => e.1 = token).map fun e => e.2)

theorem Twins.outcome_eq (h : Twins off y y') (token : ℕ) : y'.outcome token = y.outcome token := by
  rw [outcome, outcome, answerOf, answerOf, h.service.completions, h.returned]

theorem answerOf_isSome {s : Service} {token : ℕ} :
    (answerOf s token).isSome = true ↔ ∃ r, (token, r) ∈ s.completions := by
  rw [answerOf, Option.isSome_map, List.find?_isSome]
  constructor
  · rintro ⟨⟨t, r⟩, hmem, ht⟩
    obtain rfl : t = token := by simpa using ht
    exact ⟨r, hmem⟩
  · rintro ⟨r, hmem⟩
    exact ⟨(token, r), hmem, by simp⟩

theorem lookup_failEach_of_notMem {key : String} : ∀ {keys : List String}, key ∉ keys →
    ∀ s : Service,
      (keys.foldl (fun s key => s.failPending key "Chunk assembly deadline expired") s
        ).pendingCallbacks.lookup key = s.pendingCallbacks.lookup key := by
  intro keys
  induction keys with
  | nil => intro _ s; rfl
  | cons k rest ih =>
    intro h s
    obtain ⟨hne, hrest⟩ := not_or.mp (mt List.mem_cons.mpr h)
    rw [List.foldl_cons, ih hrest, failPending, settle]
    split
    · rfl
    · exact AList.lookup_erase_ne hne

/-- A transfer that is only there on one side makes a difference to a waiting call: its
expiry. -/
theorem expireChunks_differ {key : String} {t : Transfer} (cb : PendingCallback) (hy : Inv y)
    (hy' : Inv y') (h : Twins (some key) y y')
    (ht : y.service.chunkDataStorage.transfers.lookup key = some t)
    (hcb : y.service.pendingCallbacks.lookup key = some cb) :
    (y.step p (.expireChunks (.at t.deadline))).outcome cb.token
      ≠ (y'.step p (.expireChunks (.at t.deadline))).outcome cb.token := by
  have hexp : key ∈ y.service.chunkDataStorage.expired (Env.at t.deadline).now :=
    ChunkAssembler.mem_expired.mpr ⟨t, ht, le_refl _⟩
  have hanswered : (answerOf (y.step p (.expireChunks (.at t.deadline))).service cb.token).isSome :=
    answerOf_isSome.mpr (expireChunks_completes p hy hcb hexp).2
  -- on the other side nothing expires, and the call still waits
  have hkept : key ∉ y'.service.chunkDataStorage.expired (Env.at t.deadline).now := by
    rw [h.service.chunks, ChunkAssembler.without, ChunkAssembler.expired_remove]
    simp
  have hcb' : (y'.step p (.expireChunks (.at t.deadline))).service.pendingCallbacks.lookup key
      = some cb := by
    refine (lookup_failEach_of_notMem hkept _).trans ?_
    rw [← hcb, ← h.service.pending]
  have hzero := (step_inv p y' (.expireChunks (.at t.deadline)) hy').desk.open_ hcb'
  have hnone : ¬ (answerOf (y'.step p (.expireChunks (.at t.deadline))).service
      cb.token).isSome := by
    rw [answerOf_isSome]
    rintro ⟨r, hr⟩
    rw [Desk.answers, List.length_eq_zero_iff, List.filter_eq_nil_iff] at hzero
    exact hzero _ hr (by simp)
  intro heq
  rw [show answerOf (y'.step p (.expireChunks (.at t.deadline))).service cb.token
    = answerOf (y.step p (.expireChunks (.at t.deadline))).service cb.token
    from (congrArg Prod.fst heq).symm] at hnone
  exact hnone hanswered

/-- **Requests and earlier chunks.**  What a request that registers is decided by came
after it, exactly when no transfer is stored under its key at that moment.  And where all
that the chunks of its key did before was to be stored, it registers in the run without
them too, and it fares there as it does, whatever comes after, exactly then. -/
theorem earlier_chunks_iff (p : Platform) (sessionId requestSequence : ℕ)
    (before : List Action) (call : Action) (key : String) (token : ℕ)
    (hcall : registers p (Runs.run (step p) (init sessionId requestSequence) before) call
      = some (key, token)) :
    let y := Runs.run (step p) (init sessionId requestSequence) before
    let y' := Runs.run (step p) (init sessionId requestSequence)
      (withoutChunks p key (init sessionId requestSequence) before)
    (Unaffected p (y.step p call) key token ↔
      y.service.chunkDataStorage.transfers.lookup key = none) ∧
    ((∀ q a, q ++ [a] <+: before →
        Negligible p key (Runs.run (step p) (init sessionId requestSequence) q) a) →
      registers p y' call = some (key, token) ∧
      ((∀ after, (Runs.run (step p) (y.step p call) after).outcome token
          = (Runs.run (step p) (y'.step p call) after).outcome token) ↔
        y.service.chunkDataStorage.transfers.lookup key = none)) := by
  intro y y'
  refine ⟨unaffected_iff p sessionId requestSequence before call key token hcall,
    fun hnegligible => ?_⟩
  have hinit : Twins (some key) (init sessionId requestSequence)
      (init sessionId requestSequence) :=
    ⟨⟨rfl, rfl, rfl, rfl, rfl, rfl, rfl, rfl, rfl, rfl⟩, rfl, rfl⟩
  have htwins : Twins (some key) y y' :=
    run_withoutChunks before hinit ChunkAssembler.empty_valid hnegligible
  refine ⟨(registers_congr htwins call).trans hcall, ?_⟩
  obtain ⟨s', hstep, hchunks, cb, hcb, rfl⟩ := registers_spec hcall
  have hcalled : Twins (some key) (y.step p call) (y'.step p call) := by
    refine step_twins htwins fun key' _ => ?_
    cases call with
    | publish => exact ⟨trivial, rfl⟩
    | publishRequestNew => exact ⟨trivial, rfl⟩
    | _ => exact absurd hcall (by simp [registers])
  have hstored : (y.step p call).service.chunkDataStorage = y.service.chunkDataStorage := by
    rw [hstep]
    exact hchunks
  constructor
  · intro hsame
    rcases ht : y.service.chunkDataStorage.transfers.lookup key with _ | t
    · rfl
    · exfalso
      refine expireChunks_differ (p := p) (t := t) cb (step_inv p y call (run_inv p _ _ _))
        (step_inv p y' call (run_inv p _ _ _)) hcalled ?_ ?_
        (hsame [.expireChunks (.at t.deadline)])
      · rw [hstored]
        exact ht
      · rw [hstep]
        exact hcb
  · intro hnone after
    refine ((run_twins (hcalled.complete ?_) after).outcome_eq cb.token).symm
    rw [hstored]
    exact hnone

/-! ### A stray chunk, and one that was left behind -/

/-- A plain answer with the UUID `k`. -/
def plainText : String := "\x7b\"type\":\"res\",\"data\":\x7b\"uuid\":\"k\"\x7d\x7d"

def plainTree : Syntax :=
  .object [("type", .string "res"), ("data", .object [("uuid", .string "k")])]

def mixPlatform : Platform :=
  .reading [(halfText 1 "A", halfTree 1 "A"), (halfText 2 "B", halfTree 2 "B"),
    (plainText, plainTree)]

def strayValue : Value :=
  .object [("data", .object [("content_info", chunkInfo 1), ("data", .string "A"),
    ("uuid", .string "k")]), ("type", .string "res")]

/-- A chunk that nobody asked for, and its expiry. -/
def strayed : List Action :=
  [.processIngress (.at 0) ⟨3, .text (halfText 1 "A")⟩, .expireChunks (.at transferTtl)]

set_option maxRecDepth 8000 in
/-- A request under `k` fares as if the stray chunk had not come. -/
theorem earlier_chunks_iff_stray :
    let y := Runs.run (step mixPlatform) (init 3 0) strayed
    let y' := Runs.run (step mixPlatform) (init 3 0) [.expireChunks (.at transferTtl)]
    Unaffected mixPlatform (y.step mixPlatform askAgain) "k" 0 ∧
      ∀ after, (Runs.run (step mixPlatform) (y.step mixPlatform askAgain) after).outcome 0
        = (Runs.run (step mixPlatform) (y'.step mixPlatform askAgain) after).outcome 0 := by
  intro y y'
  obtain ⟨hiff, hcompare⟩ := earlier_chunks_iff mixPlatform 3 0 strayed askAgain "k" 0 rfl
  refine ⟨hiff.mpr rfl, (hcompare fun q a hq => ?_).2.mpr rfl⟩
  rcases q with _ | ⟨b, q⟩
  · -- the chunk: nobody waits for it, and it is not throttled
    obtain ⟨rfl, -⟩ := List.cons_prefix_cons.mp hq
    intro _ parsed c hrouted _ _
    have hparsed : routedValue mixPlatform (.at 0) (init 3 0).service (.text (halfText 1 "A"))
        = some strayValue := rfl
    obtain rfl : parsed = strayValue := Option.some_inj.mp (hrouted.symm.trans hparsed)
    have hfree : throttleLimit (strOf strayValue "topic") = none := by decide
    refine ⟨fun _ => ⟨fun limit hlimit => absurd (hfree.symm.trans hlimit) (by simp),
      fun bytes hb => ?_,
      fun _ _ => ⟨by decide, fun h => absurd h (by decide)⟩, Or.inl rfl⟩,
      fun hne => absurd rfl hne⟩
    exact absurd hb (by simp)
  · obtain ⟨rfl, hrest⟩ := List.cons_prefix_cons.mp hq
    rcases q with _ | ⟨b, q⟩
    · obtain ⟨rfl, -⟩ := List.cons_prefix_cons.mp hrest
      intro _
      rfl
    · obtain ⟨-, hrest⟩ := List.cons_prefix_cons.mp hrest
      exact absurd hrest (by simp)

/-- A request answered by an unchunked message after its first chunk. -/
def firstAsked : List Action :=
  [askAgain, .processIngress (.at 1) ⟨3, .text (halfText 1 "A")⟩,
    .processIngress (.at 2) ⟨3, .text plainText⟩, .poll 0]

/-- The answer to the first request, and the one the second is sent. -/
def plainValue : Value :=
  .object [("data", .object [("uuid", .string "k")]), ("type", .string "res")]

def mixedValue : Value :=
  .object [("data", .object [("content_info", chunkInfo 2),
    ("data", bytesToJsonArray [65, 66]), ("uuid", .string "k")]), ("type", .string "res")]

set_option maxRecDepth 8000 in
/-- The second request under `k` finds the chunk the first left behind, and is
sent a response made of that chunk and of its own.  Without the chunk it would still
wait. -/
theorem leftover_chunk_mixed :
    let y := Runs.run (step mixPlatform) (init 3 0) firstAsked
    let y₁ := y.step mixPlatform askAgain
    let y' := Runs.run (step mixPlatform) (init 3 0)
      (withoutChunks mixPlatform "k" (init 3 0) firstAsked)
    let last := Action.processIngress (.at 3) ⟨3, .text (halfText 2 "B")⟩
    registers mixPlatform y askAgain = some ("k", 1) ∧
      y.service.chunkDataStorage.chunkAt "k" 1 = some [65] ∧
      (y₁.step mixPlatform last).outcome 1 = (some (.ok mixedValue), []) ∧
      ¬ Unaffected mixPlatform y₁ "k" 1 ∧
      registers mixPlatform y' askAgain = some ("k", 1) ∧
      ((y'.step mixPlatform askAgain).step mixPlatform last).outcome 1 = (none, []) := by
  intro y y₁ y' last
  have hfound : y₁.service.chunkDataStorage.chunkAt "k" 1 = some [65] := by rfl
  have hbefore : y₁.service.completions = [(0, .ok plainValue)] := by rfl
  have hafter : (y₁.step mixPlatform last).service.completions
      = [(0, .ok plainValue), (1, .ok mixedValue)] := by rfl
  have hsent : (1, .ok mixedValue) ∈ (y₁.step mixPlatform last).service.completions := by
    rw [hafter]
    exact List.mem_cons_of_mem _ (List.mem_singleton_self _)
  refine ⟨by rfl, by rfl, by rfl, ?_, by rfl, by rfl⟩
  intro h
  have hjudges : Judges mixPlatform y₁ last "k" :=
    Or.inl ⟨_, _, _, rfl, rfl, rfl, rfl, rfl, rfl⟩
  have hcompletes : Completes mixPlatform y₁ last 1 := by
    constructor
    · intro r hr
      rw [hbefore] at hr
      exact absurd hr (by simp)
    · exact ⟨_, hsent⟩
  -- nothing was processed since the second request, so nothing put the chunk in
  obtain ⟨pre, env, message, post, hnil, -⟩ := h [] last hjudges hcompletes 1 [65] hfound
  exact absurd hnil (by simp)

end Sys

end Unitree
