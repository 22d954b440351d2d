/-
Binary messages against text messages (`process_ingress`, `process_binary_payload`,
`dispatch_subscription`).

A frame that is not for the LiDAR decoder becomes a JSON value with its bytes put
in, and could be routed like a text with that value: resolve a request, store a
chunk, dispatch to a subscription.  The throttle comes in between.  The text path
asks it once, for the topic, when the message is dispatched.  The binary path asks
it before the message is resolved, and then again when it is dispatched.

* `SameEffect` — the frame did to the service what the text would have done;
* `runResolve_eq_self` — a message that resolves nothing and stores nothing;
* `binary_as_text_iff` — the frames that are routed like text;
* `vid_frame_lost` — a frame that is not.
-/
import UnitreeWebrtc.Reassembly

namespace Unitree

/-- A frame is longer than its body by at most the longest header. -/
theorem Framing.parse_length {serde : Serde} {buffer body : List UInt8} {frame : BinaryFrame}
    {header : Value} (h : parse serde buffer = .ok (frame, header, body)) :
    buffer.length ≤ 12 + maxBinaryHeaderBytes + body.length := by
  rw [parse] at h
  split at h
  · exact absurd h (by simp)
  next prefix4 _ =>
    split at h
    · exact absurd h (by simp)
    next frame' start length hspan =>
      have hstart : start ≤ 12 := by
        rw [headerSpan] at hspan
        split at hspan
        · split at hspan
          · exact absurd hspan (by simp)
          · simp only [Except.ok.injEq, Prod.mk.injEq] at hspan
            omega
        · simp only [Except.ok.injEq, Prod.mk.injEq] at hspan
          omega
      split at h
      · exact absurd h (by simp)
      next hshort =>
        split at h
        · exact absurd h (by simp)
        split at h
        · exact absurd h (by simp)
        split at h
        · exact absurd h (by simp)
        · simp only [Except.ok.injEq, Prod.mk.injEq] at h
          rw [← h.2.2, List.length_drop]
          omega

namespace Service

variable {p : Platform} {env : Env} {s : Service}

/-! ### What a message resolves -/

/-- Resolving does not look at the throttle. -/
theorem settle_lastProcessTime (s : Service) (key : String)
    (answer : PendingCallback → PortResult Value) (times : Table String ℚ) :
    settle { s with lastProcessTime := times } key answer =
      { s.settle key answer with lastProcessTime := times } := by
  simp only [settle]
  cases s.pendingCallbacks.lookup key <;> rfl

theorem settleChunk_lastProcessTime (s : Service) (message : Value) (schema : ChunkSchema)
    (result : PortResult (Option (List UInt8))) (times : Table String ℚ) :
    settleChunk { s with lastProcessTime := times } message schema result =
      { s.settleChunk message schema result with lastProcessTime := times } := by
  rcases result with e | _ | bytes
  · exact settle_lastProcessTime { s with chunkDataStorage := _ } _ _ times
  · rfl
  · simp only [settleChunk]
    split
    · exact settle_lastProcessTime s _ _ times
    cases Value.setPath schema.tokens (bytesToJsonArray bytes) message with
    | some merged => exact settle_lastProcessTime s _ _ times
    | none => rfl

theorem runResolve_lastProcessTime (env : Env) (s : Service) (message : Value)
    (times : Table String ℚ) :
    runResolve env { s with lastProcessTime := times } message =
      { s.runResolve env message with lastProcessTime := times } := by
  simp only [runResolve]
  split
  · rfl
  simp only [handleChunkedResponse]
  cases chunkView message with
  | none => exact settle_lastProcessTime s _ _ times
  | some c =>
    let fed := feedChunk env s.chunkDataStorage (incomingKey message) c
    exact settleChunk_lastProcessTime { s with chunkDataStorage := fed.2 } message c.schema
      fed.1 times

/-- The index and the count of a chunk are in range. -/
def InRange (index total : ℕ) : Prop := 0 < total ∧ total ≤ maxChunks ∧ 0 < index ∧ index ≤ total

/-- A chunk of a key without a transfer opens one, which waits for more chunks. -/
def Opens (a : ChunkAssembler) (index total : ℕ) (bytes : List UInt8) : Prop :=
  InRange index total ∧ total ≠ 1 ∧ a.transfers.size < maxTransfers ∧
    bytes.length ≤ maxTransferBytes ∧ bytes.length ≤ maxRetainedBytes - a.retained

/-- There is nothing to resolve or to store: the message has no type; or it is no chunk,
and no request waits for it; or it is a chunk that is stored already; or it is a chunk
that no request waits for, of a key without a transfer, and does not open one. -/
def Unaddressed (env : Env) (s : Service) (message : Value) : Prop :=
  (message.get "type").isNone ∨
    match chunkView message with
    | none => s.pendingCallbacks.lookup (incomingKey message) = none
    | some c =>
      match c.parse with
      | .error _ =>
        s.chunkDataStorage.transfers.lookup (incomingKey message) = none ∧
          s.pendingCallbacks.lookup (incomingKey message) = none
      | .ok (index, total, bytes) =>
        InRange index total ∧ s.chunkDataStorage.Repeats (incomingKey message) c.schema.path
            index total bytes env.now ∨
          s.chunkDataStorage.transfers.lookup (incomingKey message) = none ∧
            s.pendingCallbacks.lookup (incomingKey message) = none ∧
            ¬ Opens s.chunkDataStorage index total bytes

/-- The three things that the two paths are compared in. -/
structure SameEffect (s s' : Service) : Prop where
  pending : s'.pendingCallbacks = s.pendingCallbacks
  chunks : s'.chunkDataStorage = s.chunkDataStorage
  effects : s'.effects = s.effects

/-- Settling shows in the effects, unless there is no such request. -/
theorem sameEffect_settle (chunks : ChunkAssembler) (key : String)
    {answer : PendingCallback → PortResult Value} :
    SameEffect s (settle { s with chunkDataStorage := chunks } key answer) ↔
      chunks = s.chunkDataStorage ∧ s.pendingCallbacks.lookup key = none := by
  rw [settle]
  cases s.pendingCallbacks.lookup key with
  | none => exact ⟨fun h => ⟨h.chunks, rfl⟩, fun h => ⟨rfl, h.1, rfl⟩⟩
  | some callback =>
    constructor
    · intro h
      have heffects := h.effects
      simp [emit] at heffects
    · rintro ⟨-, h⟩
      exact absurd h (by simp)

/-- A whole transfer settles its request. -/
theorem settleChunk_whole {message : Value} {c : ChunkView} {chunks chunks' : ChunkAssembler}
    {bytes : List UInt8} (hview : chunkView message = some c)
    (hfed : feedChunk env chunks (incomingKey message) c = (.ok (some bytes), chunks'))
    (s : Service) : ∃ answer,
      s.settleChunk message c.schema (.ok (some bytes)) =
        s.settle (incomingKey message) answer := by
  rw [feedChunk] at hfed
  split at hfed
  · exact absurd hfed (by simp)
  next index total piece hparse =>
    obtain ⟨merged, hmerged⟩ := chunkView_setPath hview hparse (bytesToJsonArray bytes)
    simp only [settleChunk, hmerged]
    split
    · exact ⟨_, rfl⟩
    · exact ⟨_, rfl⟩

/-- A chunk that fits, of a key without a transfer. -/
theorem opens_iff {a : ChunkAssembler} {key schema : String} {index total now : ℕ}
    {bytes : List UInt8} (hnone : a.transfers.lookup key = none) :
    Opens a index total bytes ↔ a.Fits key schema index total bytes now ∧ total ≠ 1 := by
  have hentry : a.entry key schema total now = Transfer.start schema total now := by
    rw [ChunkAssembler.entry, hnone]
    rfl
  constructor
  · rintro ⟨⟨hpos, hle, hindex, hindex'⟩, hne, hroom, hbytes, hretained⟩
    refine ⟨⟨hpos, hle, hindex, hindex', by rw [hentry]; rfl, by rw [hentry]; rfl,
      by rw [hentry]; exact AList.lookup_empty index, fun t ht => ?_, fun _ => hroom, ?_,
      hretained⟩, hne⟩
    · exact absurd (hnone.symm.trans ht) (by simp)
    · rw [hentry]
      exact hbytes
  · rintro ⟨h, hne⟩
    have hbytes := h.transfer_bytes
    rw [hentry] at hbytes
    exact ⟨⟨h.total_pos, h.total_le, h.index_pos, h.index_le⟩, hne, h.room hnone, hbytes,
      h.retained_bytes⟩

/-- A chunk that is stored already is admitted as such. -/
theorem insert_repeats {a : ChunkAssembler} {key schema : String} {index total now : ℕ}
    {bytes : List UInt8} (hrange : InRange index total)
    (h : a.Repeats key schema index total bytes now) :
    a.insert key schema index total bytes now = (.ok none, a) := by
  obtain ⟨t, ht, rfl, rfl, hstored, halive⟩ := h
  obtain ⟨hpos, hle, hindex, hindex'⟩ := hrange
  have hcheck : a.check key t.schema index t.total bytes now = .ok .duplicate := by
    rw [ChunkAssembler.check, if_neg (by omega), ht]
    simp only [hstored]
    rw [if_neg (by omega), if_neg (not_not.mpr rfl), if_neg (not_not.mpr rfl)]
    simp
  rw [ChunkAssembler.insert, ChunkAssembler.insertChecked, hcheck]

/-- Only such a chunk is. -/
theorem inRange_of_repeats {a : ChunkAssembler} {key schema : String} {index total now : ℕ}
    {bytes : List UInt8} (h : a.insert key schema index total bytes now = (.ok none, a)) :
    InRange index total := by
  by_contra hrange
  have hcheck : a.check key schema index total bytes now =
      .error "Invalid chunk count or index" := by
    rw [ChunkAssembler.check, if_pos]
    by_contra hin
    exact hrange (by rw [InRange]; omega)
  rw [ChunkAssembler.insert, ChunkAssembler.insertChecked, hcheck] at h
  exact absurd (congrArg Prod.fst h) (by simp)

/-- The first chunk of a transfer is its only one. -/
theorem size_first {a : ChunkAssembler} {key schema : String} {index total now : ℕ}
    {bytes : List UInt8} (hnone : a.transfers.lookup key = none) :
    ((a.entry key schema total now).store index bytes).chunks.size = 1 := by
  rw [ChunkAssembler.entry, hnone]
  rfl

theorem remove_eq_self {a : ChunkAssembler} {key : String} :
    a.remove key = a ↔ a.transfers.lookup key = none := by
  constructor
  · intro h
    rw [← h, ChunkAssembler.remove, AList.lookup_erase]
  · intro h
    rw [ChunkAssembler.remove, Table.erase_of_lookup_none h]

/-- What feeding a chunk leaves as it was. -/
theorem sameEffect_fed {message : Value} {c : ChunkView} {index total : ℕ} {bytes : List UInt8}
    (hview : chunkView message = some c) (hparse : c.parse = .ok (index, total, bytes)) :
    let key := incomingKey message
    let fed := s.chunkDataStorage.insert key c.schema.path index total bytes env.now
    SameEffect s (settleChunk { s with chunkDataStorage := fed.2 } message c.schema fed.1) ↔
      InRange index total ∧
          s.chunkDataStorage.Repeats key c.schema.path index total bytes env.now ∨
        s.chunkDataStorage.transfers.lookup key = none ∧
          s.pendingCallbacks.lookup key = none ∧ ¬ Opens s.chunkDataStorage index total bytes := by
  intro key fed
  have hfed : feedChunk env s.chunkDataStorage key c = fed := by
    rw [feedChunk, hparse]
  rcases s.chunkDataStorage.insert_cases key c.schema.path index total bytes env.now with
    ⟨e, he⟩ | ⟨hrepeats, he⟩ | ⟨hfits, hmore, he⟩ | ⟨hfits, hwhole, he⟩
  · -- refused
    have hrefused : ¬ (InRange index total ∧
        s.chunkDataStorage.Repeats key c.schema.path index total bytes env.now) := by
      rintro ⟨hrange, hrepeats⟩
      rw [insert_repeats hrange hrepeats] at he
      exact absurd (congrArg Prod.fst he) (by simp)
    rw [or_iff_right hrefused, show fed = _ from he]
    refine (sameEffect_settle (s := s) ((s.chunkDataStorage.remove key).remove key) key).trans ?_
    constructor
    · rintro ⟨hchunks, hpending⟩
      have hnone : s.chunkDataStorage.transfers.lookup key = none := by
        rw [← hchunks, ChunkAssembler.remove, AList.lookup_erase]
      refine ⟨hnone, hpending, fun hopens => ?_⟩
      have hfits : s.chunkDataStorage.Fits key c.schema.path index total bytes env.now :=
        ((opens_iff hnone).mp hopens).1
      have hok := ChunkAssembler.insert_of_fits hfits
      rw [he] at hok
      split at hok <;> exact absurd (congrArg Prod.fst hok) (by simp)
    · rintro ⟨hnone, hpending, -⟩
      rw [remove_eq_self.mpr hnone, remove_eq_self.mpr hnone]
      exact ⟨rfl, hpending⟩
  · -- stored already
    rw [show fed = _ from he]
    exact iff_of_true ⟨rfl, rfl, rfl⟩ (.inl ⟨inRange_of_repeats he, hrepeats⟩)
  · -- stored now: the chunk was not there before
    have hchanged : (⟨s.chunkDataStorage.transfers.insert key
        ((s.chunkDataStorage.entry key c.schema.path total env.now).store index bytes)⟩ :
        ChunkAssembler) ≠ s.chunkDataStorage := by
      intro hsame
      have hlookup := congrArg (fun a : ChunkAssembler => a.transfers.lookup key) hsame
      rw [AList.lookup_insert] at hlookup
      have hentry : s.chunkDataStorage.entry key c.schema.path total env.now =
          (s.chunkDataStorage.entry key c.schema.path total env.now).store index bytes :=
        congrArg (·.getD (Transfer.start c.schema.path total env.now)) hlookup.symm
      have hnot := hfits.not_stored
      rw [hentry, Transfer.store, AList.lookup_insert] at hnot
      exact absurd hnot (by simp)
    rw [show fed = _ from he]
    refine iff_of_false (fun h => hchanged h.chunks) ?_
    rintro (⟨hrange, hrepeats⟩ | ⟨hnone, -, hopens⟩)
    · rw [insert_repeats hrange hrepeats] at he
      exact hchanged (congrArg Prod.snd he).symm
    · refine hopens ((opens_iff hnone).mpr ⟨hfits, fun hone => hmore ?_⟩)
      rw [hone, size_first hnone]
  · -- complete
    obtain ⟨answer, hanswer⟩ := settleChunk_whole hview (hfed.trans he)
      { s with chunkDataStorage := s.chunkDataStorage.remove key }
    have hwaits : ¬ (InRange index total ∧
        s.chunkDataStorage.Repeats key c.schema.path index total bytes env.now) := by
      rintro ⟨hrange, hrepeats⟩
      rw [insert_repeats hrange hrepeats] at he
      exact absurd (congrArg Prod.fst he) (by simp)
    rw [or_iff_right hwaits, show fed = _ from he]
    dsimp only
    rw [hanswer, sameEffect_settle, remove_eq_self]
    refine and_congr_right fun hnone => (and_iff_left fun hopens => ?_).symm
    refine ((opens_iff hnone).mp hopens :
      s.chunkDataStorage.Fits key c.schema.path index total bytes env.now ∧ _).2 ?_
    rw [← hwhole, size_first hnone]

/-- A message does nothing to requests and chunks exactly if it is unaddressed. -/
theorem runResolve_eq_self {message : Value} :
    SameEffect s (s.runResolve env message) ↔ s.Unaddressed env message := by
  rw [runResolve, Unaddressed]
  split
  next htype => exact iff_of_true ⟨rfl, rfl, rfl⟩ (Or.inl htype)
  next htype =>
    rw [handleChunkedResponse, or_iff_right htype]
    cases hview : chunkView message with
    | none =>
      show SameEffect s (settle { s with chunkDataStorage := s.chunkDataStorage } _ _) ↔ _
      rw [sameEffect_settle, and_iff_right rfl]
    | some c =>
      dsimp only [Option.map_some]
      rcases hparse : c.parse with e | ⟨index, total, bytes⟩
      · rw [feedChunk, hparse]
        refine (sameEffect_settle (s := s)
          (s.chunkDataStorage.remove (incomingKey message)) _).trans ?_
        exact and_congr remove_eq_self Iff.rfl
      · rw [feedChunk, hparse]
        exact sameEffect_fed hview hparse

/-! ### What a message dispatches -/

/-- The rest of the service is not touched by resolving. -/
theorem settle_frame (s : Service) (key : String) (answer : PendingCallback → PortResult Value) :
    (s.settle key answer).lastProcessTime = s.lastProcessTime ∧
      (s.settle key answer).subscriptions = s.subscriptions ∧
      ∃ es, (s.settle key answer).effects = s.effects ++ es := by
  rw [settle]
  cases s.pendingCallbacks.lookup key with
  | none => exact ⟨rfl, rfl, [], by simp⟩
  | some callback => exact ⟨rfl, rfl, [_], rfl⟩

theorem runResolve_frame (env : Env) (s : Service) (message : Value) :
    (s.runResolve env message).lastProcessTime = s.lastProcessTime ∧
      (s.runResolve env message).subscriptions = s.subscriptions ∧
      ∃ es, (s.runResolve env message).effects = s.effects ++ es := by
  have hsettles := runResolve_settles env s message
  generalize s.runResolve env message = s' at hsettles
  cases hsettles with
  | nothing chunks => exact ⟨rfl, rfl, [], by simp⟩
  | refusal chunks key reason => exact settle_frame { s with chunkDataStorage := chunks } _ _
  | answer chunks message => exact settle_frame { s with chunkDataStorage := chunks } _ _

/-- When the throttle lets a message with this key pass. -/
def Admits (due : ℚ → ℚ → ℚ → Bool) (times : Table String ℚ) (now : ℚ) (key : String) : Prop :=
  ∀ limit, throttleLimit key = some limit → due limit ((times.lookup key).getD 0) now = true

variable {due : ℚ → ℚ → ℚ → Bool}

theorem shouldProcess_admits {now : ℚ} {key : String} :
    (s.shouldProcess due now key).1 = true ↔ Admits due s.lastProcessTime now key := by
  rw [shouldProcess, Admits]
  cases throttleLimit key with
  | none => exact iff_of_true rfl (fun limit h => absurd h (by simp))
  | some limit =>
    dsimp only
    split
    next h =>
      refine iff_of_true rfl fun limit' hlimit => ?_
      rw [← Option.some_inj.mp hlimit]
      exact h
    next h => exact iff_of_false (by simp) fun hall => h (hall limit rfl)

theorem shouldProcess_state (due : ℚ → ℚ → ℚ → Bool) (now : ℚ) (s : Service) (key : String) :
    ∃ times, (s.shouldProcess due now key).2 = { s with lastProcessTime := times } := by
  rw [shouldProcess]
  split
  · exact ⟨_, rfl⟩
  · dsimp only
    split
    · exact ⟨_, rfl⟩
    · exact ⟨_, rfl⟩

/-- When a message is handed on to a subscription. -/
def Dispatches (env : Env) (s : Service) (topic : String) : Prop :=
  topic ≠ "" ∧ Admits env.due s.lastProcessTime env.dispatchTime topic ∧ topic ∈ s.subscriptions

open Classical in
/-- Dispatching adds the event of a subscribed topic, and nothing else. -/
theorem dispatchSubscription_eq (env : Env) (s : Service) (message : Value) :
    (s.dispatchSubscription env message).pendingCallbacks = s.pendingCallbacks ∧
    (s.dispatchSubscription env message).chunkDataStorage = s.chunkDataStorage ∧
    (s.dispatchSubscription env message).effects = s.effects ++
      if Dispatches env s (strOf message "topic") then
        [.event s.sessionId (topicEvent env (strOf message "topic") message)] else [] := by
  simp only [dispatchSubscription]
  split
  next htopic => exact ⟨rfl, rfl, by rw [if_neg (fun h => h.1 htopic), List.append_nil]⟩
  next htopic =>
    have hadmits : (s.shouldProcess env.due env.dispatchTime
        (strOf message "topic")).1 = true ↔ _ := shouldProcess_admits
    obtain ⟨times, htimes⟩ := shouldProcess_state env.due env.dispatchTime s (strOf message "topic")
    rcases hs : s.shouldProcess env.due env.dispatchTime (strOf message "topic") with ⟨_ | _, s'⟩
    · rw [hs] at hadmits htimes
      subst htimes
      rw [if_neg (fun h => absurd (hadmits.mpr h.2.1) (by simp)), List.append_nil]
      exact ⟨rfl, rfl, rfl⟩
    · rw [hs] at hadmits htimes
      subst htimes
      dsimp only
      split
      next hsub =>
        rw [if_pos ⟨htopic, hadmits.mp rfl, hsub⟩]
        exact ⟨rfl, rfl, rfl⟩
      next hsub =>
        rw [if_neg (fun h => hsub h.2.2), List.append_nil]
        exact ⟨rfl, rfl, rfl⟩

/-! ### The two paths -/

/-- What the text path does with a message, up to the messages that the service
itself understands. -/
def routeText (env : Env) (s : Service) (message : Value) : Service :=
  (s.runResolve env message).dispatchSubscription env message

/-- Once the binary path has let a message pass, the dispatch does not refuse it. -/
def OneSlot (env : Env) (s : Service) (header message : Value) : Prop :=
  (s.shouldProcess env.due env.wallTime (topicOrType header)).1 = true →
    strOf message "topic" ≠ "" →
      (shouldProcess env.due env.dispatchTime
        ((s.shouldProcess env.due env.wallTime (topicOrType header)).2.runResolve env message)
        (strOf message "topic")).1 = true

/-- The frames that are routed like text: those without a limit; with one, those that
pass, would also pass the second time, and would be passed as text if that matters; and
those that are refused, but would not have done anything. -/
def RoutedAsText (env : Env) (s : Service) (header message : Value) : Prop :=
  match throttleLimit (topicOrType header) with
  | none => True
  | some limit =>
    let key := topicOrType header
    let last := (s.lastProcessTime.lookup key).getD 0
    if env.due limit last env.wallTime then
      strOf header "topic" = "" ∨ env.due limit env.wallTime env.dispatchTime ∧
        (key ∈ s.subscriptions → env.due limit last env.dispatchTime)
    else
      s.Unaddressed env message ∧ (strOf header "topic" = "" ∨
        (key ∈ s.subscriptions → ¬ env.due limit last env.dispatchTime))

/-- The topic is what the binary path asks the throttle about, if there is one. -/
theorem topicOrType_eq {header : Value} (h : strOf header "topic" ≠ "") :
    topicOrType header = strOf header "topic" := by
  rw [topicOrType]
  unfold strOf at h ⊢
  cases htopic : (header.get "topic").bind Value.asStr with
  | none =>
    rw [htopic] at h
    exact absurd rfl h
  | some topic => rfl

/-- The binary path, for a frame that is not for the LiDAR decoder. -/
theorem processIngress_binary {buffer body : List UInt8} {frame : BinaryFrame} {header : Value}
    (hparse : Framing.parse p.serde buffer = .ok (frame, header, body))
    (hintent : lidarIntent frame (topicOrType header) (header.get "data") = false)
    (hbody : body.length ≤ maxBinaryExpansionBytes) :
    s.processIngress p env ⟨s.sessionId, .binary buffer⟩ =
      match s.shouldProcess env.due env.wallTime (topicOrType header) with
      | (false, s) => s
      | (true, s) => s.routeText env (injectBinaryData header body) := by
  have hlength : ¬ buffer.length > maxBinaryBytes := by
    have := Framing.parse_length hparse
    simp only [maxBinaryHeaderBytes, maxBinaryBytes, maxBinaryExpansionBytes] at *
    omega
  rw [processIngress, if_neg (by simp)]
  simp only [handlePayload, dealArrayBuffer, if_neg hlength, hparse, processBinaryPayload,
    fromJson_of_intent hintent, hintent, Bool.false_eq_true, if_false, if_neg (not_lt.mpr hbody)]
  rcases s.shouldProcess env.due env.wallTime (topicOrType header) with ⟨_ | _, s'⟩ <;> rfl

/-- The throttle's table matters to the text path if it changes what is dispatched. -/
theorem routeText_sameEffect {message : Value} {times : Table String ℚ} :
    SameEffect (s.routeText env message)
        (routeText env { s with lastProcessTime := times } message) ↔
      (Dispatches env (s.runResolve env message) (strOf message "topic") ↔
        Dispatches env { s.runResolve env message with lastProcessTime := times }
          (strOf message "topic")) := by
  classical
  rw [routeText, routeText, runResolve_lastProcessTime env s message times]
  generalize s.runResolve env message = r at *
  obtain ⟨hp, hc, he⟩ := dispatchSubscription_eq env r message
  obtain ⟨hp', hc', he'⟩ := dispatchSubscription_eq env { r with lastProcessTime := times } message
  constructor
  · intro h
    have heffects := h.effects
    rw [he, he', List.append_cancel_left_eq] at heffects
    by_cases hd : Dispatches env r (strOf message "topic")
    · refine iff_of_true hd ?_
      by_contra hd'
      rw [if_pos hd, if_neg hd'] at heffects
      exact absurd heffects (by simp)
    · refine iff_of_false hd fun hd' => ?_
      rw [if_neg hd, if_pos hd'] at heffects
      exact absurd heffects (by simp)
  · intro h
    refine ⟨hp'.trans hp.symm, hc'.trans hc.symm, ?_⟩
    rw [he, he', if_congr h rfl rfl]

section Throttled

variable {header message : Value} {limit : ℚ}

/-- One key has one limit. -/
theorem admits_iff {times : Table String ℚ} {now : ℚ} {key : String}
    (hlimit : throttleLimit key = some limit) :
    Admits due times now key ↔ due limit ((times.lookup key).getD 0) now = true := by
  constructor
  · exact fun h => h limit hlimit
  · intro h limit' hlimit'
    rw [hlimit, Option.some_inj] at hlimit'
    rw [← hlimit']
    exact h

/-- A limited message that passes: the first question has taken the slot that the
second one asks for. -/
theorem passed_iff (hmessage : strOf message "topic" = strOf header "topic")
    (hlimit : throttleLimit (topicOrType header) = some limit)
    (hpass : env.due limit ((s.lastProcessTime.lookup (topicOrType header)).getD 0) env.wallTime =
      true) :
    SameEffect (s.routeText env message)
        ((s.shouldProcess env.due env.wallTime (topicOrType header)).2.routeText env message) ∧
      s.OneSlot env header message ↔
    strOf header "topic" = "" ∨ env.due limit env.wallTime env.dispatchTime = true ∧
      (topicOrType header ∈ s.subscriptions →
        env.due limit ((s.lastProcessTime.lookup (topicOrType header)).getD 0) env.dispatchTime =
          true) := by
  have hfirst : s.shouldProcess env.due env.wallTime (topicOrType header) = (true, { s with
      lastProcessTime := s.lastProcessTime.insert (topicOrType header) env.wallTime }) := by
    rw [shouldProcess, hlimit]
    exact if_pos hpass
  obtain ⟨htimes, hsubs, -⟩ := runResolve_frame env s message
  rw [OneSlot, hfirst, routeText_sameEffect,
    runResolve_lastProcessTime env s message
      (s.lastProcessTime.insert (topicOrType header) env.wallTime),
    shouldProcess_admits, hmessage]
  by_cases htopic : strOf header "topic" = ""
  · exact iff_of_true ⟨iff_of_false (fun h => h.1 htopic) (fun h => h.1 htopic),
      fun _ hne => absurd htopic hne⟩ (Or.inl htopic)
  · have hkey := topicOrType_eq htopic
    rw [hkey] at hlimit hpass ⊢
    have hsecond : Admits env.due (s.lastProcessTime.insert (strOf header "topic") env.wallTime)
        env.dispatchTime (strOf header "topic") ↔
          env.due limit env.wallTime env.dispatchTime = true := by
      rw [admits_iff hlimit, AList.lookup_insert, Option.getD_some]
    rw [or_iff_right htopic, Dispatches, Dispatches]
    dsimp only
    rw [htimes, hsubs, admits_iff hlimit, hsecond]
    tauto

/-- A limited message that is refused: the text path does more with it, unless
there is nothing to do. -/
theorem refused_iff (hmessage : strOf message "topic" = strOf header "topic")
    (hlimit : throttleLimit (topicOrType header) = some limit)
    (hrefused : ¬ env.due limit ((s.lastProcessTime.lookup (topicOrType header)).getD 0)
      env.wallTime = true) :
    SameEffect (s.routeText env message)
        (s.shouldProcess env.due env.wallTime (topicOrType header)).2 ∧
      s.OneSlot env header message ↔
    s.Unaddressed env message ∧ (strOf header "topic" = "" ∨
      (topicOrType header ∈ s.subscriptions →
        ¬ env.due limit ((s.lastProcessTime.lookup (topicOrType header)).getD 0)
          env.dispatchTime = true)) := by
  classical
  have hslot : s.OneSlot env header message := by
    intro hpass
    exact absurd (shouldProcess_admits.mp hpass limit hlimit) hrefused
  have hstate : s.shouldProcess env.due env.wallTime (topicOrType header) = (false, s) := by
    rw [shouldProcess, hlimit]
    exact if_neg hrefused
  obtain ⟨htimes, hsubs, es, hes⟩ := runResolve_frame env s message
  obtain ⟨hp, hc, he⟩ := dispatchSubscription_eq env (s.runResolve env message) message
  have hdispatch : ¬ Dispatches env (s.runResolve env message) (strOf message "topic") ↔
      strOf header "topic" = "" ∨ (topicOrType header ∈ s.subscriptions →
        ¬ env.due limit ((s.lastProcessTime.lookup (topicOrType header)).getD 0)
          env.dispatchTime = true) := by
    rw [Dispatches, hmessage, htimes, hsubs]
    by_cases htopic : strOf header "topic" = ""
    · exact iff_of_true (fun h => h.1 htopic) (Or.inl htopic)
    · rw [topicOrType_eq htopic] at hlimit ⊢
      rw [admits_iff hlimit]
      tauto
  rw [and_iff_left hslot, ← runResolve_eq_self, ← hdispatch, hstate]
  constructor
  · intro h
    have heffects := h.effects
    rw [routeText, he, hes, List.append_assoc, List.self_eq_append_right,
      List.append_eq_nil_iff] at heffects
    refine ⟨⟨(h.pending.trans hp).symm, (h.chunks.trans hc).symm, ?_⟩, fun hd => ?_⟩
    · rw [hes, heffects.1, List.append_nil]
    · rw [if_pos hd] at heffects
      exact absurd heffects.2 (by simp)
  · rintro ⟨hself, hd⟩
    refine ⟨(hp.trans hself.pending).symm, (hc.trans hself.chunks).symm, ?_⟩
    rw [routeText, he, if_neg hd, List.append_nil, hself.effects]

end Throttled

/-- A frame that is not for the LiDAR decoder is routed like the text with the same
content, and is not refused by the dispatch once it was let pass, exactly under this
condition. -/
theorem binary_as_text_iff {buffer body : List UInt8} {frame : BinaryFrame} {header : Value}
    (hparse : Framing.parse p.serde buffer = .ok (frame, header, body))
    (hintent : lidarIntent frame (topicOrType header) (header.get "data") = false)
    (hbody : body.length ≤ maxBinaryExpansionBytes) :
    SameEffect (s.routeText env (injectBinaryData header body))
        (s.processIngress p env ⟨s.sessionId, .binary buffer⟩) ∧
      s.OneSlot env header (injectBinaryData header body) ↔
    s.RoutedAsText env header (injectBinaryData header body) := by
  have hmessage : strOf (injectBinaryData header body) "topic" = strOf header "topic" :=
    strOf_congr (get_injectBinaryData_ne (by decide) body)
  rw [processIngress_binary hparse hintent hbody, RoutedAsText]
  cases hlimit : throttleLimit (topicOrType header) with
  | none =>
    rw [shouldProcess_unlimited hlimit]
    refine iff_of_true ⟨⟨rfl, rfl, rfl⟩, fun _ htopic => ?_⟩ trivial
    -- the topic of the message is the key that has no limit
    rw [hmessage] at htopic ⊢
    rw [topicOrType_eq htopic] at hlimit
    rw [shouldProcess_unlimited hlimit]
  | some limit =>
    dsimp only
    by_cases hpass : env.due limit ((s.lastProcessTime.lookup (topicOrType header)).getD 0)
        env.wallTime = true
    · rw [if_pos hpass, ← passed_iff hmessage hlimit hpass, shouldProcess, hlimit]
      dsimp only
      rw [if_pos hpass]
    · rw [if_neg hpass, ← refused_iff hmessage hlimit hpass, shouldProcess, hlimit]
      dsimp only
      rw [if_neg hpass]

/-! ### A video message -/

/-- A service with a subscription to the video topic. -/
def watching : Service := ((Service.new 3 0).subscribe (.at 0) "vid").2

def vidText : String := "\x7b\"type\":\"msg\",\"topic\":\"vid\"\x7d"

def vidHeader : Value := .object [("topic", .string "vid"), ("type", .string "msg")]

def vidPlatform : Platform :=
  .reading [(vidText, .object [("type", .string "msg"), ("topic", .string "vid")])]

def vidFrame : List UInt8 := [28, 0, 0, 0] ++ asBytes vidText ++ [1, 2, 3]

/-- A clock that shows these times at the two questions. -/
def clock (first second : ℚ) : Env := { Env.at 0 with wallTime := first, dispatchTime := second }

theorem parse_vidFrame :
    Framing.parse vidPlatform.serde vidFrame = .ok (.normal, vidHeader, [1, 2, 3]) := by
  rfl

/-- The first video message on a topic that is subscribed to: the text is handed on,
the frame passes the throttle once and is lost at the second question. -/
theorem vid_frame_lost :
    Framing.parse vidPlatform.serde vidFrame = .ok (.normal, vidHeader, [1, 2, 3]) ∧
    lidarIntent .normal (topicOrType vidHeader) (vidHeader.get "data") = false ∧
    ¬ SameEffect (watching.routeText (clock 1000 1000) (injectBinaryData vidHeader [1, 2, 3]))
        (watching.processIngress vidPlatform (clock 1000 1000)
          ⟨watching.sessionId, .binary vidFrame⟩) ∧
    ¬ watching.OneSlot (clock 1000 1000) vidHeader (injectBinaryData vidHeader [1, 2, 3]) := by
  refine ⟨parse_vidFrame, by decide, fun h => ?_, fun h => ?_⟩
  · have hlength := congrArg List.length h.effects
    exact absurd hlength (by decide +kernel)
  · have hslot := h (by decide +kernel) (by decide)
    exact absurd hslot (by decide +kernel)

/-- Where the second question comes a second later, the frame is handed on. -/
theorem binary_as_text_iff_late :
    SameEffect (watching.routeText (clock 1000 1001) (injectBinaryData vidHeader [1, 2, 3]))
        (watching.processIngress vidPlatform (clock 1000 1001)
          ⟨watching.sessionId, .binary vidFrame⟩) ∧
      watching.OneSlot (clock 1000 1001) vidHeader (injectBinaryData vidHeader [1, 2, 3]) := by
  refine (binary_as_text_iff parse_vidFrame (by decide) (by decide)).mpr ?_
  rw [RoutedAsText]
  show ite _ _ _
  rw [if_pos (by decide +kernel)]
  exact Or.inr ⟨by decide +kernel, fun _ => by decide +kernel⟩

end Service

end Unitree
