/-
Explicit disconnect wins.

A disconnect raises a flag and the version of a watch in one step.  Every attempt
has subscribed to the watch before it queued for the gate, and looks at it when
`run` starts and before every poll; only an explicit connect clears the flag, and
only where it finds its subscription fresh.  Hence whatever an attempt does, its
subscription is younger than the last request, and the flag is down only if some
explicit attempt subscribed and started since.

* `sinceRequest` — the log after the last request;
* `Justified` — what has to come before an event;
* `turn_heeded` — every turn keeps it;
* `explicit_disconnect_wins` — what this means for a disconnect.
-/
import UnitreeWebrtc.SessionCalls

open scoped List

namespace Unitree

def Method.retries : Method → Bool
  | .autoReconnect .. => true
  | _ => false

def Method.disconnects : Method → Bool
  | .disconnect _ => true
  | _ => false

def Method.plays : Method → Bool
  | .playAudio | .stopAudio => true
  | _ => false

theorem Method.others_of_plays {m : Method} (h : m.plays = true) :
    m.disconnects = false ∧ m.retries = false := by
  cases m with
  | playAudio | stopAudio => exact ⟨rfl, rfl⟩
  | _ => exact absurd h (by simp [Method.plays])

theorem Method.of_connect {m : Method} {layer : Layer} {mode : SessionConnect}
    (h : m.operation = .connect layer mode) :
    m.disconnects = false ∧ m.plays = false ∧ (m.retries = true → mode = .retry) := by
  cases m with
  | connect | reconnect => exact ⟨rfl, rfl, fun hr => absurd hr (by simp [Method.retries])⟩
  | autoReconnect => exact ⟨rfl, rfl, fun _ => (Operation.connect.inj h).2.symm⟩
  | _ => exact absurd h (by simp [Method.operation])

theorem Method.of_disconnect {m : Method} {layer : Layer} (h : m.operation = .disconnect layer) :
    m.retries = false := by
  cases m with
  | disconnect => rfl
  | _ => exact absurd h (by simp [Method.operation])

theorem Method.of_plays {m : Method} (h : m.operation = .playAudio ∨ m.operation = .stopAudio) :
    m.plays = true := by
  cases m with
  | playAudio | stopAudio => rfl
  | _ => exact absurd h (by simp [Method.operation])

theorem Method.subscribes_of_plays {m : Method} (h : m.plays = false) :
    m.operation.subscribes = true := by
  cases m with
  | playAudio | stopAudio => exact absurd h (by simp [Method.plays])
  | _ => rfl

namespace SessionCalls

/-! ### Logs -/

theorem exists_split_of_sublist {α : Type} {l log : List α} {e : α} (h : l ++ [e] <+ log) :
    ∃ p r, log = p ++ e :: r ∧ l <+ p := by
  obtain ⟨r₁, r₂, rfl, hl, he⟩ := List.append_sublist_iff.mp h
  obtain ⟨a, b, rfl⟩ := List.append_of_mem (List.singleton_sublist.mp he)
  exact ⟨r₁ ++ a, b, by simp, hl.trans (List.sublist_append_left r₁ a)⟩

def CallEvent.isRequest : CallEvent → Bool
  | .requested _ => true
  | _ => false

/-- What was logged after the last request. -/
def sinceRequest (log : List CallEvent) : List CallEvent := log.rtakeWhile (!·.isRequest)

variable {o : SessionOptions} {s s' s'' : SessionCalls} {log es : List CallEvent} {e : CallEvent}
  {op : Op} {n : ℕ} {c c' : SessionCall}

theorem sinceRequest_append (hes : ∀ e ∈ es, e.isRequest = false) :
    sinceRequest (log ++ es) = sinceRequest log ++ es := by
  induction es using List.reverseRecOn with
  | nil => simp
  | append_singleton es e ih =>
    rw [← List.append_assoc, sinceRequest, List.rtakeWhile_concat_pos _ _ _ (by simp [hes e])]
    rw [← sinceRequest, ih fun x hx => hes x (List.mem_append_left _ hx), List.append_assoc]

/-- What does not satisfy it is before what `rtakeWhile` takes. -/
theorem rtakeWhile_suffix_of_not {α : Type} {p : α → Bool} {x : α} (hx : p x = false)
    (l₁ l₂ : List α) : (l₁ ++ x :: l₂).rtakeWhile p <:+ l₂ := by
  induction l₂ using List.reverseRecOn with
  | nil => rw [List.rtakeWhile_concat_neg _ _ _ (by simp [hx])]
  | append_singleton l₂ e ih =>
    rw [← List.cons_append, ← List.append_assoc, List.rtakeWhile_concat]
    split
    · obtain ⟨l, hl⟩ := ih
      exact ⟨l, by rw [← List.append_assoc, hl]⟩
    · exact List.nil_suffix

theorem sinceRequest_suffix (l₁ l₂ : List CallEvent) (n : ℕ) :
    sinceRequest (l₁ ++ .requested n :: l₂) <:+ l₂ := rtakeWhile_suffix_of_not rfl l₁ l₂

/-! ### What comes before an event -/

/-- There was no request yet, or an explicit attempt subscribed and started since. -/
def Cleared (log : List CallEvent) : Prop :=
  (∀ n, .requested n ∉ log) ∨
    ∃ op, op.explicit = true ∧ [.subscribed op, .runStarted op] <+ sinceRequest log

/-- What has to come before an event. -/
def Justified (before : List CallEvent) : CallEvent → Prop
  | .requested n => .requested n ∉ before
  | .subscribed op => .subscribed op ∉ before
  | .operationStarted op => .subscribed op ∈ sinceRequest before
  | .ran op true => .subscribed op ∈ sinceRequest before ∧ Cleared before
  | .connected _ true => Cleared before
  | .returned n .unit => ∃ op, [.requested n, .connected op false] <+ before
  | .returned n (.retried true) => ∃ op, op.call = n ∧ .ran op true ∈ before
  | _ => True

theorem Cleared.append (h : Cleared log) (hes : ∀ e ∈ es, e.isRequest = false) :
    Cleared (log ++ es) := by
  rcases h with hnone | ⟨op, hop, hsub⟩
  · refine Or.inl fun n hn => ?_
    rcases List.mem_append.mp hn with hn | hn
    · exact hnone n hn
    · exact absurd (hes _ hn) (by simp [CallEvent.isRequest])
  · refine Or.inr ⟨op, hop, ?_⟩
    rw [sinceRequest_append hes]
    exact hsub.trans (List.sublist_append_left _ _)

/-! ### Events that need nothing before -/

def CallEvent.plain : CallEvent → Bool
  | .requested _ | .subscribed _ | .operationStarted _ | .ran _ true | .connected _ true
  | .returned .. => false
  | _ => true

/-- What `run` of this operation logs. -/
def Own (op : Op) (e : CallEvent) : Prop :=
  e.plain = true ∨ e = .operationStarted op ∨ e = .ran op true ∨ e = .connected op true

theorem Own.not_request (h : Own op e) : e.isRequest = false := by
  rcases h with h | rfl | rfl | rfl
  · cases e <;> first | rfl | exact absurd h (by simp [CallEvent.plain])
  · rfl
  · rfl
  · rfl

theorem Own.not_subscribed (h : Own op e) (op' : Op) : e ≠ .subscribed op' := by
  rintro rfl
  rcases h with h | h | h | h
  · exact absurd h (by simp [CallEvent.plain])
  all_goals exact absurd h (by simp)

theorem justified_of_plain (h : e.plain = true) : Justified log e := by
  unfold Justified
  split
  all_goals trivial

/-- The subscription is younger than the last request, and the flag is down. -/
def Current (op : Op) (log : List CallEvent) : Prop :=
  .subscribed op ∈ sinceRequest log ∧ Cleared log

theorem Current.append (h : Current op log) (hes : ∀ e ∈ es, e.isRequest = false) :
    Current op (log ++ es) := by
  refine ⟨?_, h.2.append hes⟩
  rw [sinceRequest_append hes]
  exact List.mem_append_left _ h.1

theorem Own.justified (h : Own op e) (hcurrent : Current op log) : Justified log e := by
  rcases h with h | rfl | rfl | rfl
  · exact justified_of_plain h
  · exact hcurrent.1
  · exact hcurrent
  · exact hcurrent.2

/-! ### What the parts of an operation add -/

def CallEvent.disconnects : CallEvent → Bool
  | .connected _ value => !value
  | _ => false

/-- Who connected is not disconnected since. -/
def Connects (s : SessionCalls) : Prop :=
  s.isConnected = true → ∃ op, .connected op true ∈ s.log.rtakeWhile (!·.disconnects)

/-- Only such events, and neither the flag nor the calls are touched. -/
structure Adds (P : CallEvent → Prop) (s s' : SessionCalls) : Prop where
  calls : s'.calls = s.calls
  nextCall : s'.nextCall = s.nextCall
  flag : s'.intentionalDisconnect = s.intentionalDisconnect
  cancellation : s'.cancellation = s.cancellation
  log : ∃ es, s'.log = s.log ++ es ∧ ∀ e ∈ es, P e
  connects : Connects s → Connects s'

variable {P Q : CallEvent → Prop}

theorem Adds.refl (s : SessionCalls) : Adds P s s :=
  ⟨rfl, rfl, rfl, rfl, ⟨[], by simp, by simp⟩, id⟩

theorem Adds.trans (h : Adds P s s') (h' : Adds P s' s'') : Adds P s s'' := by
  obtain ⟨es, hlog, hes⟩ := h.log
  obtain ⟨es', hlog', hes'⟩ := h'.log
  refine ⟨h'.calls.trans h.calls, h'.nextCall.trans h.nextCall, h'.flag.trans h.flag,
    h'.cancellation.trans h.cancellation, ⟨es ++ es', ?_, fun e he => ?_⟩,
    fun hc => h'.connects (h.connects hc)⟩
  · rw [hlog', hlog, List.append_assoc]
  · rcases List.mem_append.mp he with he | he
    · exact hes e he
    · exact hes' e he

theorem Adds.mono (h : Adds P s s') (hpq : ∀ e, P e → Q e) : Adds Q s s' := by
  obtain ⟨es, hlog, hes⟩ := h.log
  exact ⟨h.calls, h.nextCall, h.flag, h.cancellation, ⟨es, hlog, fun e he => hpq e (hes e he)⟩,
    h.connects⟩

/-- Other events leave the connection as it is. -/
theorem Connects.record (h : Connects s) (he : e.disconnects = false) : Connects (s.record e) := by
  intro hc
  obtain ⟨op, hop⟩ := h hc
  refine ⟨op, ?_⟩
  show _ ∈ (s.log ++ [e]).rtakeWhile _
  rw [List.rtakeWhile_concat_pos _ _ _ (by simp [he])]
  exact List.mem_append_left _ hop

theorem Adds.record (he : P e) (hd : e.disconnects = false) : Adds P s (s.record e) :=
  ⟨rfl, rfl, rfl, rfl, ⟨[e], rfl, by simpa using he⟩, fun h => h.record hd⟩

/-- Fields that are not looked at. -/
theorem Adds.keep (h : (s'.calls, s'.nextCall, s'.intentionalDisconnect, s'.cancellation, s'.log,
      s'.isConnected) =
    (s.calls, s.nextCall, s.intentionalDisconnect, s.cancellation, s.log, s.isConnected)) :
    Adds P s s' := by
  simp only [Prod.mk.injEq] at h
  obtain ⟨hcalls, hnext, hflag, hcancel, hlog, hconnected⟩ := h
  refine ⟨hcalls, hnext, hflag, hcancel, ⟨[], by simp [hlog], by simp⟩, fun h => ?_⟩
  unfold Connects
  rw [hlog, hconnected]
  exact h

theorem Adds.recorded {e : CallEvent} (h : Adds P s s') (he : P e) (hd : e.disconnects = false) :
    Adds P s (s'.record e) :=
  h.trans (.record he hd)

theorem Adds.disconnected (s : SessionCalls) (op : Op) (he : P (.connected op false)) :
    Adds P s (s.setConnected op false) :=
  ⟨rfl, rfl, rfl, rfl, ⟨[_], rfl, by simpa using he⟩,
    fun _ h => absurd (show false = true from h) (by simp)⟩

theorem Adds.connected (s : SessionCalls) (op : Op) (he : P (.connected op true)) :
    Adds P s (s.setConnected op true) := by
  refine ⟨rfl, rfl, rfl, rfl, ⟨[_], rfl, by simpa using he⟩, fun _ _ => ⟨op, ?_⟩⟩
  show _ ∈ (s.log ++ [CallEvent.connected op true]).rtakeWhile _
  rw [List.rtakeWhile_concat_pos _ _ _ (by simp [CallEvent.disconnects])]
  exact List.mem_append_right _ (by simp)

theorem stopAudioSender_adds (s : SessionCalls) (op : Op) (a : AudioStop) :
    Adds (·.plain = true) s (s.stopAudioSender op a).1 := by
  unfold stopAudioSender
  cases a with
  | lock =>
    dsimp only
    split
    · exact .refl s
    · exact Adds.recorded (.keep rfl) rfl rfl
    · exact .refl s
  | join k =>
    dsimp only
    split
    · exact .keep rfl
    · exact .refl s

theorem close_adds (s : SessionCalls) (op : Op) (r : Run) :
    Adds (·.plain = true) s (s.close op r).1 := by
  unfold close
  cases r with
  | enter =>
    dsimp only
    split
    · exact .refl s
    · exact Adds.recorded (.keep rfl) rfl rfl
  | wait =>
    dsimp only
    split
    · exact .keep rfl
    · exact .refl s

theorem startNewSession_adds (s : SessionCalls) (op : Op) :
    Adds (·.plain = true) s (s.startNewSession op) :=
  Adds.recorded (.keep rfl) rfl rfl

theorem own_of_plain (op : Op) (e : CallEvent) (h : e.plain = true) : Own op e := Or.inl h

theorem connectInner_adds (s : SessionCalls) (op : Op) :
    Adds (Own op) s (s.connectInner o op).1 := by
  unfold connectInner
  split
  · exact .record (Or.inl rfl) rfl
  · exact .refl s

theorem connectInAttempt_adds (s : SessionCalls) (op : Op) :
    Adds (Own op) s (s.connectInAttempt o op).1 := by
  have hfirst : Adds (Own op) s (s.setConnected op false) := .disconnected s op (Or.inl rfl)
  unfold connectInAttempt
  split
  · exact hfirst.trans (connectInner_adds _ op)
  · exact hfirst.trans (.disconnected _ op (Or.inl rfl))

theorem firstPoll_adds (s : SessionCalls) (op : Op) : Adds (Own op) s (s.firstPoll o op).1 := by
  have hfirst : Adds (Own op) s (s.record (.operationStarted op)) :=
    .record (Or.inr (Or.inl rfl)) rfl
  unfold firstPoll
  split
  · exact hfirst
  · exact hfirst.trans (connectInAttempt_adds _ op)

theorem running_adds (s : SessionCalls) (op : Op) (outcome : PortResult String) (isOpen : Bool)
    (stage : Running) : Adds (Own op) s (s.running o op outcome isOpen stage).1 := by
  unfold running
  cases stage with
  | unpolled | exchangeSdp | offering | waitDatachannelOpen =>
    dsimp only
    try split
    all_goals exact .refl s
  | stopAudio a =>
    have hstop := (stopAudioSender_adds s op a).mono (own_of_plain op)
    dsimp only
    generalize s.stopAudioSender op a = out at hstop ⊢
    rcases out with ⟨s', next | error | _⟩
    · exact hstop
    · exact hstop
    · have hnew := hstop.trans ((startNewSession_adds s' op).mono (own_of_plain op))
      dsimp only
      split
      · exact hnew.trans (connectInAttempt_adds _ op)
      · exact hnew
  | closeFirst r =>
    have hclose := (close_adds s op r).mono (own_of_plain op)
    dsimp only
    generalize s.close op r = out at hclose ⊢
    rcases out with ⟨s', _ | r⟩
    · exact hclose.trans (connectInner_adds s' op)
    · exact hclose
  | offerClosing r | offerFailing r =>
    have hclose := (close_adds s op r).mono (own_of_plain op)
    dsimp only
    generalize s.close op r = out at hclose ⊢
    rcases out with ⟨s', _ | r⟩
    · exact hclose
    · exact hclose
  | applyAnswer =>
    dsimp only
    split
    · exact .connected s op (Or.inr (Or.inr (Or.inr rfl)))
    · exact .refl s

/-! ### Where the calls are -/

/-- An attempt subscribed, after the last request if it finds its version. -/
def Subscribed (s : SessionCalls) (n : ℕ) (c : SessionCall) : Prop :=
  c.method.plays = false → c.seen ≤ s.cancellation ∧
    (c.seen = s.cancellation → .subscribed (c.op n) ∈ sinceRequest s.log)

/-- A disconnect requested it. -/
def Asked (s : SessionCalls) (n : ℕ) (c : SessionCall) : Prop :=
  c.method.disconnects = true → .requested n ∈ s.log

/-- A disconnect rolled back. -/
def RolledBack (s : SessionCalls) (n : ℕ) (c : SessionCall) : Prop :=
  c.method.disconnects = true → ∃ op, [.requested n, .connected op false] <+ s.log

/-- A retry is on the error path. -/
def Fails (c : SessionCall) : Prop := c.method.retries = true → ∃ e, c.result = .error e

/-- A retry that has no error connected. -/
def Retried (s : SessionCalls) (n : ℕ) (c : SessionCall) : Prop :=
  c.method.retries = true → c.result = .ok () → ∃ op, op.call = n ∧ .ran op true ∈ s.log

/-- What is known of a call, by its stage. -/
def CallOk (s : SessionCalls) (n : ℕ) (c : SessionCall) : Prop :=
  match c.stage with
  | .subscribe => Asked s n c
  | .queued | .held .acquired => Subscribed s n c ∧ Asked s n c
  | .held .run => Subscribed s n c ∧ c.method.disconnects = false ∧ c.method.plays = false ∧
      (c.method.retries = true → c.seen = s.cancellation → s.intentionalDisconnect = false)
  | .held (.running _) => Subscribed s n c ∧ c.method.disconnects = false ∧ c.method.plays = false ∧
      (c.seen = s.cancellation → s.intentionalDisconnect = false)
  | .held (.failAudio _) | .held .failStop | .held .failRollback => Asked s n c ∧ Fails c
  | .held (.failClose _) => RolledBack s n c ∧ Fails c
  | .held .finish | .released true => RolledBack s n c ∧ Retried s n c
  | .held .giveUp | .released false => c.method.disconnects = false
  | .held (.playStop _) | .held .playTrack | .held .playNew | .held .playStart
  | .held (.playFail _) | .held (.audioStop _) => c.method.plays = true
  | _ => True

/-- The current operation is queued, or was. -/
def CallStage.attempts : CallStage → Bool
  | .begun | .retryLoop | .subscribe => false
  | _ => true

/-- The operation with this index has subscribed. -/
def SessionCall.HasSubscribed (c : SessionCall) (i : ℕ) : Prop :=
  i < c.index ∨ i = c.index ∧ c.stage.attempts = true

structure Heeded (s : SessionCalls) : Prop where
  calls : ∀ n c, s.calls n = some c → CallOk s n c
  cleared : s.intentionalDisconnect = false → Cleared s.log
  connects : Connects s
  justified : ∀ l₁ e l₂, s.log = l₁ ++ e :: l₂ → Justified l₁ e
  requested : ∀ n, .requested n ∈ s.log → ∃ c, s.calls n = some c ∧ c.stage ≠ .begun
  subscribed : ∀ op, .subscribed op ∈ s.log → ∃ c, s.calls op.call = some c ∧
    c.HasSubscribed op.index
  unused : ∀ n, s.nextCall ≤ n → s.calls n = none

theorem SessionCall.HasSubscribed.keep {i : ℕ} (h : c.HasSubscribed i) (hindex : c'.index = c.index)
    (hstage : c.stage.attempts = true → c'.stage.attempts = true) : c'.HasSubscribed i := by
  rcases h with hlt | ⟨heq, hc⟩
  · exact Or.inl (hindex ▸ hlt)
  · exact Or.inr ⟨heq.trans hindex.symm, hstage hc⟩

theorem SessionCall.HasSubscribed.next {i : ℕ} (h : c.HasSubscribed i)
    (hindex : c'.index = c.index + 1) : c'.HasSubscribed i := by
  refine Or.inl ?_
  rcases h with hlt | ⟨heq, -⟩
  · omega
  · omega

/-! ### What the others do -/

/-- A step of another call: it requests nothing, or it requests a disconnect. -/
inductive Later (s s' : SessionCalls) : Prop where
  | keeps (es : List CallEvent) (log : s'.log = s.log ++ es) (hes : ∀ e ∈ es, e.isRequest = false)
      (cancellation : s'.cancellation = s.cancellation)
      (flag : s.intentionalDisconnect = false → s'.intentionalDisconnect = false)
  | asks (log : s.log <+: s'.log) (cancellation : s.cancellation < s'.cancellation)

theorem Later.grows (h : Later s s') : s.log <+: s'.log := by
  cases h with
  | keeps es log => exact ⟨es, log.symm⟩
  | asks log => exact log

theorem Later.subscribed (h : Later s s') (hs : Subscribed s n c) : Subscribed s' n c := by
  intro hplays
  obtain ⟨hle, hsince⟩ := hs hplays
  cases h with
  | keeps es log hes hcancel =>
    rw [hcancel, log, sinceRequest_append hes]
    exact ⟨hle, fun hseen => List.mem_append_left _ (hsince hseen)⟩
  | asks _ hlt => exact ⟨by omega, fun hseen => by omega⟩

/-- The flag is still down where a subscription is fresh. -/
theorem Later.calm (h : Later s s') (hle : c.seen ≤ s.cancellation)
    (hs : c.seen = s.cancellation → s.intentionalDisconnect = false)
    (hseen : c.seen = s'.cancellation) : s'.intentionalDisconnect = false := by
  cases h with
  | keeps es _ _ hcancel flag => exact flag (hs (hseen.trans hcancel))
  | asks _ hlt => omega

theorem Later.asked (h : Later s s') (hs : Asked s n c) : Asked s' n c :=
  fun hd => h.grows.mem (hs hd)

theorem Later.rolledBack (h : Later s s') (hs : RolledBack s n c) : RolledBack s' n c := by
  intro hd
  obtain ⟨op, hop⟩ := hs hd
  exact ⟨op, hop.trans h.grows.sublist⟩

theorem Later.retried (h : Later s s') (hs : Retried s n c) : Retried s' n c := by
  intro hr hok
  obtain ⟨op, hop, hran⟩ := hs hr hok
  exact ⟨op, hop, h.grows.mem hran⟩

theorem Later.callOk (h : Later s s') (hs : CallOk s n c) : CallOk s' n c := by
  unfold CallOk at hs ⊢
  split at hs
  all_goals first
    | exact hs
    | exact h.asked hs
    | exact ⟨h.subscribed hs.1, h.asked hs.2⟩
    | exact ⟨h.asked hs.1, hs.2⟩
    | exact ⟨h.rolledBack hs.1, hs.2⟩
    | exact ⟨h.rolledBack hs.1, h.retried hs.2⟩
    | exact ⟨h.subscribed hs.1, hs.2.1, hs.2.2.1,
        fun hr => h.calm (hs.1 hs.2.2.1).1 (hs.2.2.2 hr)⟩
    | exact ⟨h.subscribed hs.1, hs.2.1, hs.2.2.1, h.calm (hs.1 hs.2.2.1).1 hs.2.2.2⟩

/-- A call goes on, after a step of which this is known. -/
theorem Heeded.put (h : Heeded s) (hc : s.calls n = some c) (hlater : Later s s')
    (hcalls : s'.calls = s.calls) (hnext : s'.nextCall = s.nextCall)
    (hcleared : s'.intentionalDisconnect = false → Cleared s'.log) (hconnects : Connects s')
    (hjustified : ∀ l₁ e l₂, s'.log = l₁ ++ e :: l₂ → Justified l₁ e)
    (hrequested : ∀ m, .requested m ∈ s'.log → .requested m ∈ s.log ∨ m = n)
    (hsubscribed : ∀ op, .subscribed op ∈ s'.log →
      .subscribed op ∈ s.log ∨ op.call = n ∧ c'.HasSubscribed op.index)
    (hok : CallOk s' n c') (hbegun : c'.stage ≠ .begun)
    (hhas : ∀ i, c.HasSubscribed i → c'.HasSubscribed i) : Heeded (s'.put n c') where
  calls m c₀ hm := by
    by_cases hn : m = n
    · subst hn
      rw [put_calls, if_pos rfl, Option.some_inj] at hm
      exact hm ▸ hok
    · rw [put_calls, if_neg hn, hcalls] at hm
      exact hlater.callOk (h.calls m c₀ hm)
  cleared := hcleared
  connects := hconnects
  justified := hjustified
  requested m hm := by
    by_cases hn : m = n
    · exact ⟨c', by rw [put_calls, if_pos hn], hbegun⟩
    · rw [put_calls, if_neg hn, hcalls]
      exact h.requested m ((hrequested m hm).resolve_right hn)
  subscribed op hop := by
    by_cases hn : op.call = n
    · refine ⟨c', by rw [put_calls, if_pos hn], ?_⟩
      rcases hsubscribed op hop with hold | ⟨-, hnew⟩
      · obtain ⟨c₀, hc₀, hs₀⟩ := h.subscribed op hold
        rw [hn, hc, Option.some_inj] at hc₀
        exact hhas _ (hc₀ ▸ hs₀)
      · exact hnew
    · rw [put_calls, if_neg hn, hcalls]
      rcases hsubscribed op hop with hold | ⟨hcall, -⟩
      · exact h.subscribed op hold
      · exact absurd hcall hn
  unused m hm := by
    change s'.nextCall ≤ m at hm
    rw [hnext] at hm
    have hn : m ≠ n := by
      rintro rfl
      exact absurd (hc.symm.trans (h.unused m hm)) (by simp)
    rw [put_calls, if_neg hn, hcalls]
    exact h.unused m hm

/-- An event that can come at any time from here. -/
def Harmless (log : List CallEvent) (e : CallEvent) : Prop :=
  e.isRequest = false ∧ (∀ op, e ≠ .subscribed op) ∧
    ∀ es, (∀ x ∈ es, x.isRequest = false) → Justified (log ++ es) e

theorem harmless_of_plain (h : e.plain = true) : Harmless log e :=
  ⟨(own_of_plain ⟨0, 0, .playAudio⟩ e h).not_request,
    (own_of_plain ⟨0, 0, .playAudio⟩ e h).not_subscribed, fun _ _ => justified_of_plain h⟩

theorem Own.harmless (h : Own op e) (hcurrent : Current op log) : Harmless log e :=
  ⟨h.not_request, h.not_subscribed, fun _ hes => h.justified (hcurrent.append hes)⟩

theorem justified_append (hold : ∀ l₁ e l₂, log = l₁ ++ e :: l₂ → Justified l₁ e)
    (hnew : ∀ m₁ e m₂, es = m₁ ++ e :: m₂ → Justified (log ++ m₁) e) :
    ∀ l₁ e l₂, log ++ es = l₁ ++ e :: l₂ → Justified l₁ e := by
  intro l₁ e l₂ hl
  rcases List.append_eq_append_iff.mp hl with ⟨m, rfl, hes⟩ | ⟨m, hlog, hes⟩
  · exact hnew m e l₂ hes
  · rcases m with _ | ⟨x, m⟩
    · rw [List.append_nil] at hlog
      subst hlog
      have := hnew [] e l₂ (by simpa using hes.symm)
      rwa [List.append_nil] at this
    · obtain ⟨rfl, -⟩ := List.cons_eq_cons.mp hes
      exact hold l₁ e m hlog

theorem justified_concat (hold : ∀ l₁ e l₂, log = l₁ ++ e :: l₂ → Justified l₁ e)
    (hnew : Justified log e) : ∀ l₁ e' l₂, log ++ [e] = l₁ ++ e' :: l₂ → Justified l₁ e' := by
  refine justified_append hold fun m₁ e' m₂ hm => ?_
  rcases m₁ with _ | ⟨x, m₁⟩
  · rw [List.append_nil, ← (List.cons_eq_cons.mp hm).1]
    exact hnew
  · exact absurd (congrArg List.length hm) (by simp)

theorem Adds.later (h : Adds (Harmless s.log) s s') : Later s s' := by
  obtain ⟨es, hlog, hes⟩ := h.log
  exact .keeps es hlog (fun e he => (hes e he).1) h.cancellation fun hflag => h.flag.trans hflag

/-- Harmless events. -/
theorem Heeded.outside (h : Heeded s) (hadds : Adds (Harmless s.log) s s') : Heeded s' := by
  obtain ⟨es, hlog, hes⟩ := hadds.log
  have hreq : ∀ e ∈ es, e.isRequest = false := fun e he => (hes e he).1
  refine ⟨fun n c hc => ?_, fun hflag => ?_, hadds.connects h.connects, ?_, fun m hm => ?_,
    fun op hop => ?_, fun m hm => ?_⟩
  · rw [hadds.calls] at hc
    exact hadds.later.callOk (h.calls n c hc)
  · rw [hlog]
    exact (h.cleared (hadds.flag.symm.trans hflag)).append hreq
  · rw [hlog]
    refine justified_append h.justified fun m₁ e m₂ hm => (hes e ?_).2.2 m₁ fun x hx => ?_
    · rw [hm]
      simp
    · exact hreq x (by rw [hm]; exact List.mem_append_left _ hx)
  · rw [hadds.calls]
    rw [hlog] at hm
    rcases List.mem_append.mp hm with hm | hm
    · exact h.requested m hm
    · exact absurd (hreq _ hm) (by simp [CallEvent.isRequest])
  · rw [hadds.calls]
    rw [hlog] at hop
    rcases List.mem_append.mp hop with hop | hop
    · exact h.subscribed op hop
    · exact absurd rfl ((hes _ hop).2.1 op)
  · rw [hadds.calls]
    exact h.unused m (hadds.nextCall ▸ hm)

/-- The call adds harmless events. -/
theorem Heeded.adds (h : Heeded s) (hc : s.calls n = some c) (hadds : Adds (Harmless s.log) s s')
    (hok : CallOk s' n c') (hbegun : c'.stage ≠ .begun)
    (hhas : ∀ i, c.HasSubscribed i → c'.HasSubscribed i) : Heeded (s'.put n c') := by
  have h' := h.outside hadds
  refine h'.put (hadds.calls ▸ hc) (.keeps [] (by simp) (by simp) rfl id) rfl rfl h'.cleared
    h'.connects h'.justified (fun m hm => Or.inl hm) (fun op hop => Or.inl hop) hok hbegun hhas

theorem Adds.harmless (h : Adds (·.plain = true) s s') : Adds (Harmless s.log) s s' :=
  h.mono fun _ => harmless_of_plain

/-! ### Operations with the gate -/

/-- With the gate it goes on. -/
theorem Heeded.serve (h : Heeded s) (hc : s.calls n = some c) {st' : Held}
    (hst' : c'.stage = .held st') (hindex : c'.index = c.index)
    (hadds : Adds (Harmless s.log) s s') (hok : CallOk s' n c') : Heeded (s'.put n c') := by
  refine h.adds hc hadds hok ?_ fun _ hi => hi.keep hindex fun _ => ?_
  · rw [hst']
    simp
  · rw [hst']
    rfl

theorem callOk_recovery {result : PortResult Unit} (hasked : Asked s n c)
    (hfails : c.method.retries = true → ∃ e, result = .error e) :
    CallOk s n { c with result, stage := .held c.recovery } := by
  have hboth : Asked s n c ∧ (c.method.retries = true → ∃ e, result = .error e) := ⟨hasked, hfails⟩
  unfold SessionCall.recovery
  split
  · exact hboth
  · exact hboth

/-- `run` returned an error. -/
theorem Heeded.fail (h : Heeded s) (hc : s.calls n = some c) (hadds : Adds (Harmless s.log) s s')
    (hd : c.method.disconnects = false) (error : String) :
    Heeded (s'.progress n c (.done (.error error))) := by
  have hran : Adds (Harmless s.log) s (s'.record (.ran (c.op n) false)) :=
    hadds.trans (.record (harmless_of_plain rfl) rfl)
  refine h.serve hc rfl rfl hran (callOk_recovery ?_ fun _ => ⟨error, rfl⟩)
  exact fun hd' => absurd (hd.symm.trans hd') (by simp)

/-- The operation in `run` goes on. -/
theorem Heeded.progress (h : Heeded s) (hc : s.calls n = some c) {stage : Running}
    (hst : c.stage = .held (.running stage)) (hcurrent : Current (c.op n) s.log)
    (hadds : Adds (Own (c.op n)) s s') (p : Progress) : Heeded (s'.progress n c p) := by
  have hharmless : Adds (Harmless s.log) s s' := hadds.mono fun e he => he.harmless hcurrent
  have hok := h.calls n c hc
  rw [CallOk, hst] at hok
  obtain ⟨hsub, hd, hplays, hcalm⟩ := hok
  cases p with
  | «at» stage' =>
    have hok' : CallOk s n (c.at' (.running stage')) := by
      have := And.intro hsub (And.intro hd (And.intro hplays hcalm))
      exact this
    exact h.serve hc rfl rfl hharmless (hharmless.later.callOk hok')
  | done result =>
    cases result with
    | ok =>
      have hran : Adds (Harmless s.log) s (s'.record (.ran (c.op n) true)) := by
        refine hharmless.trans (.record (Own.harmless ?_ hcurrent) rfl)
        exact Or.inr (Or.inr (Or.inl rfl))
      have hok' : RolledBack (s'.record (.ran (c.op n) true)) n (c.ends (.ok ())) ∧
          Retried (s'.record (.ran (c.op n) true)) n (c.ends (.ok ())) := by
        refine ⟨fun hd' => absurd (hd.symm.trans hd') (by simp), fun _ _ => ⟨c.op n, rfl, ?_⟩⟩
        exact List.mem_append_right _ (by simp)
      exact h.serve hc rfl rfl hran hok'
    | error => exact h.fail hc hharmless hd _

theorem Heeded.current (h : Heeded s) (hc : s.calls n = some c) {stage : Running}
    (hst : c.stage = .held (.running stage)) (hseen : c.seen = s.cancellation) :
    Current (c.op n) s.log := by
  have hok := h.calls n c hc
  rw [CallOk, hst] at hok
  obtain ⟨hsub, -, hplays, hcalm⟩ := hok
  exact ⟨(hsub hplays).2 hseen, h.cleared (hcalm hseen)⟩

theorem explicit_of_connect {layer : Layer} {mode : SessionConnect}
    (h : op.operation = .connect layer mode) (hmode : mode ≠ .retry) : op.explicit = true := by
  rw [Op.explicit, h]
  exact decide_eq_true hmode

/-- Attempts that connect, and are no retries. -/
theorem op_explicit (hd : c.method.disconnects = false) (hplays : c.method.plays = false)
    (hretry : c.method.retries = false) : (c.op n).explicit = true := by
  have hop : (c.op n).operation = c.method.operation := rfl
  cases hm : c.method with
  | connect | reconnect => exact explicit_of_connect (hop.trans (by rw [hm]; rfl)) (by simp)
  | autoReconnect => exact absurd (hm ▸ hretry) (by simp [Method.retries])
  | disconnect => exact absurd (hm ▸ hd) (by simp [Method.disconnects])
  | playAudio | stopAudio => exact absurd (hm ▸ hplays) (by simp [Method.plays])

/-- `run` starts, and finds its subscription fresh. -/
theorem Heeded.runStart (h : Heeded s) (hc : s.calls n = some c) (hst : c.stage = .held .run)
    (hseen : c.seen = s.cancellation) :
    Heeded (({ s with intentionalDisconnect := false }.record (.runStarted (c.op n))).put n
      (c.at' (.running .unpolled))) := by
  have hok := h.calls n c hc
  rw [CallOk, hst] at hok
  obtain ⟨hsub, hd, hplays, hretry⟩ := hok
  have hlater : Later s ({ s with intentionalDisconnect := false }.record (.runStarted (c.op n))) :=
    .keeps [.runStarted (c.op n)] rfl (by simp [CallEvent.isRequest]) rfl fun _ => rfl
  have hcleared : Cleared (s.log ++ [.runStarted (c.op n)]) := by
    by_cases hr : c.method.retries = true
    · -- the flag was down before
      exact (h.cleared (hretry hr hseen)).append (by simp [CallEvent.isRequest])
    · refine Or.inr ⟨c.op n, op_explicit hd hplays (Bool.eq_false_iff.mpr hr), ?_⟩
      rw [sinceRequest_append (by simp [CallEvent.isRequest])]
      exact (List.singleton_sublist.mpr ((hsub hplays).2 hseen)).append (List.Sublist.refl _)
  have hok' :
    Subscribed ({ s with intentionalDisconnect := false }.record (.runStarted (c.op n))) n c ∧
      c.method.disconnects = false ∧ c.method.plays = false ∧
        (c.seen = s.cancellation → false = false) :=
    ⟨hlater.subscribed hsub, hd, hplays, fun _ => rfl⟩
  have hmem : ∀ e, e ∈ s.log ++ [.runStarted (c.op n)] → e ≠ .runStarted (c.op n) → e ∈ s.log := by
    intro e he hne
    rcases List.mem_append.mp he with he | he
    · exact he
    · exact absurd (List.mem_singleton.mp he) hne
  exact h.put hc hlater rfl rfl (fun _ => hcleared)
    (Connects.record (s := { s with intentionalDisconnect := false }) h.connects rfl)
    (justified_concat h.justified (justified_of_plain rfl))
    (fun m hm => Or.inl (hmem _ hm (by simp))) (fun op hop => Or.inl (hmem _ hop (by simp)))
    hok' (by simp [SessionCall.at']) fun _ hi => hi.keep rfl fun _ => rfl

/-- What the release of the gate leaves. -/
theorem release_adds (s : SessionCalls) (op : Op) : Adds (·.plain = true) s (s.release op) :=
  Adds.recorded (.keep rfl) rfl rfl

theorem Heeded.release (h : Heeded s) (hc : s.calls n = some c)
    (hadds : Adds (·.plain = true) s s') {stage : CallStage} (hbegun : stage ≠ .begun)
    (hstage : stage.attempts = true)
    (hok : CallOk (s'.release (c.op n)) n (c.goto stage)) :
    Heeded ((s'.release (c.op n)).put n (c.goto stage)) :=
  h.adds hc (hadds.trans (release_adds s' _)).harmless hok hbegun fun _ hi =>
    hi.keep rfl fun _ => hstage

/-- An audio operation goes on. -/
theorem Heeded.play (h : Heeded s) (hc : s.calls n = some c)
    (hadds : Adds (·.plain = true) s s') {st' : Held} (hst' : c'.stage = .held st')
    (hindex : c'.index = c.index) (hplays : c.method.plays = true)
    (hok : c.method.plays = true → RolledBack s' n c' → Retried s' n c' → CallOk s' n c')
    (hmethod : c'.method = c.method) : Heeded (s'.put n c') := by
  obtain ⟨hd, hr⟩ := Method.others_of_plays hplays
  refine h.serve hc hst' hindex hadds.harmless (hok hplays (fun hd' => ?_) fun hr' => ?_)
  · rw [hmethod] at hd'
    exact absurd (hd.symm.trans hd') (by simp)
  · rw [hmethod] at hr'
    exact absurd (hr.symm.trans hr') (by simp)

theorem Heeded.held_step (h : Heeded s) (hc : s.calls n = some c) {st : Held}
    (hst : c.stage = .held st)
    (hseen : ∀ stage, st = .running stage → c.seen = s.cancellation)
    (outcome : PortResult String) (isOpen : Bool) : Heeded (s.held o n c outcome isOpen st) := by
  have hok := h.calls n c hc
  rw [CallOk, hst] at hok
  have hstay : Adds (Harmless s.log) s s := .refl s
  have hnone : Adds (·.plain = true) s s := .refl s
  have hstop := fun a => stopAudioSender_adds s (c.op n) a
  have hclose := fun r => close_adds s (c.op n) r
  unfold SessionCalls.held
  cases st with
  | acquired =>
    obtain ⟨hsub, hasked⟩ := hok
    dsimp only
    split
    next layer mode hop =>
      obtain ⟨hd, hplays, hretry⟩ := Method.of_connect hop
      split
      -- A retry that finds the flag as it gets the gate gives up.
      · have hrolled : RolledBack s n c := fun hd' => absurd (hd.symm.trans hd') (by simp)
        split
        · have hretried : Retried s n
              (c.ends (.error "Reconnect cancelled by intentional disconnect")) :=
            fun _ hresult => absurd hresult (by simp [SessionCall.ends])
          exact h.serve hc rfl rfl hstay (And.intro hrolled hretried)
        · exact h.serve hc rfl rfl hstay hd
      next hflag =>
        -- A retry goes on only without the flag.
        have hok' : Subscribed s n c ∧ c.method.disconnects = false ∧ c.method.plays = false ∧
            (c.method.retries = true → c.seen = s.cancellation → s.intentionalDisconnect = false) :=
          ⟨hsub, hd, hplays, fun hr _ => Bool.eq_false_iff.mpr fun hf => hflag ⟨hretry hr, hf⟩⟩
        exact h.serve hc rfl rfl hstay hok'
    next layer hop =>
      refine h.serve hc rfl rfl hstay (callOk_recovery hasked fun hr => ?_)
      exact absurd ((Method.of_disconnect hop).symm.trans hr) (by simp)
    next hop => exact h.serve hc rfl rfl hstay (Method.of_plays (Or.inl hop))
    next hop => exact h.serve hc rfl rfl hstay (Method.of_plays (Or.inr hop))
  | run =>
    obtain ⟨hsub, hd, hplays, hretry⟩ := hok
    dsimp only
    split
    -- A cancellation since the subscription fails the attempt, else it clears the flag.
    · exact h.fail hc hstay hd _
    next heq => exact h.runStart hc hst (not_not.mp heq).symm
  | running stage =>
    exact h.progress hc hst (h.current hc hst (hseen stage rfl)) (running_adds ..) _
  | failAudio a =>
    specialize hstop a
    dsimp only
    generalize s.stopAudioSender (c.op n) a = out at hstop ⊢
    rcases out with ⟨s', next | _⟩
    · have hok' : Asked s' n c ∧ Fails c := ⟨hstop.harmless.later.asked hok.1, hok.2⟩
      exact h.serve hc rfl rfl hstop.harmless hok'
    · have hok' : Asked s' n c ∧ Fails c := ⟨hstop.harmless.later.asked hok.1, hok.2⟩
      exact h.serve hc rfl rfl hstop.harmless hok'
  | failStop =>
    have hnew := (startNewSession_adds s (c.op n)).harmless
    have hok' : Asked (s.startNewSession (c.op n)) n c ∧ Fails c := ⟨hnew.later.asked hok.1, hok.2⟩
    exact h.serve hc rfl rfl hnew hok'
  | failRollback =>
    have hset : Adds (·.plain = true) s (s.setConnected (c.op n) false) :=
      .disconnected s _ rfl
    -- The rollback of this call comes after the request it was asked for.
    have hok' : RolledBack (s.setConnected (c.op n) false) n c ∧ Fails c := by
      refine ⟨fun hd => ⟨c.op n, ?_⟩, hok.2⟩
      exact (List.singleton_sublist.mpr (hok.1 hd)).append (List.Sublist.refl _)
    exact h.serve hc rfl rfl hset.harmless hok'
  | failClose r =>
    specialize hclose r
    dsimp only
    generalize s.close (c.op n) r = out at hclose ⊢
    rcases out with ⟨s', _ | r⟩
    · have hok' : RolledBack s' n c ∧ Retried s' n c := by
        refine ⟨hclose.harmless.later.rolledBack hok.1, fun hr hresult => ?_⟩
        obtain ⟨e, he⟩ := hok.2 hr
        exact absurd (he.symm.trans hresult) (by simp)
      exact h.serve hc rfl rfl hclose.harmless hok'
    · have hok' : RolledBack s' n c ∧ Fails c := ⟨hclose.harmless.later.rolledBack hok.1, hok.2⟩
      exact h.serve hc rfl rfl hclose.harmless hok'
  | playStop a =>
    specialize hstop a
    dsimp only
    generalize s.stopAudioSender (c.op n) a = out at hstop ⊢
    rcases out with ⟨s', next | error | _⟩
    · exact h.play hc hstop rfl rfl hok (fun hp _ _ => hp) rfl
    · exact h.play hc hstop rfl rfl hok (fun _ hb hr => And.intro hb hr) rfl
    · dsimp only
      split
      · exact h.play hc hstop rfl rfl hok (fun hp _ _ => hp) rfl
      · exact h.play hc hstop rfl rfl hok (fun _ hb hr => And.intro hb hr) rfl
  | playTrack =>
    dsimp only
    split
    · exact h.play hc hnone rfl rfl hok (fun hp _ _ => hp) rfl
    · exact h.play hc hnone rfl rfl hok (fun _ hb hr => And.intro hb hr) rfl
  | playNew =>
    dsimp only
    split
    · exact h.play hc hnone rfl rfl hok (fun hp _ _ => hp) rfl
    · exact h.play hc hnone rfl rfl hok (fun _ hb hr => And.intro hb hr) rfl
  | playStart =>
    dsimp only
    split
    · exact h.play hc (.keep rfl) rfl rfl hok (fun _ hb hr => And.intro hb hr) rfl
    · exact h.play hc (.keep rfl) rfl rfl hok (fun hp _ _ => hp) rfl
  | playFail a =>
    specialize hstop a
    dsimp only
    generalize s.stopAudioSender (c.op n) a = out at hstop ⊢
    rcases out with ⟨s', next | _⟩
    · exact h.play hc hstop rfl rfl hok (fun hp _ _ => hp) rfl
    · exact h.play hc hstop rfl rfl hok (fun _ hb hr => And.intro hb hr) rfl
  | audioStop a =>
    specialize hstop a
    dsimp only
    generalize s.stopAudioSender (c.op n) a = out at hstop ⊢
    rcases out with ⟨s', next | _⟩
    · exact h.play hc hstop rfl rfl hok (fun hp _ _ => hp) rfl
    · exact h.play hc hstop rfl rfl hok (fun _ hb hr => And.intro hb hr) rfl
  | finish =>
    have hlater := (release_adds s (c.op n)).harmless.later
    have hok' : RolledBack (s.release (c.op n)) n c ∧ Retried (s.release (c.op n)) n c :=
      ⟨hlater.rolledBack hok.1, hlater.retried hok.2⟩
    exact h.release hc hnone (by simp) rfl hok'
  | giveUp => exact h.release hc hnone (by simp) rfl hok
  | dropAudio a =>
    specialize hstop a
    dsimp only
    generalize s.stopAudioSender (c.op n) a = out at hstop ⊢
    rcases out with ⟨s', next | _⟩
    · exact h.serve hc rfl rfl hstop.harmless trivial
    · have hset : Adds (·.plain = true) s' (s'.setConnected (c.op n) false) :=
        .disconnected s' _ rfl
      exact h.serve hc rfl rfl (hstop.trans hset).harmless trivial
  | dropClose r =>
    specialize hclose r
    dsimp only
    generalize s.close (c.op n) r = out at hclose ⊢
    rcases out with ⟨s', _ | r⟩
    · exact h.release hc hclose (by simp) rfl trivial
    · exact h.serve hc rfl rfl hclose.harmless trivial
  | dropOperation a =>
    specialize hstop a
    dsimp only
    generalize s.stopAudioSender (c.op n) a = out at hstop ⊢
    rcases out with ⟨s', next | _⟩
    · exact h.serve hc rfl rfl hstop.harmless trivial
    · exact h.release hc hstop (by simp) rfl trivial

/-! ### The calls -/

theorem Heeded.request (h : Heeded s) (hc : s.calls n = some c) (hst : c.stage = .begun) :
    Heeded (({ s with intentionalDisconnect := true, cancellation := s.cancellation + 1 }.record
      (.requested n)).put n (c.goto .subscribe)) := by
  have hnew : .requested n ∉ s.log := fun hmem => by
    obtain ⟨c₀, hc₀, hne⟩ := h.requested n hmem
    rw [hc, Option.some_inj] at hc₀
    exact hne (hc₀ ▸ hst)
  have hmem : ∀ e ∈ s.log ++ [.requested n], e ∈ s.log ∨ e = .requested n := fun e he => by
    rcases List.mem_append.mp he with he | he
    · exact Or.inl he
    · exact Or.inr (List.mem_singleton.mp he)
  have hok : c.method.disconnects = true → .requested n ∈ s.log ++ [.requested n] :=
    fun _ => List.mem_append_right _ (by simp)
  refine h.put hc (.asks (List.prefix_append _ _) (Nat.lt_succ_self _)) rfl rfl
    (fun hflag => absurd hflag (by simp [record]))
    (Connects.record (s := { s with
      intentionalDisconnect := true
      cancellation := s.cancellation + 1 }) h.connects rfl)
    (justified_concat h.justified hnew) (fun m hm => ?_) (fun op hop => ?_) hok
    (by simp [SessionCall.goto]) fun _ hi => hi.keep rfl (by simp [hst, CallStage.attempts])
  · exact (hmem _ hm).imp id fun h => CallEvent.requested.inj h
  · exact Or.inl ((hmem _ hop).resolve_right (by simp))

theorem Heeded.subscribe (h : Heeded s) (hc : s.calls n = some c) (hst : c.stage = .subscribe) :
    Heeded ((if c.method.operation.subscribes then s.record (.subscribed (c.op n)) else s).put n
      { c with seen := s.cancellation, result := .ok (), stage := .queued }) := by
  have hasked : Asked s n c := by
    have hok := h.calls n c hc
    rw [CallOk, hst] at hok
    exact hok
  split
  next hsub =>
    have hnew : .subscribed (c.op n) ∉ s.log := fun hmem => by
      obtain ⟨c₀, hc₀, hhas⟩ := h.subscribed _ hmem
      rw [show (c.op n).call = n from rfl, hc, Option.some_inj] at hc₀
      subst hc₀
      rcases hhas with hlt | ⟨-, hst'⟩
      · exact absurd hlt (lt_irrefl _)
      · rw [hst] at hst'
        exact absurd hst' (by decide)
    have hmem : ∀ e ∈ s.log ++ [.subscribed (c.op n)], e ∈ s.log ∨ e = .subscribed (c.op n) :=
      fun e he => by
        rcases List.mem_append.mp he with he | he
        · exact Or.inl he
        · exact Or.inr (List.mem_singleton.mp he)
    have hlater : Later s (s.record (.subscribed (c.op n))) :=
      .keeps [.subscribed (c.op n)] rfl (by simp [CallEvent.isRequest]) rfl id
    have hok : (c.method.plays = false → s.cancellation ≤ s.cancellation ∧
        (s.cancellation = s.cancellation →
          .subscribed (c.op n) ∈ sinceRequest (s.log ++ [.subscribed (c.op n)]))) ∧
        Asked (s.record (.subscribed (c.op n))) n c := by
      refine ⟨fun _ => ⟨le_refl _, fun _ => ?_⟩, hlater.asked hasked⟩
      rw [sinceRequest_append (by simp [CallEvent.isRequest])]
      exact List.mem_append_right _ (by simp)
    refine h.put hc hlater rfl rfl
      (fun hflag => (h.cleared hflag).append (by simp [CallEvent.isRequest]))
      (h.connects.record rfl) (justified_concat h.justified hnew) (fun m hm => ?_)
      (fun op hop => ?_) hok (by simp) fun _ hi => hi.keep rfl fun _ => rfl
    · exact Or.inl ((hmem _ hm).resolve_right (by simp))
    · refine (hmem _ hop).imp id fun h => ?_
      rw [CallEvent.subscribed.inj h]
      exact ⟨rfl, Or.inr ⟨rfl, rfl⟩⟩
  next hsub =>
    have hok : (c.method.plays = false → s.cancellation ≤ s.cancellation ∧
        (s.cancellation = s.cancellation → .subscribed (c.op n) ∈ sinceRequest s.log)) ∧
        Asked s n c :=
      ⟨fun hp => absurd (Method.subscribes_of_plays hp) hsub, hasked⟩
    exact h.adds hc (.refl s) hok (by simp) fun _ hi => hi.keep rfl fun _ => rfl

theorem Heeded.return (h : Heeded s) (hc : s.calls n = some c) {answer : Answer}
    (hj : ∀ es, Justified (s.log ++ es) (.returned n answer)) : Heeded (s.return' n c answer) := by
  have hreturned : Harmless s.log (.returned n answer) := ⟨rfl, by simp, fun es _ => hj es⟩
  exact h.adds hc (.record hreturned rfl) trivial (by simp [SessionCall.goto])
    fun _ hi => hi.keep rfl fun _ => rfl

/-- Only the place of the call changes. -/
theorem Heeded.goto (h : Heeded s) (hc : s.calls n = some c) {stage : CallStage}
    (hok : CallOk s n (c.goto stage)) (hbegun : stage ≠ .begun)
    (hstage : c.stage.attempts = true → stage.attempts = true) : Heeded (s.put n (c.goto stage)) :=
  h.adds hc (.refl s) hok hbegun fun _ hi => hi.keep rfl hstage

theorem Heeded.afterwards (h : Heeded s) (hc : s.calls n = some c) {again : Bool}
    (hst : c.stage = .released again) : Heeded (s.afterwards n c again) := by
  have hok := h.calls n c hc
  rw [CallOk, hst] at hok
  unfold SessionCalls.afterwards
  split
  next layer maxRetries hm =>
    split
    next hresult =>
      refine h.return hc fun es => ?_
      cases again with
      | false => trivial
      | true =>
        obtain ⟨op, hop, hran⟩ := hok.2 (by rw [hm]; rfl) hresult
        exact ⟨op, hop, List.mem_append_left _ hran⟩
    next =>
      split
      · exact h.adds hc (.refl s) trivial (by simp) fun _ hi => hi.next rfl
      · exact h.goto hc trivial (by simp) fun _ => rfl
  next layer hm =>
    refine h.return hc fun es => ?_
    cases again with
    | false => exact absurd (hm ▸ hok) (by simp [Method.disconnects])
    | true =>
      obtain ⟨op, hop⟩ := hok.1 (by rw [hm]; rfl)
      exact ⟨op, hop.trans (List.sublist_append_left _ _)⟩
  next => exact h.return hc fun es => trivial

theorem Heeded.resume (h : Heeded s) (hc : s.calls n = some c)
    (hseen : ∀ stage, c.stage = .held (.running stage) → c.seen = s.cancellation)
    (outcome : PortResult String) (isOpen : Bool) : Heeded (s.resume o n c outcome isOpen) := by
  unfold SessionCalls.resume
  cases hst : c.stage with
  | begun =>
    dsimp only
    split
    · exact h.request hc hst
    · split
      · exact h.return hc fun es => trivial
      · exact h.goto hc trivial (by simp) (by simp [hst, CallStage.attempts])
    next hnot _ =>
      have hok : Asked s n (c.goto .subscribe) := by
        intro hd
        cases hm : c.method with
        | disconnect layer => exact absurd hm (hnot layer)
        | _ =>
          change c.method.disconnects = true at hd
          rw [hm] at hd
          exact absurd hd (by simp [Method.disconnects])
      exact h.goto hc hok (by simp) (by simp [hst, CallStage.attempts])
  | retryLoop =>
    dsimp only
    split
    next hm =>
      split
      · have hok : Asked s n (c.goto .subscribe) := by
          intro hd
          change c.method.disconnects = true at hd
          rw [hm] at hd
          exact absurd hd (by simp [Method.disconnects])
        exact h.goto hc hok (by simp) (by simp [hst, CallStage.attempts])
      · exact h.return hc fun es => trivial
    · exact h
  | subscribe => exact h.subscribe hc hst
  | held st => exact h.held_step hc hst (fun stage hs => hseen stage (hs ▸ hst)) outcome isOpen
  | released again => exact h.afterwards hc hst
  | sleeping => exact h.adds hc (.refl s) trivial (by simp) fun _ hi => hi.next rfl
  | queued | returned | gone => exact h

theorem Heeded.dropFuture (h : Heeded s) (hc : s.calls n = some c) : Heeded (s.dropFuture n c) := by
  unfold SessionCalls.dropFuture
  cases hst : c.stage with
  | queued | sleeping => exact h.goto hc trivial (by simp) fun _ => rfl
  | held st =>
    dsimp only
    split
    · split
      · exact h.serve hc rfl rfl (.refl s) trivial
      · split
        · exact h.serve hc rfl rfl (startNewSession_adds s _).harmless trivial
        · exact h.serve hc rfl rfl (Adds.disconnected s _ (harmless_of_plain rfl)) trivial
    · exact h
  | _ => exact h

theorem Heeded.call (h : Heeded s) (method : Method) :
    Heeded { s.put s.nextCall (.begun method) with nextCall := s.nextCall + 1 } := by
  have hnone := h.unused s.nextCall (le_refl _)
  have hother : ∀ {m c₀}, s.calls m = some c₀ →
      (s.put s.nextCall (.begun method)).calls m = some c₀ := by
    intro m c₀ hm
    have hne : m ≠ s.nextCall := by
      rintro rfl
      exact absurd (hnone.symm.trans hm) (by simp)
    rwa [put_calls, if_neg hne]
  refine ⟨fun m c₀ hm => ?_, h.cleared, h.connects, h.justified, fun m hm => ?_, fun op hop => ?_,
    fun m hm => ?_⟩
  · change (s.put s.nextCall (.begun method)).calls m = some c₀ at hm
    rw [put_calls] at hm
    split at hm
    · rw [← Option.some_inj.mp hm]
      trivial
    · exact h.calls m c₀ hm
  · obtain ⟨c₀, hc₀, hne⟩ := h.requested m hm
    exact ⟨c₀, hother hc₀, hne⟩
  · obtain ⟨c₀, hc₀, hhas⟩ := h.subscribed op hop
    exact ⟨c₀, hother hc₀, hhas⟩
  · change s.nextCall + 1 ≤ m at hm
    show (s.put s.nextCall (.begun method)).calls m = none
    rw [put_calls, if_neg (by omega)]
    exact h.unused m (by omega)

/-- A step that polls no operation, or one whose subscription is fresh. -/
theorem step_heeded (h : Heeded s) (a : Action)
    (hguard : ∀ n c stage, a.polls = some n → s.calls n = some c →
      c.stage = .held (.running stage) → c.seen = s.cancellation ∨ ∃ m, a = .cancel m) :
    Heeded (s.step o a) := by
  cases a with
  | call method => exact h.call method
  | resume n outcome isOpen =>
    unfold step withCall
    dsimp only
    split
    · exact h
    next c hc =>
      refine h.resume hc (fun stage hst => ?_) outcome isOpen
      rcases hguard n c stage rfl hc hst with hseen | ⟨m, hm⟩
      · exact hseen
      · exact absurd hm (by simp)
  | acquire n =>
    unfold step withCall
    dsimp only
    split
    · exact h
    next c hc =>
      -- Subscribing and asking happened before the gate, and the gate changes neither.
      split
      next hfree =>
        have hadds : Adds (·.plain = true) s
            ({ s with gate := some n }.record (.acquired (c.op n))) :=
          Adds.recorded (.keep rfl) rfl rfl
        have hok := h.calls n c hc
        rw [CallOk, hfree.2] at hok
        have hok' : Subscribed ({ s with gate := some n }.record (.acquired (c.op n))) n c ∧
            Asked ({ s with gate := some n }.record (.acquired (c.op n))) n c :=
          ⟨hadds.harmless.later.subscribed hok.1, hadds.harmless.later.asked hok.2⟩
        exact h.serve hc rfl rfl hadds.harmless hok'
      next => exact h
  | firstPoll n =>
    unfold step withRunning withCall
    dsimp only
    split
    · exact h
    next c hc =>
      split
      next stage hst =>
        split
        -- By the guard nothing was cancelled before this poll.
        · rcases hguard n c stage rfl hc hst with hseen | ⟨m, hm⟩
          · exact h.progress hc hst (h.current hc hst hseen) (firstPoll_adds s _) _
          · exact absurd hm (by simp)
        · exact h
      next => exact h
  | cancel n =>
    unfold step withRunning withCall
    dsimp only
    split
    · exact h
    next c hc =>
      split
      next stage hst =>
        have hok := h.calls n c hc
        rw [CallOk, hst] at hok
        split
        · exact h.fail hc (.refl s) hok.2.1 _
        · exact h
      next => exact h
  | elapse n diagnostic =>
    unfold step withRunning withCall
    dsimp only
    split
    · exact h
    next c hc =>
      split
      next stage hst =>
        rcases hguard n c stage rfl hc hst with hseen | ⟨m, hm⟩
        · exact h.progress hc hst (h.current hc hst hseen) (.refl s) _
        · exact absurd hm (by simp)
      next => exact h
  | dropFuture n =>
    unfold step withCall
    dsimp only
    split
    · exact h
    next c hc => exact h.dropFuture hc
  | shutdownDone k result =>
    unfold step
    dsimp only
    split
    next op _ =>
      have hadds : Adds (·.plain = true) s
          ((s.setShutdown k { op, result := some result }).record (.shutdownFinished op k)) :=
        Adds.recorded (.keep rfl) rfl rfl
      exact h.outside hadds.harmless
    next => exact h
  | closeDone =>
    unfold step
    dsimp only
    split
    next op _ =>
      have hadds : Adds (·.plain = true) s
          ({ s with closeTask := some { op, done := true } }.record (.closeFinished op)) :=
        Adds.recorded (.keep rfl) rfl rfl
      exact h.outside hadds.harmless
    next => exact h
  | newSession => exact h.outside (.keep rfl)

/-! ### Turns -/

/-- The subscription of what runs is fresh. -/
def Fresh (s : SessionCalls) (n : ℕ) : Prop :=
  ∀ c stage, s.calls n = some c → c.stage = .held (.running stage) → c.seen = s.cancellation

theorem progress_fresh (hadds : Adds P s s') (hseen : c.seen = s.cancellation) (p : Progress) :
    Fresh (s'.progress n c p) n := by
  intro c' stage hc' _
  cases p with
  | «at» stage' =>
    change (s'.put n _).calls n = some c' at hc'
    rw [put_calls, if_pos rfl, Option.some_inj] at hc'
    rw [← hc']
    exact hseen.trans hadds.cancellation.symm
  | done result =>
    change ((s'.record _).put n _).calls n = some c' at hc'
    rw [put_calls, if_pos rfl, Option.some_inj] at hc'
    rw [← hc']
    cases result <;> exact hseen.trans hadds.cancellation.symm

/-- A part of a poll. -/
def Action.continues (n : ℕ) : Action → Prop
  | .firstPoll m | .resume m _ _ | .elapse m _ => m = n
  | _ => False

theorem Action.continues.polls {a : Action} (h : a.continues n) : a.polls = some n := by
  cases a with
  | firstPoll | resume | elapse => exact congrArg some h
  | _ => exact absurd h (by simp [Action.continues])

theorem exists_running (hrun : s.inRun n = true) :
    ∃ c stage, s.calls n = some c ∧ c.stage = .held (.running stage) := by
  unfold inRun at hrun
  split at hrun
  next hc => exact ⟨_, _, hc, rfl⟩
  next => exact absurd hrun (by simp)

theorem inRun_eq {stage : Running} (hc : s.calls n = some c)
    (hst : c.stage = .held (.running stage)) :
    s.inRun n = true := by
  obtain ⟨method, index, seen, result, stage'⟩ := c
  dsimp only at hst
  subst hst
  rw [inRun, hc]

theorem step_fresh {a : Action} (ha : a.continues n) (hfresh : Fresh s n)
    (hrun : s.inRun n = true) :
    Fresh (s.step o a) n := by
  obtain ⟨c, stage, hc, hst⟩ := exists_running hrun
  have hseen := hfresh c stage hc hst
  cases a with
  | resume m outcome isOpen =>
    obtain rfl : m = n := ha
    simp only [step, withCall, hc, resume, hst, held]
    exact progress_fresh (running_adds ..) hseen _
  | firstPoll m =>
    obtain rfl : m = n := ha
    simp only [step, withRunning, withCall, hc, hst]
    split
    · exact progress_fresh (firstPoll_adds ..) hseen _
    · exact hfresh
  | elapse m diagnostic =>
    obtain rfl : m = n := ha
    simp only [step, withRunning, withCall, hc, hst]
    exact progress_fresh (P := Own (c.op m)) (.refl s) hseen _
  | _ => exact absurd ha (by simp [Action.continues])

theorem polled_heeded : ∀ {as : List Action} {s : SessionCalls}, (∀ a ∈ as, a.continues n) →
    Heeded s → Fresh s n → Heeded (s.polled o n as) := by
  intro as
  induction as with
  | nil =>
    intro s _ h _
    exact h
  | cons a rest ih =>
    intro s has h hfresh
    have ha := has a (by simp)
    unfold polled
    split
    next hrun =>
      refine ih (fun b hb => has b (by simp [hb])) (step_heeded h a ?_) (step_fresh ha hfresh hrun)
      intro m c stage hm hc hst
      have hmn : m = n := Option.some_inj.mp (hm.symm.trans ha.polls)
      exact Or.inl (hfresh c stage (hmn ▸ hc) hst)
    next => exact h

theorem poll_continues (n : ℕ) (answers : List (PortResult String × Bool))
    (deadline : Option (Option String)) :
    ∀ a ∈ Action.firstPoll n :: answers.map (fun a => Action.resume n a.1 a.2) ++
      (deadline.map (Action.elapse n)).toList, a.continues n := by
  intro a ha
  rcases List.mem_append.mp ha with ha | ha
  · rcases List.mem_cons.mp ha with rfl | ha
    · rfl
    · obtain ⟨answer, -, rfl⟩ := List.mem_map.mp ha
      rfl
  · cases deadline with
    | none => exact absurd ha (by simp)
    | some diagnostic =>
      rw [List.mem_singleton.mp ha]
      rfl

theorem turn_heeded (h : Heeded s) (t : Turn) : Heeded (s.turn o t) := by
  cases t with
  | poll n answers deadline =>
    unfold turn poll withRunning withCall
    dsimp only
    split
    · exact h
    next c hc =>
      split
      next stage hst =>
        split
        · exact step_heeded h _ fun _ _ _ _ _ _ => Or.inr ⟨n, rfl⟩
        next hseen =>
          refine polled_heeded (poll_continues n answers deadline) h fun c' _ hc' _ => ?_
          rw [hc, Option.some_inj] at hc'
          rw [← hc']
          exact (not_not.mp hseen).symm
      next => exact h
  | step a =>
    unfold turn
    dsimp only
    split
    · exact h
    next hout =>
      refine step_heeded h a fun n c stage ha hc hst => absurd ?_ hout
      rw [ha]
      exact inRun_eq hc hst

theorem new_heeded (sessionId : ℕ) : Heeded (new sessionId) where
  calls n c hc := absurd (show none = some c from hc) (by simp)
  cleared _ := Or.inl (by simp [new])
  connects hc := absurd (show false = true from hc) (by simp)
  justified l₁ e l₂ hl := absurd (congrArg List.length hl) (by simp [new])
  requested n hn := absurd hn (by simp [new])
  subscribed op hop := absurd hop (by simp [new])
  unused _ _ := rfl

theorem run_heeded (o : SessionOptions) (sessionId : ℕ) (ts : List Turn) :
    Heeded (Runs.run (turn o) (new sessionId) ts) :=
  Runs.run_invariant (I := Heeded) (fun _ t h => turn_heeded h t) ts (new_heeded sessionId)

/-! ### The flag -/

theorem progress_flag (s : SessionCalls) (n : ℕ) (c : SessionCall) (p : Progress) :
    (s.progress n c p).intentionalDisconnect = s.intentionalDisconnect := by
  cases p <;> rfl

/-- Only the start of `run` clears it. -/
theorem held_flag {st : Held} (hst : st ≠ .run) (outcome : PortResult String) (isOpen : Bool) :
    (s.held o n c outcome isOpen st).intentionalDisconnect = s.intentionalDisconnect := by
  have hstop := fun a => (stopAudioSender_adds s (c.op n) a).flag
  have hclose := fun r => (close_adds s (c.op n) r).flag
  unfold SessionCalls.held
  cases st with
  | run => exact absurd rfl hst
  | acquired =>
    dsimp only
    split
    · split
      · rfl
      · rfl
    · rfl
    · rfl
    · rfl
  | running stage => exact (progress_flag ..).trans (running_adds s _ outcome isOpen stage).flag
  | failAudio a | audioStop a | playFail a | dropAudio a | dropOperation a =>
    specialize hstop a
    dsimp only
    generalize s.stopAudioSender (c.op n) a = out at hstop ⊢
    rcases out with ⟨s', next | _⟩
    · exact hstop
    · exact hstop
  | failClose r | dropClose r =>
    specialize hclose r
    dsimp only
    generalize s.close (c.op n) r = out at hclose ⊢
    rcases out with ⟨s', _ | r⟩
    · exact hclose
    · exact hclose
  | playStop a =>
    specialize hstop a
    dsimp only
    generalize s.stopAudioSender (c.op n) a = out at hstop ⊢
    rcases out with ⟨s', next | error | _⟩
    · exact hstop
    · exact hstop
    · dsimp only
      split
      · exact hstop
      · exact hstop
  | playTrack | playNew | playStart =>
    dsimp only
    split
    · rfl
    · rfl
  | failStop | failRollback | finish | giveUp => rfl

theorem resume_flag (hup : s.intentionalDisconnect = true) (hst : c.stage ≠ .held .run)
    (outcome : PortResult String) (isOpen : Bool) :
    (s.resume o n c outcome isOpen).intentionalDisconnect = true := by
  unfold SessionCalls.resume
  cases hstage : c.stage with
  | begun =>
    dsimp only
    split
    · rfl
    · split
      · exact hup
      · exact hup
    · exact hup
  | retryLoop =>
    dsimp only
    split
    · split
      · exact hup
      · exact hup
    · exact hup
  | subscribe =>
    dsimp only
    split
    · exact hup
    · exact hup
  | held st => exact (held_flag (fun h => hst (h ▸ hstage)) outcome isOpen).trans hup
  | released again =>
    unfold SessionCalls.afterwards
    dsimp only
    split
    · split
      · exact hup
      · split
        · exact hup
        · exact hup
    · exact hup
    · exact hup
  | sleeping | queued | returned | gone => exact hup

theorem withRunning_flag {f : SessionCall → Running → SessionCalls}
    (hf : ∀ c stage, (f c stage).intentionalDisconnect = s.intentionalDisconnect) :
    (s.withRunning n f).intentionalDisconnect = s.intentionalDisconnect := by
  unfold withRunning withCall
  split
  · rfl
  · dsimp only
    split
    · exact hf _ _
    · rfl

theorem dropFuture_flag : (s.dropFuture n c).intentionalDisconnect = s.intentionalDisconnect := by
  unfold SessionCalls.dropFuture
  split
  · rfl
  · rfl
  · split
    · split
      · rfl
      · split
        · rfl
        · rfl
    · rfl
  · rfl

/-- No other step does. -/
theorem step_flag_of_ne {a : Action} (hup : s.intentionalDisconnect = true)
    (ha : ∀ n outcome isOpen c, a = .resume n outcome isOpen → s.calls n = some c →
      c.stage ≠ .held .run) : (s.step o a).intentionalDisconnect = true := by
  cases a with
  | call | newSession => exact hup
  | resume n outcome isOpen =>
    unfold step withCall
    dsimp only
    split
    · exact hup
    next c hc => exact resume_flag hup (ha n outcome isOpen c rfl hc) outcome isOpen
  | acquire n =>
    unfold step withCall
    dsimp only
    split
    · exact hup
    · split
      · exact hup
      · exact hup
  | firstPoll n =>
    refine (withRunning_flag fun c stage => ?_).trans hup
    split
    · exact (progress_flag ..).trans (firstPoll_adds s _).flag
    · rfl
  | cancel n =>
    refine (withRunning_flag fun c stage => ?_).trans hup
    split
    · exact progress_flag ..
    · rfl
  | elapse n diagnostic => exact (withRunning_flag fun c stage => progress_flag ..).trans hup
  | dropFuture n =>
    unfold step withCall
    dsimp only
    split
    · exact hup
    · exact dropFuture_flag.trans hup
  | shutdownDone k result =>
    unfold step
    dsimp only
    split
    · exact hup
    · exact hup
  | closeDone =>
    unfold step
    dsimp only
    split
    · exact hup
    · exact hup

/-- An explicit attempt does, whose subscription is fresh. -/
theorem step_flag (h : Heeded s) {a : Action} (hup : s.intentionalDisconnect = true)
    (hdown : (s.step o a).intentionalDisconnect = false) :
    ∃ op, op.explicit = true ∧ (s.step o a).log = s.log ++ [.runStarted op] := by
  by_contra hnot
  have hup' : (s.step o a).intentionalDisconnect = true := by
    refine step_flag_of_ne hup fun n outcome isOpen c ha hc hst => hnot ?_
    subst ha
    have hok := h.calls n c hc
    rw [CallOk, hst] at hok
    obtain ⟨-, hd, hplays, hretry⟩ := hok
    simp only [step, withCall, hc, resume, hst, held] at hdown ⊢
    split at hdown
    · rw [progress_flag, hup] at hdown
      exact absurd hdown (by simp)
    next hseen =>
      have hr : c.method.retries = false := by
        refine Bool.eq_false_iff.mpr fun hr => ?_
        exact absurd (hup.symm.trans (hretry hr (not_not.mp hseen).symm)) (by simp)
      refine ⟨c.op n, op_explicit hd hplays hr, ?_⟩
      rw [if_neg hseen]
      rfl
  exact absurd (hup'.symm.trans hdown) (by simp)

theorem polled_flag : ∀ {as : List Action} {s : SessionCalls}, (∀ a ∈ as, a.continues n) →
    s.intentionalDisconnect = true → (s.polled o n as).intentionalDisconnect = true := by
  intro as
  induction as with
  | nil =>
    intro s _ hup
    exact hup
  | cons a rest ih =>
    intro s has hup
    unfold polled
    split
    next hrun =>
      refine ih (fun b hb => has b (by simp [hb])) (step_flag_of_ne hup ?_)
      intro m outcome isOpen c ha hc hst
      obtain rfl : m = n := by
        have := has a (by simp)
        rw [ha] at this
        exact this
      -- it is in `run`
      obtain ⟨c', stage, hc', hst'⟩ := exists_running hrun
      rw [hc, Option.some_inj] at hc'
      subst hc'
      exact absurd (hst.symm.trans hst') (by simp)
    next => exact hup

theorem turn_flag (h : Heeded s) {t : Turn} (hup : s.intentionalDisconnect = true)
    (hdown : (s.turn o t).intentionalDisconnect = false) :
    ∃ op, op.explicit = true ∧ (s.turn o t).log = s.log ++ [.runStarted op] := by
  cases t with
  | poll n answers deadline =>
    have hup' : (s.poll o n answers deadline).intentionalDisconnect = true := by
      unfold poll withRunning withCall
      split
      · exact hup
      · dsimp only
        split
        · split
          · exact step_flag_of_ne hup (by simp)
          · exact polled_flag (poll_continues n answers deadline) hup
        · exact hup
    exact absurd (hup'.symm.trans hdown) (by simp)
  | step a =>
    unfold turn at hdown ⊢
    dsimp only at hdown ⊢
    split at hdown
    · exact absurd (hup.symm.trans hdown) (by simp)
    next hout =>
      rw [if_neg hout]
      exact step_flag h hup hdown

/-! ### A disconnect -/

/-- Nothing that has to be subscribed since the last request comes after a request. -/
theorem Heeded.not_later (h : Heeded s) (hj : ∀ l, Justified l e → .subscribed op ∈ sinceRequest l)
    (n : ℕ) : ¬ [.subscribed op, .requested n, e] <+ s.log := by
  intro hsub
  obtain ⟨p, r, hlog, hp⟩ := exists_split_of_sublist
    (show [CallEvent.subscribed op, .requested n] ++ [e] <+ s.log from hsub)
  have hsince := hj p (h.justified p e r hlog)
  obtain ⟨p₁, p₂, rfl, hfirst⟩ := exists_split_of_sublist
    (show [CallEvent.subscribed op] ++ [.requested n] <+ p from hp)
  -- it would have subscribed twice
  obtain ⟨q₁, q₂, hq⟩ := List.append_of_mem ((sinceRequest_suffix p₁ p₂ n).subset hsince)
  have hagain := h.justified (p₁ ++ .requested n :: q₁) (.subscribed op) (q₂ ++ e :: r)
    (by rw [hlog, hq]; simp)
  exact hagain (List.mem_append_left _ (List.singleton_sublist.mp hfirst))

/-- After a request the flag is up, or an explicit attempt has started since. -/
theorem Cleared.since {l₁ l₂ : List CallEvent} (h : Cleared (l₁ ++ .requested n :: l₂)) :
    ∃ op, op.explicit = true ∧ [.subscribed op, .runStarted op] <+ l₂ := by
  rcases h with hnone | ⟨op, hop, hsub⟩
  · exact absurd (List.mem_append_right _ (by simp)) (hnone n)
  · exact ⟨op, hop, hsub.trans (sinceRequest_suffix l₁ l₂ n).sublist⟩

/-- The log splits at an event after a request. -/
theorem exists_split_after {l₁ l₂ : List CallEvent} (hlog : log = l₁ ++ .requested n :: l₂)
    (he : e ∈ l₂) : ∃ q r, l₂ = q ++ e :: r ∧ log = (l₁ ++ .requested n :: q) ++ e :: r := by
  obtain ⟨q, r, rfl⟩ := List.append_of_mem he
  exact ⟨q, r, rfl, by rw [hlog]; simp⟩

/-- A disconnect that returned has rolled back after its request. -/
theorem Heeded.rolled_back (h : Heeded s) {l₁ l₂ : List CallEvent}
    (hlog : s.log = l₁ ++ .requested n :: l₂) (hreturned : .returned n .unit ∈ l₂) :
    ∃ op, .connected op false ∈ l₂ := by
  obtain ⟨q, r, rfl, hsplit⟩ := exists_split_after hlog hreturned
  obtain ⟨op, hop⟩ := h.justified _ _ _ hsplit
  obtain ⟨p₁, p₂, hp, hfirst⟩ := exists_split_of_sublist
    (show [CallEvent.requested n] ++ [.connected op false] <+ _ from hop)
  refine ⟨op, List.mem_append_left _ ?_⟩
  -- the request is there only once
  have hnew : .requested n ∉ l₁ := h.justified l₁ _ _ hlog
  rcases List.append_eq_append_iff.mp hp with ⟨m, rfl, hm⟩ | ⟨m, rfl, hm⟩
  · rcases m with _ | ⟨x, m⟩
    · exact absurd (List.cons_eq_cons.mp hm).1 (by simp)
    · obtain ⟨-, rfl⟩ := List.cons_eq_cons.mp hm
      simp
  · exact absurd (List.mem_append_left _ (List.singleton_sublist.mp hfirst)) hnew

/-- Without explicit attempts since a request nothing is connected after a rollback. -/
theorem Heeded.disconnected (h : Heeded s) {l₁ l₂ : List CallEvent}
    (hlog : s.log = l₁ ++ .requested n :: l₂)
    (hexplicit : ∀ op, op.explicit = true → .subscribed op ∉ l₂)
    (hrolled : ∃ op, .connected op false ∈ l₂) : s.isConnected = false := by
  refine Bool.eq_false_iff.mpr fun hconnected => ?_
  obtain ⟨op, hop⟩ := h.connects hconnected
  obtain ⟨op₀, hrolled⟩ := hrolled
  obtain ⟨q, r, rfl, hsplit⟩ := exists_split_after hlog hrolled
  -- the connect is after the rollback
  rw [hsplit] at hop
  obtain ⟨r₁, r₂, rfl⟩ := List.append_of_mem ((rtakeWhile_suffix_of_not rfl _ r).subset hop)
  have hcleared := h.justified (l₁ ++ .requested n :: (q ++ .connected op₀ false :: r₁))
    (.connected op true) r₂ (by rw [hlog]; simp)
  obtain ⟨op', hop', hsub⟩ := Cleared.since hcleared
  refine hexplicit op' hop' ?_
  have hmem : .subscribed op' ∈ q ++ .connected op₀ false :: r₁ := hsub.subset (by simp)
  rcases List.mem_append.mp hmem with hmem | hmem
  · exact List.mem_append_left _ hmem
  · rcases List.mem_cons.mp hmem with hmem | hmem
    · exact absurd hmem (by simp)
    · exact List.mem_append_right _ (by simp [hmem])

theorem explicit_disconnect_wins (o : SessionOptions) (sessionId : ℕ) (ts : List Turn) :
    -- an attempt that subscribed before a request neither starts nor returns `Ok` after it
    (∀ op n, ¬ [.subscribed op, .requested n, .operationStarted op] <+
      (Runs.run (turn o) (new sessionId) ts).log) ∧
    (∀ op n, ¬ [.subscribed op, .requested n, .ran op true] <+
      (Runs.run (turn o) (new sessionId) ts).log) ∧
    -- the flag stays up until an explicit attempt that subscribed after the request starts
    (∀ n l₁ l₂, (Runs.run (turn o) (new sessionId) ts).log = l₁ ++ .requested n :: l₂ →
      (Runs.run (turn o) (new sessionId) ts).intentionalDisconnect = true ∨
        ∃ op, op.explicit = true ∧ [.subscribed op, .runStarted op] <+ l₂) ∧
    -- a retry never clears it
    (∀ t, (Runs.run (turn o) (new sessionId) ts).intentionalDisconnect = true →
      ((Runs.run (turn o) (new sessionId) ts).turn o t).intentionalDisconnect = false →
      ∃ op, op.explicit = true ∧ ((Runs.run (turn o) (new sessionId) ts).turn o t).log =
        (Runs.run (turn o) (new sessionId) ts).log ++ [.runStarted op]) ∧
    -- and returns false, if it did not connect before the request
    (∀ n m l₁ l₂, (Runs.run (turn o) (new sessionId) ts).log = l₁ ++ .requested n :: l₂ →
      (∀ op, op.explicit = true → ¬ [.subscribed op, .runStarted op] <+ l₂) →
      .returned m (.retried true) ∈ l₂ → ∃ op, op.call = m ∧ .ran op true ∈ l₁) ∧
    -- a disconnect that returned left nothing connected
    ∀ n l₁ l₂, (Runs.run (turn o) (new sessionId) ts).log = l₁ ++ .requested n :: l₂ →
      .returned n .unit ∈ l₂ → (∀ op, op.explicit = true → .subscribed op ∉ l₂) →
      (Runs.run (turn o) (new sessionId) ts).isConnected = false ∧
        (Runs.run (turn o) (new sessionId) ts).intentionalDisconnect = true := by
  have h := run_heeded o sessionId ts
  generalize Runs.run (turn o) (new sessionId) ts = s at h ⊢
  have hflag : ∀ n l₁ l₂, s.log = l₁ ++ .requested n :: l₂ → s.intentionalDisconnect = true ∨
      ∃ op, op.explicit = true ∧ [.subscribed op, .runStarted op] <+ l₂ := by
    intro n l₁ l₂ hlog
    by_cases hf : s.intentionalDisconnect = true
    · exact Or.inl hf
    · have hcleared := h.cleared (Bool.eq_false_iff.mpr hf)
      rw [hlog] at hcleared
      exact Or.inr hcleared.since
  refine ⟨fun op n => h.not_later (e := .operationStarted op) (fun l hl => hl) n,
    fun op n => h.not_later (e := .ran op true) (fun l hl => hl.1) n, hflag,
    fun t => turn_flag h, fun n m l₁ l₂ hlog hexplicit hreturned => ?_,
    fun n l₁ l₂ hlog hreturned hexplicit => ⟨?_, ?_⟩⟩
  · obtain ⟨q, r, rfl, hsplit⟩ := exists_split_after hlog hreturned
    obtain ⟨op, hop, hran⟩ := h.justified _ _ _ hsplit
    rcases List.mem_append.mp hran with hran | hran
    · exact ⟨op, hop, hran⟩
    · -- it ran after the request, so that the flag was down
      obtain ⟨q₁, q₂, rfl⟩ := List.append_of_mem ((List.mem_cons.mp hran).resolve_left (by simp))
      have hcleared := (h.justified (l₁ ++ .requested n :: q₁) (.ran op true)
        (q₂ ++ .returned m (.retried true) :: r) (by rw [hlog]; simp)).2
      obtain ⟨op', hop', hsub⟩ := Cleared.since hcleared
      exact absurd (hsub.trans (by simp)) (hexplicit op' hop')
  · exact h.disconnected hlog hexplicit (h.rolled_back hlog hreturned)
  · refine (hflag n l₁ l₂ hlog).resolve_right ?_
    rintro ⟨op, hop, hsub⟩
    exact hexplicit op hop (hsub.subset (by simp))

def accessPointOptions : SessionOptions where
  connectionMethod := .localAP
  ip := none
  validationTimeout := .finite 5
  fits _ := true

/-- A connect is about to succeed when a disconnect is requested. -/
def overtaken : List Turn := List.flatten [
  [.step (.call (.connect .service))],
  List.replicate 2 (.step (.resume 0 (.ok "") true)),
  [.step (.acquire 0)],
  List.replicate 2 (.step (.resume 0 (.ok "") true)),
  [.poll 0 [(.ok "", true)] none, .step .closeDone,
    .poll 0 [(.ok "", true), (.ok "", true), (.ok "", true)] none,
    .step (.call (.disconnect .service)), .step (.resume 1 (.ok "") true),
    .poll 0 [(.ok "", true)] none],
  List.replicate 2 (.step (.resume 0 (.ok "") true)), [.step .closeDone],
  List.replicate 3 (.step (.resume 0 (.ok "") true)),
  [.step (.resume 1 (.ok "") true), .step (.acquire 1)],
  List.replicate 3 (.step (.resume 1 (.ok "") true)), [.step .closeDone],
  List.replicate 3 (.step (.resume 1 (.ok "") true))]

/-- The connect is cancelled, and the disconnect leaves nothing connected. -/
theorem explicit_disconnect_wins_overtaken :
    (Runs.run (turn accessPointOptions) (new 0) overtaken).isConnected = false ∧
      (Runs.run (turn accessPointOptions) (new 0) overtaken).intentionalDisconnect = true := by
  refine (explicit_disconnect_wins accessPointOptions 0 overtaken).2.2.2.2.2 1
    ((Runs.run (turn accessPointOptions) (new 0) overtaken).log.take 8)
    ((Runs.run (turn accessPointOptions) (new 0) overtaken).log.drop 9)
    (by decide +kernel) (by decide +kernel) fun op hexplicit hop => ?_
  have hnone : ((Runs.run (turn accessPointOptions) (new 0) overtaken).log.drop 9).all
      (fun e => match e with
        | .subscribed op => !op.explicit
        | _ => true) = true := by decide +kernel
  have hop' : (!op.explicit) = true := List.all_eq_true.mp hnone _ hop
  rw [hexplicit] at hop'
  exact absurd hop' (by decide)

end SessionCalls

end Unitree
