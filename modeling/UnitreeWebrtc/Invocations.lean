/-
What reaches Python.

The generation is checked when an event leaves the channel, when the dispatcher has the
interpreter, and again right before the call; between the checks a reset or a change of
the registry can come at any point.  So a callback is never called for an event of another
session, and one that is taken out is called at most once more.

* `Host.callbacks_are_current` — what a callback is called with, and when;
* `Host.removed_at_most_once_more` — a callback that is taken out;
* `Host.dispatch_accounted` — every event has one outcome, and every failure one line;
* `Host.registry_follows_subscriptions` — what may be registered.
-/
import UnitreeWebrtc.Dispatcher

namespace Unitree

namespace Host

variable {κ : Type} {base limit : ℕ} {h : Host κ}

/-! ### What is called -/

/-- A callback is only called by the step that admits it, and what is called was copied. -/
theorem Does.calls_cases {h' : Host κ} (hdoes : Does base h h') :
    h'.calls = h.calls ∨ ∃ d e r argument, h.stage.copy = some (d, e, r) ∧
      h'.stage.copy = none ∧ h.node.sys.service.sessionId = d.generation ∧
      h'.calls = h.calls ++ [⟨h.node.sys.service.sessionId, d, r, argument⟩] := by
  cases hdoes with
  | calls d e r argument hstage hcurrent =>
    exact .inr ⟨d, e, r, argument, by rw [hstage]; rfl, rfl, hcurrent, rfl⟩
  | _ => exact .inl rfl

/-- What is copied was looked up by this step, or is what was copied before. -/
theorem Does.copy_cases {h' : Host κ} (hdoes : Does base h h') {d : Delivery Tagged} {e : Tagged}
    {r : RegisteredCallback κ} (hcopy : h'.stage.copy = some (d, e, r)) :
    h.stage.copy = some (d, e, r) ∨ h.stage = .checked d e ∧
      ∃ key kind, e.event.target = some (key, kind) ∧ h.registry.lookup key = some r := by
  cases hdoes with
  | elsewhere | registers | removes | allocates => exact .inl hcopy
  | receives | calls | settles | drops | ends =>
    exact absurd hcopy (by simp [settle, DispatchStage.copy])
  | advances stage hstage =>
    have hcopy : stage.copy = some (d, e, r) := hcopy
    generalize h.stage = old at hstage
    cases hstage with
    | attach | check => exact absurd hcopy (by simp [DispatchStage.copy])
    | copy d' e' r' key kind htarget hlookup =>
      obtain ⟨rfl, rfl, rfl⟩ : d' = d ∧ e' = e ∧ r' = r := by simpa [DispatchStage.copy] using hcopy
      exact .inr ⟨rfl, key, kind, htarget, hlookup⟩
    | convert d' e' r' argument hargument => exact .inl hcopy

theorem Does.session_le {h' : Host κ} (hdoes : Does base h h')
    (hheld : ∀ d, h.stage = .done d → ∃ d', h.node.traffic.held = [d']) :
    h.node.sys.service.sessionId ≤ h'.node.sys.service.sessionId := by
  cases hdoes with
  | elsewhere node hnode | registers node hnode | removes node hnode => exact hnode.observes.1
  | receives d e node hstage hevent hnode =>
    rw [hnode.sys]
  | drops d node hstage hdrop =>
    obtain ⟨d', hd'⟩ := hheld d hstage
    rw [(hdrop d' hd').2.2]
  | ends node hstage hheld hreceived hobserved hkeep hobserves => exact hobserves.1
  | allocates | advances | calls | settles => exact le_rfl

/-- While this delivery was at hand, this callback was registered under its key. -/
def LookedUp (i : Interpreter κ) (p : Platform) (base capacity : ℕ) (start : Host κ)
    (as : List (Action κ)) (d : Delivery Tagged) (r : RegisteredCallback κ) : Prop :=
  ∃ q e key kind, q <+: as ∧ (Runs.run (step i p base capacity) start q).stage = .checked d e ∧
    e.event.target = some (key, kind) ∧
    (Runs.run (step i p base capacity) start q).registry.lookup key = some r

theorem run_lookedUp (i : Interpreter κ) (p : Platform) (capacity : ℕ) {start : Host κ}
    (hinv : Inv base limit start) (hcopy : start.stage.copy = none) (hcalls : start.calls = [])
    (as : List (Action κ)) :
    (∀ d e r, (Runs.run (step i p base capacity) start as).stage.copy = some (d, e, r) →
      LookedUp i p base capacity start as d r) ∧
    ∀ call ∈ (Runs.run (step i p base capacity) start as).calls,
      LookedUp i p base capacity start as call.delivery call.registration := by
  induction as using List.reverseRecOn with
  | nil =>
    exact ⟨fun d e r h => absurd (hcopy.symm.trans h) (by simp),
      fun call hc => absurd (hcalls ▸ hc) (by simp)⟩
  | append_singleton as a ih =>
    have hlonger : ∀ {d r}, LookedUp i p base capacity start as d r →
        LookedUp i p base capacity start (as ++ [a]) d r := by
      rintro d r ⟨q, e, key, kind, hq, hrest⟩
      exact ⟨q, e, key, kind, hq.trans (List.prefix_append _ _), hrest⟩
    have hat := Runs.run_invariant (step_inv i p capacity) as hinv
    have hdoes := step_does i p capacity hat a
    rw [Runs.run_concat]
    refine ⟨fun d e r h => ?_, fun call hc => ?_⟩
    · rcases hdoes.copy_cases h with hold | ⟨hstage, key, kind, htarget, hlookup⟩
      · exact hlonger (ih.1 d e r hold)
      · exact ⟨as, e, key, kind, List.prefix_append _ _, hstage, htarget, hlookup⟩
    · rcases hdoes.calls_cases with hsame | ⟨d, e, r, argument, hold, -, -, hnew⟩
      · exact hlonger (ih.2 call (hsame ▸ hc))
      · rw [hnew] at hc
        rcases List.mem_append.mp hc with hc | hc
        · exact hlonger (ih.2 call hc)
        · rw [List.mem_singleton.mp hc]
          exact hlonger (ih.1 d e r hold)

/-- What is called is what was handed out, in that order and once. -/
theorem Inv.calls_sublist (hinv : Inv base limit h) :
    (h.calls.map Invocation.delivery).Sublist h.node.traffic.received := by
  have hhand : h.stage.inCall.Sublist h.stage.inHand := by
    cases h.stage <;> simp [DispatchStage.inCall, DispatchStage.inHand, DispatchStage.holding]
  rw [hinv.received, hinv.handled, hinv.called]
  exact (List.filter_sublist.map _).append hhand

theorem Inv.calls_ofClass (hinv : Inv base limit h) (cls : EventClass) :
    (Traffic.ofClass cls (h.calls.map Invocation.delivery)).Sublist
      (Traffic.ofClass cls h.node.traffic.accepted) := by
  rw [hinv.node.traffic.ordered cls]
  have hreceived := hinv.calls_sublist.trans h.node.traffic.received_sublist
  exact (hreceived.filter _).trans (List.sublist_append_left _ _)

theorem Inv.call_accepted (hinv : Inv base limit h) {call : Invocation κ} (hc : call ∈ h.calls) :
    call.delivery ∈ h.node.traffic.accepted := by
  have hmem : call.delivery ∈ Traffic.ofClass call.delivery.permit.cls
      (h.calls.map Invocation.delivery) :=
    List.mem_filter.mpr ⟨List.mem_map_of_mem hc, by simp⟩
  exact List.mem_of_mem_filter ((hinv.calls_ofClass _).mem hmem)

/-- The calls of a run come after those before it, in sessions that are no older. -/
theorem run_calls (i : Interpreter κ) (p : Platform) (capacity : ℕ) (bs : List (Action κ)) :
    ∀ {h : Host κ}, Inv base limit h →
      h.node.sys.service.sessionId ≤
        (Runs.run (step i p base capacity) h bs).node.sys.service.sessionId ∧
      ∃ new, (Runs.run (step i p base capacity) h bs).calls = h.calls ++ new ∧
        ∀ call ∈ new, h.node.sys.service.sessionId ≤ call.session := by
  induction bs with
  | nil => intro h _; exact ⟨le_rfl, [], by simp, fun _ hc => absurd hc (by simp)⟩
  | cons a rest ih =>
    intro h hinv
    have hdoes := step_does i p capacity hinv a
    obtain ⟨hle', new', hnew', hses'⟩ := ih (step_inv i p capacity h a hinv)
    have hle := hdoes.session_le fun d hd => ⟨_, by rw [hinv.held, hd]; rfl⟩
    refine ⟨hle.trans hle', ?_⟩
    rcases hdoes.calls_cases with hsame | ⟨d, e, r, argument, -, -, -, hone⟩
    · exact ⟨new', by rw [Runs.run_cons, hnew', hsame], fun call hc => hle.trans (hses' call hc)⟩
    · refine ⟨_ :: new', by rw [Runs.run_cons, hnew', hone, List.append_assoc]; rfl,
        fun call hc => ?_⟩
      rcases List.mem_cons.mp hc with rfl | hc
      · exact le_rfl
      · exact hle.trans (hses' call hc)

/-- **What a callback is called with, and when**, after any run of the program, of
Python and of the dispatcher.  Every call is for an accepted event and in the session that
its source captured, as the check right before the call found; the callback was
registered under the key of the event while the dispatcher had the event in hand; and the
argument is what the event converts to.  Class by class the calls are a subsequence of what
was accepted, so that no event is called for twice or out of order.  Sessions never go
back, and once the session has left a generation, nothing from it passes that check. -/
theorem callbacks_are_current (i : Interpreter κ) (p : Platform) (base capacity limit : ℕ)
    (c : Channel Tagged) (hopen : Channel.open' limit = .ok c)
    (sessionId requestSequence nextId : ℕ) (as : List (Action κ)) :
    let start : Host κ := init c sessionId requestSequence nextId
    let h := Runs.run (step i p base capacity) start as
    (∀ call ∈ h.calls,
      call.delivery ∈ h.node.traffic.accepted ∧ call.delivery.generation = call.session ∧
      LookedUp i p base capacity start as call.delivery call.registration ∧
      ∃ e, call.delivery.event = some e ∧ h.node.born e.source = some call.session ∧
        e.event.argument = some call.argument) ∧
    (∀ cls, (Traffic.ofClass cls (h.calls.map Invocation.delivery)).Sublist
      (Traffic.ofClass cls h.node.traffic.accepted)) ∧
    (h.calls.map Invocation.session).Pairwise (· ≤ ·) ∧
    ∀ bs g, g < h.node.sys.service.sessionId →
      ∃ new, (Runs.run (step i p base capacity) h bs).calls = h.calls ++ new ∧
        ∀ call ∈ new, ∃ e, call.delivery.event = some e ∧
          (Runs.run (step i p base capacity) h bs).node.born e.source ≠ some g := by
  intro start h
  have hinv : Inv base limit h := run_inv i p capacity hopen sessionId requestSequence nextId as
  have hborn : ∀ {h' : Host κ}, Inv base limit h' → ∀ call ∈ h'.calls,
      ∃ e, call.delivery.event = some e ∧ h'.node.born e.source = some call.session ∧
        e.event.argument = some call.argument := by
    intro h' hinv' call hc
    obtain ⟨hses, e, key, kind, he, -, -, harg⟩ := hinv'.calls call hc
    obtain ⟨e', he', hsource⟩ := hinv'.node.accepted _ (hinv'.call_accepted hc)
    obtain rfl := Option.some_inj.mp (he.symm.trans he')
    exact ⟨e, he, by rw [hsource, hses], harg⟩
  refine ⟨fun call hc => ⟨hinv.call_accepted hc, (hinv.calls call hc).1, ?_, hborn hinv call hc⟩,
    hinv.calls_ofClass, hinv.sessions.1, fun bs g hg => ?_⟩
  · exact (run_lookedUp i p capacity (init_inv hopen sessionId requestSequence nextId) rfl rfl
      as).2 call hc
  · obtain ⟨-, new, hnew, hses⟩ := run_calls i p capacity bs hinv
    have hinv' : Inv base limit (Runs.run (step i p base capacity) h bs) :=
      Runs.run_invariant (step_inv i p capacity) bs hinv
    refine ⟨new, hnew, fun call hc => ?_⟩
    obtain ⟨e, he, hsource, -⟩ := hborn hinv' call (hnew ▸ List.mem_append_right _ hc)
    refine ⟨e, he, fun hsource' => ?_⟩
    have hle := hses call hc
    have heq := Option.some_inj.mp (hsource.symm.trans hsource')
    omega

/-- A process with one exception type and one connection, whose dispatcher gets a frame. -/
def oneFrame : List (Action ℕ) :=
  [.node .setIngressGeneration, .node .createPeer, .onFrame 5,
    .node (.media 0 (.videoFrame ⟨[1, 2, 3], 3⟩ 1 1)), .recvDelivery true, .tryAttach true 0,
    .checkCurrent, .copyCallback]

def oneClass : Interpreter ℕ := { valueError := 7, others := [], callable := fun _ => true }

/-- A frame is called for in the session of its peer, also while it is replaced. -/
theorem callbacks_are_current_frame :
    let h := Runs.run (step oneClass (.reading []) 72 8) (init (Channel.fresh 2) 3 0 1)
      (oneFrame ++ [.convertArgument none 0, .onFrame 6, .recheckCurrent])
    h.calls.map Invocation.session = [3] ∧
      ∀ call ∈ h.calls, call.delivery.generation = call.session := by
  intro h
  obtain ⟨hcalls, -⟩ := callbacks_are_current oneClass (.reading []) 72 8 2 _ rfl 3 0 1
    (oneFrame ++ [.convertArgument none 0, .onFrame 6, .recheckCurrent])
  exact ⟨rfl, fun call hc => (hcalls call hc).2.1⟩

/-! ### What is taken out -/

/-- The registration of this id has been made, and nothing is registered under it. -/
def Gone (id : ℕ) (h : Host κ) : Prop :=
  id < h.nextId ∧ ∀ key r, h.registry.lookup key = some r → r.id ≠ id

/-- Ids are given once. -/
structure Ids (h : Host κ) : Prop where
  fresh : ∀ key r, h.registry.lookup key = some r → r.id < h.nextId
  distinct : ∀ key key' r r', h.registry.lookup key = some r → h.registry.lookup key' = some r' →
    r.id = r'.id → key = key'

theorem register_ids (hids : Ids h) (key : String) (callback : κ) :
    Ids (h.register key callback) := by
  have hcase : ∀ {k r}, (h.register key callback).registry.lookup k = some r →
      k = key ∧ r.id = h.nextId ∨ k ≠ key ∧ h.registry.lookup k = some r := by
    intro k r hr
    rw [register, Table.lookup_insert_eq] at hr
    split at hr
    next hk => exact .inl ⟨hk, by rw [← Option.some_inj.mp hr]⟩
    next hk => exact .inr ⟨hk, hr⟩
  refine ⟨fun k r hr => ?_, fun k k' r r' hr hr' hid => ?_⟩
  · show r.id < h.nextId + 1
    rcases hcase hr with ⟨-, hr⟩ | ⟨-, hr⟩
    · omega
    · have := hids.fresh k r hr
      omega
  · rcases hcase hr with ⟨hk, hr⟩ | ⟨-, hr⟩ <;> rcases hcase hr' with ⟨hk', hr'⟩ | ⟨-, hr'⟩
    · rw [hk, hk']
    · have := hids.fresh k' r' hr'
      omega
    · have := hids.fresh k r hr
      omega
    · exact hids.distinct k k' r r' hr hr' hid

theorem Does.ids {h' : Host κ} (hdoes : Does base h h') (hids : Ids h) : Ids h' := by
  cases hdoes with
  | registers node hnode hkeys key callback hkey =>
    exact register_ids (h := { h with node }) ⟨hids.fresh, hids.distinct⟩ key callback
  | removes node hnode registry hsub =>
    exact ⟨fun k r hr => hids.fresh k r (hsub k r hr).1,
      fun k k' r r' hr hr' => hids.distinct k k' r r' (hsub k r hr).1 (hsub k' r' hr').1⟩
  | allocates =>
    exact ⟨fun k r hr => Nat.lt_succ_of_lt (hids.fresh k r hr), hids.distinct⟩
  | _ => exact ⟨hids.fresh, hids.distinct⟩

theorem Does.gone {h' : Host κ} (hdoes : Does base h h') {id : ℕ} (hgone : Gone id h) :
    Gone id h' := by
  cases hdoes with
  | registers node hnode hkeys key callback hkey =>
    refine ⟨Nat.lt_succ_of_lt hgone.1, fun k r hr => ?_⟩
    rw [register, Table.lookup_insert_eq] at hr
    split at hr
    · rw [← Option.some_inj.mp hr]
      exact Ne.symm (Nat.ne_of_lt hgone.1)
    · exact hgone.2 k r hr
  | removes node hnode registry hsub =>
    exact ⟨hgone.1, fun k r hr => hgone.2 k r (hsub k r hr).1⟩
  | allocates => exact ⟨Nat.lt_succ_of_lt hgone.1, hgone.2⟩
  | _ => exact ⟨hgone.1, hgone.2⟩

/-- Whether the dispatcher has a copy of the registration of this id. -/
def copies (id : ℕ) (h : Host κ) : ℕ :=
  (h.stage.copy.toList.filter fun x => x.2.2.id = id).length

def callsOf (id : ℕ) (calls : List (Invocation κ)) : ℕ :=
  (calls.filter fun call => call.registration.id = id).length

theorem copies_le (id : ℕ) (h : Host κ) : copies id h ≤ 1 := by
  refine (List.length_filter_le _ _).trans ?_
  cases h.stage.copy <;> simp

/-- A callback that is not registered is not copied, and a copy is used up by its call. -/
theorem Does.copies_le {h' : Host κ} (hdoes : Does base h h') {id : ℕ} (hgone : Gone id h) :
    ∃ new, h'.calls = h.calls ++ new ∧ callsOf id new + copies id h' ≤ copies id h := by
  have hcopies : copies id h' ≤ copies id h := by
    rcases hcopy : h'.stage.copy with _ | ⟨d, e, r⟩
    · simp [copies, hcopy]
    · rcases hdoes.copy_cases hcopy with hold | ⟨-, key, kind, -, hlookup⟩
      · rw [copies, copies, hold, hcopy]
      · have hne := hgone.2 key r hlookup
        simp [copies, hcopy, hne]
  rcases hdoes.calls_cases with hsame | ⟨d, e, r, argument, hold, hnone, -, hnew⟩
  · exact ⟨[], by rw [hsame, List.append_nil], by simpa [callsOf] using hcopies⟩
  · refine ⟨_, hnew, ?_⟩
    rw [copies, copies, hold, hnone]
    by_cases hid : r.id = id <;> simp [callsOf, hid]

theorem run_gone (i : Interpreter κ) (p : Platform) (capacity id : ℕ) (bs : List (Action κ)) :
    ∀ {h : Host κ}, Inv base limit h → Gone id h →
      ∃ new, (Runs.run (step i p base capacity) h bs).calls = h.calls ++ new ∧
        callsOf id new ≤ copies id h := by
  induction bs with
  | nil => intro h _ _; exact ⟨[], by simp, by simp [callsOf]⟩
  | cons a rest ih =>
    intro h hinv hgone
    have hdoes := step_does i p capacity hinv a
    obtain ⟨new, hnew, hle⟩ := hdoes.copies_le hgone
    obtain ⟨new', hnew', hle'⟩ := ih (step_inv i p capacity h a hinv) (hdoes.gone hgone)
    refine ⟨new ++ new', by rw [Runs.run_cons, hnew', hnew, List.append_assoc], ?_⟩
    rw [callsOf, List.filter_append, List.length_append]
    simp only [callsOf] at hle hle'
    omega

theorem run_ids (i : Interpreter κ) (p : Platform) (capacity : ℕ) {c : Channel Tagged}
    (hopen : Channel.open' limit = .ok c) (sessionId requestSequence nextId : ℕ)
    (as : List (Action κ)) :
    Ids (Runs.run (step i p base capacity) (init c sessionId requestSequence nextId) as) := by
  refine (Runs.run_invariant (I := fun h => Inv base limit h ∧ Ids h) (fun h a hi => ?_) as
    ⟨init_inv hopen sessionId requestSequence nextId, ⟨fun _ _ hr => ?_, fun _ _ _ _ hr => ?_⟩⟩).2
  · exact ⟨step_inv i p capacity h a hi.1, (step_does i p capacity hi.1 a).ids hi.2⟩
  · exact absurd hr (by simp [init])
  · exact absurd hr (by simp [init])

/-- What takes the registration of this key out: another one under the same key, an
`unsubscribe` that the transport accepts, and a clearing of the registry. -/
def Replaces (i : Interpreter κ) (h : Host κ) (key : String) : Action κ → Prop
  | .subscribe env topic callback => topic = key ∧ i.callable callback = true ∧
      (h.node.sys.service.subscribe env topic).1 = .ok ()
  | .unsubscribe env topic => topic = key ∧
      (h.node.sys.service.unsubscribe env topic).1 = .ok ()
  | .onFrame callback => key = "video" ∧ i.callable callback = true
  | .onAudio callback => key = "audio" ∧ i.callable callback = true
  | .clearCallbacks => True
  | _ => False

theorem register_gone (hids : Ids h) {key : String} {r : RegisteredCallback κ}
    (hr : h.registry.lookup key = some r) (callback : κ) :
    Gone r.id (h.register key callback) := by
  refine ⟨Nat.lt_succ_of_lt (hids.fresh key r hr), fun k r' hr' => ?_⟩
  rw [register, Table.lookup_insert_eq] at hr'
  split at hr'
  · rw [← Option.some_inj.mp hr']
    exact Ne.symm (Nat.ne_of_lt (hids.fresh key r hr))
  next hk => exact fun hid => hk (hids.distinct k key r' r hr' hr hid)

theorem step_gone (i : Interpreter κ) (p : Platform) (base capacity : ℕ) (hids : Ids h)
    {key : String} {r : RegisteredCallback κ} (hr : h.registry.lookup key = some r)
    {a : Action κ} (ha : Replaces i h key a) : Gone r.id (step i p base capacity h a) := by
  cases a with
  | subscribe env topic callback =>
    obtain ⟨rfl, hcallable, hok⟩ := ha
    rw [step, if_pos hcallable, hok]
    exact register_gone (h := h.call p base capacity _) ⟨hids.fresh, hids.distinct⟩ hr callback
  | unsubscribe env topic =>
    obtain ⟨rfl, hok⟩ := ha
    rw [step, hok]
    refine ⟨hids.fresh topic r hr, fun k r' hr' hid => ?_⟩
    obtain ⟨hne, hr'⟩ := Desk.lookup_of_erase hr'
    exact hne (hids.distinct k topic r' r hr' hr hid)
  | onFrame callback =>
    obtain ⟨rfl, hcallable⟩ := ha
    rw [step, if_pos hcallable]
    exact register_gone hids hr callback
  | onAudio callback =>
    obtain ⟨rfl, hcallable⟩ := ha
    rw [step, if_pos hcallable]
    exact register_gone hids hr callback
  | clearCallbacks => exact ⟨hids.fresh key r hr, fun k r' hr' => absurd hr' (by simp [step])⟩
  | _ => exact ha.elim

/-- **A callback that is taken out is called at most once more.**  After any run, a
registration is gone when another one takes its key, when its topic is unsubscribed with
an accepted send, or when the registry is cleared.  Whatever runs from there on, a
registration that is gone is called at most once, and only if the dispatcher had copied it
before. -/
theorem removed_at_most_once_more (i : Interpreter κ) (p : Platform) (base capacity limit : ℕ)
    (c : Channel Tagged) (hopen : Channel.open' limit = .ok c)
    (sessionId requestSequence nextId : ℕ) (as : List (Action κ)) :
    let start : Host κ := init c sessionId requestSequence nextId
    let h := Runs.run (step i p base capacity) start as
    (∀ key r a, h.registry.lookup key = some r → Replaces i h key a →
      Gone r.id (step i p base capacity h a)) ∧
    ∀ id, Gone id h → ∀ bs, ∃ new,
      (Runs.run (step i p base capacity) h bs).calls = h.calls ++ new ∧ callsOf id new ≤ 1 ∧
      ((∀ d e r, h.stage.copy = some (d, e, r) → r.id ≠ id) → callsOf id new = 0) := by
  intro start h
  have hinv : Inv base limit h := run_inv i p capacity hopen sessionId requestSequence nextId as
  have hids : Ids h := run_ids i p capacity hopen sessionId requestSequence nextId as
  refine ⟨fun key r a hr ha => step_gone i p base capacity hids hr ha, fun id hgone bs => ?_⟩
  obtain ⟨new, hnew, hle⟩ := run_gone i p capacity id bs hinv hgone
  refine ⟨new, hnew, hle.trans (Host.copies_le id h), fun hcopy => ?_⟩
  have hzero : copies id h = 0 := by
    rw [copies, List.length_eq_zero_iff, List.filter_eq_nil_iff]
    rintro ⟨d, e, r⟩ hmem
    simpa using hcopy d e r (Option.mem_toList.mp hmem)
  exact Nat.eq_zero_of_le_zero (hzero ▸ hle)

/-- The registry is cleared while the dispatcher has a copy. -/
theorem removed_at_most_once_more_cleared :
    let h := Runs.run (step oneClass (.reading []) 72 8) (init (Channel.fresh 2) 3 0 1)
      (oneFrame ++ [.clearCallbacks])
    ∃ new, (Runs.run (step oneClass (.reading []) 72 8) h
        [.convertArgument none 0, .recheckCurrent]).calls = h.calls ++ new ∧ callsOf 1 new ≤ 1 := by
  intro h
  obtain ⟨-, hgone⟩ := removed_at_most_once_more oneClass (.reading []) 72 8 2 _ rfl 3 0 1
    (oneFrame ++ [.clearCallbacks])
  have hnone : Gone 1 h := ⟨by decide, fun key r hr => absurd hr (by simp [h, oneFrame, step])⟩
  obtain ⟨new, hnew, hle, -⟩ := hgone 1 hnone [.convertArgument none 0, .recheckCurrent]
  exact ⟨new, hnew, hle⟩

/-! ### The books of the dispatcher -/

/-- **Every event has one outcome, and every failure is in one line of its own
generation.**  After any run: what the dispatcher was handed has an outcome each, in order,
but for the one at hand; the budget of the channel counts beside the queues that one alone;
the calls are the outcomes that say so, and the one that runs; the failures of a class in a
generation are as many as the lines of that class and generation count, and what its log
has still to say, which is nothing once the dispatcher has ended; and a line that describes
a failure names the stage, the class and the generation it was logged for. -/
theorem dispatch_accounted (i : Interpreter κ) (p : Platform) (base capacity limit : ℕ)
    (c : Channel Tagged) (hopen : Channel.open' limit = .ok c)
    (sessionId requestSequence nextId : ℕ) (as : List (Action κ)) :
    let h : Host κ :=
      Runs.run (step i p base capacity) (init c sessionId requestSequence nextId) as
    h.node.traffic.received = h.outcomes.map Prod.fst ++ h.stage.inHand ∧
    (∀ cls, h.node.traffic.channel.usage.count cls =
      (h.node.traffic.channel.queue cls).length + (Traffic.ofClass cls h.stage.holding).length) ∧
    h.stage.holding.length ≤ 1 ∧
    h.calls.map Invocation.delivery =
      (h.outcomes.filter fun o => o.2.invoked).map Prod.fst ++ h.stage.inCall ∧
    (h.outcomes.length < 2 ^ 64 → ∀ f g,
      h.failures.counted f g + h.failures.waiting f g =
        h.outcomes.countP fun o => o.2.failure = some f ∧ o.1.generation = g) ∧
    (h.stage = .ended → ∀ f g, h.failures.waiting f g = 0) ∧
    ∀ l ∈ h.failures.lines, ∀ report ∈ l.detail, l.log.Describes l.label report := by
  intro h
  have hinv : Inv base limit h := run_inv i p capacity hopen sessionId requestSequence nextId as
  refine ⟨hinv.received.trans hinv.handled, fun cls => ?_, ?_, hinv.called,
    fun hfew f g => hinv.balanced.counts hinv.recorded hfew f g, hinv.settled, hinv.described⟩
  · have hstrip : ∀ ds : List (Delivery Tagged),
        (Traffic.ofClass cls (ds.map Node.strip)).length = (Traffic.ofClass cls ds).length := by
      intro ds
      rw [Traffic.ofClass, List.filter_map, List.length_map]
      rfl
    rw [Traffic.count_eq hinv.node.traffic.ledger cls, hinv.held, hstrip]
  · cases h.stage <;> simp [DispatchStage.holding]

/-- A callback that raises has its outcome and its line. -/
theorem dispatch_accounted_raises :
    let h := Runs.run (step oneClass (.reading []) 72 8) (init (Channel.fresh 2) 3 0 1)
      (oneFrame ++ [.convertArgument none 0, .recheckCurrent, .callReturns (some 7) 4])
    let valueError : CallbackFailure := .invocation ⟨0, by decide⟩
    h.failures.counted valueError 3 + h.failures.waiting valueError 3 = 1 := by
  intro h valueError
  obtain ⟨-, -, -, -, hfailures, -⟩ := dispatch_accounted oneClass (.reading []) 72 8 2 _ rfl 3 0 1
    (oneFrame ++ [.convertArgument none 0, .recheckCurrent, .callReturns (some 7) 4])
  exact (hfailures (by decide) valueError 3).trans rfl

/-- **The registry follows the subscriptions.**  After any run, what is registered is
registered under a media key or under a topic that the robot was last asked for; and a
change of a subscription that is refused leaves the registry, the subscriptions and the
waiting requests as they were. -/
theorem registry_follows_subscriptions (i : Interpreter κ) (p : Platform)
    (base capacity limit : ℕ) (c : Channel Tagged) (hopen : Channel.open' limit = .ok c)
    (sessionId requestSequence nextId : ℕ) (as : List (Action κ)) :
    let h : Host κ :=
      Runs.run (step i p base capacity) (init c sessionId requestSequence nextId) as
    (∀ key r, h.registry.lookup key = some r → Subscribed h.node key) ∧
    (∀ env topic callback e, i.callable callback = false ∨
        (h.node.sys.service.subscribe env topic).1 = .error e →
      (step i p base capacity h (.subscribe env topic callback)).registry = h.registry ∧
      (step i p base capacity h (.subscribe env topic callback)).nextId = h.nextId ∧
      Service.RolledBack env e h.node.sys.service
        (step i p base capacity h (.subscribe env topic callback)).node.sys.service) ∧
    ∀ env topic e, (h.node.sys.service.unsubscribe env topic).1 = .error e →
      (step i p base capacity h (.unsubscribe env topic)).registry = h.registry ∧
      (step i p base capacity h (.unsubscribe env topic)).nextId = h.nextId ∧
      Service.RolledBack env e h.node.sys.service
        (step i p base capacity h (.unsubscribe env topic)).node.sys.service := by
  intro h
  have hinv : Inv base limit h := run_inv i p capacity hopen sessionId requestSequence nextId as
  refine ⟨fun key r hr => (hinv.registry key r hr).2, fun env topic callback e hrefused => ?_,
    fun env topic e hrefused => ?_⟩
  · rw [step]
    split
    next hcallable =>
      have herror := hrefused.resolve_left (by simp [hcallable])
      rw [herror]
      exact ⟨rfl, rfl, Service.subscribe_rolledBack herror⟩
    next => exact ⟨rfl, rfl, .refl env e _⟩
  · rw [step, hrefused]
    exact ⟨rfl, rfl, Service.unsubscribe_rolledBack hrefused⟩

/-- A closed channel refuses, and the callback stays what it was. -/
theorem registry_follows_subscriptions_refused :
    let h := Runs.run (step oneClass (.reading []) 72 8) (init (Channel.fresh 2) 3 0 1) oneFrame
    (step oneClass (.reading []) 72 8 h (.subscribe { Env.at 0 with readyAtSend := false } "video"
      6)).registry = h.registry := by
  intro h
  obtain ⟨-, hsubscribe, -⟩ := registry_follows_subscriptions oneClass (.reading []) 72 8 2 _ rfl
    3 0 1 oneFrame
  exact (hsubscribe { Env.at 0 with readyAtSend := false } "video" 6 _ (.inr rfl)).1

end Host

end Unitree
