/-
All or nothing.

What a connect has set up at any point is known from the point it is at, as long
as the gate is held: between `start_new_session` and the offer no peer of the new
session exists, so nothing can open it; from there on only that peer can; and
after the `start_new_session` of a cleanup nobody can, so the flags stay down
until the gate is free.  What the others do in between keeps all three
(`Around`), and this is the place where the generations matter.

* `Session.step_inv`, `Session.run_inv` — what holds at each stage;
* `Session.connect_all_or_nothing` — a connect that returns `Ok` was validated,
  and any other leaves nothing behind when it gives up the gate.
-/
import UnitreeWebrtc.Lifecycle

namespace Unitree

namespace Session

/-! ### The invariant -/

/-- The validation of generation `g` was routed, in session `g`. -/
def Validated (p : Platform) (s : Session) (g : ℕ) : Prop :=
  ∃ m, (g, m) ∈ s.processed ∧ m.generation = g ∧ Service.validates p m.payload = true

/-- Session `g` has no peer yet.  Once the router has left its loop, it does not
matter what the peers say. -/
structure Fresh (s : Session) (g : ℕ) : Prop where
  opened : s.node.sys.service.dataChannelOpened = false
  session : g ≤ s.node.sys.service.sessionId
  below : s.router = .running → s.node.sys.service.sessionId = g ∧ s.node.Below g

/-- Session `g` has the last peer, and is open only if that was validated. -/
structure Opening (p : Platform) (s : Session) (g : ℕ) : Prop where
  validated : s.node.sys.service.dataChannelOpened = true → s.Validated p g
  session : g ≤ s.node.sys.service.sessionId
  below : s.router = .running → s.node.Below (g + 1)

/-- The current session has no peer, and the flags are down. -/
structure Stopped (s : Session) : Prop where
  opened : s.node.sys.service.dataChannelOpened = false
  running : s.node.sys.service.heartbeatRunning = false
  below : s.node.Below s.node.sys.service.sessionId

/-- What holds while `x` has the gate, by its stage. -/
def Holds (p : Platform) (s : Session) (x : Attempt) : Prop :=
  match x.stage with
  | .acquired => x.passed = false
  | .run | .stopAudio | .stopTasks _ => True
  | .prepareIngress | .connectInAttempt | .rollback | .closeFirst | .connectInner
  | .prepareOffer false => ∃ g, x.started = some g ∧ s.Fresh g
  | .prepareOffer true | .exchangeSdp | .applyAnswer => ∃ g, x.started = some g ∧ s.Opening p g
  | .waitDatachannelOpen | .sleep => (∃ g, x.started = some g ∧ s.Opening p g) ∧
      s.isConnected = true ∧ s.connectedBy = some x.id
  | .opened => (∃ g, x.started = some g ∧ s.Validated p g) ∧
      s.isConnected = true ∧ s.connectedBy = some x.id ∧ x.result = .ok ()
  | .failAudio | .failStop _ => x.Failing
  | .failRollback => x.Failing ∧ s.Stopped
  | .failClose => x.Failing ∧ s.Stopped ∧ s.isConnected = false ∧
      [(x.id, .close)] <:+ s.calls
  | .failDone => x.Failing ∧ s.Stopped ∧ s.isConnected = false ∧
      [(x.id, .close), (x.id, .closed)] <:+ s.calls
  | .dropStop _ => True
  | .dropAudio | .dropConnection => s.Stopped
  | .dropRollback => s.Stopped ∧ s.isConnected = false
  | .dropClose => s.Stopped ∧ s.isConnected = false ∧ [(x.id, .close)] <:+ s.calls
  | .audio | .audioCleanup => x.job = .audio

structure Inv (p : Platform) (s : Session) : Prop where
  behind : s.node.Behind
  below : s.node.Below (s.node.sys.service.sessionId + 1)
  owner : ∀ rest, s.owner = .stopping rest → s.unborrowed = true
  holder : ∀ x, s.holder = some x → s.Holds p x

variable {p : Platform} {base capacity g : ℕ} {o : SessionOptions} {s s' : Session} {x : Attempt}

theorem Fresh.opening (h : s.Fresh g) : s.Opening p g :=
  ⟨fun ho => absurd ho (by simp [h.opened]), h.session,
    fun hr => (h.below hr).2.mono (Nat.le_succ g)⟩

/-! ### Steps of the others -/

/-- A step that leaves the gate holder alone. -/
structure Around (p : Platform) (s s' : Session) : Prop where
  connected : s'.isConnected = s.isConnected
  connectedBy : s'.connectedBy = s.connectedBy
  calls : s'.calls = s.calls
  processed : s.processed <+: s'.processed
  fresh : ∀ g, s.Fresh g → s'.Fresh g
  opening : ∀ g, s.Opening p g → s'.Opening p g
  stopped : s.Stopped → s'.Stopped

theorem Validated.mono (h : s.Validated p g) (hp : s.processed <+: s'.processed) :
    s'.Validated p g := by
  obtain ⟨m, hm, hgen, hok⟩ := h
  exact ⟨m, hp.mem hm, hgen, hok⟩

/-- What holds for the gate holder still holds after a step of somebody else. -/
theorem Around.holds (h : Around p s s') (hx : s.Holds p x) : s'.Holds p x := by
  have hfresh : (∃ g, x.started = some g ∧ s.Fresh g) → ∃ g, x.started = some g ∧ s'.Fresh g :=
    fun ⟨g, hg, hf⟩ => ⟨g, hg, h.fresh g hf⟩
  have hopening : (∃ g, x.started = some g ∧ s.Opening p g) →
      ∃ g, x.started = some g ∧ s'.Opening p g :=
    fun ⟨g, hg, ho⟩ => ⟨g, hg, h.opening g ho⟩
  have hvalidated : (∃ g, x.started = some g ∧ s.Validated p g) →
      ∃ g, x.started = some g ∧ s'.Validated p g :=
    fun ⟨g, hg, hv⟩ => ⟨g, hg, hv.mono h.processed⟩
  unfold Holds at hx ⊢
  rw [h.connected, h.connectedBy, h.calls]
  split at hx
  all_goals first
    | exact hx
    | exact hfresh hx
    | exact hopening hx
    | exact ⟨hopening hx.1, hx.2⟩
    | exact ⟨hvalidated hx.1, hx.2⟩
    | exact h.stopped hx
    | exact ⟨h.stopped hx.1, hx.2⟩
    | exact ⟨hx.1, h.stopped hx.2⟩
    | exact ⟨hx.1, h.stopped hx.2.1, hx.2.2⟩

/-- None of the three looks beyond service, peers and router. -/
theorem Fresh.keep (h : s.Fresh g) (hnode : s'.node = s.node) (hrouter : s'.router = s.router) :
    s'.Fresh g :=
  ⟨by rw [hnode]; exact h.opened, by rw [hnode]; exact h.session,
    by rw [hnode, hrouter]; exact h.below⟩

theorem Opening.keep (h : s.Opening p g) (hnode : s'.node = s.node)
    (hrouter : s'.router = s.router) (hprocessed : s'.processed = s.processed) :
    s'.Opening p g := by
  refine ⟨?_, by rw [hnode]; exact h.session, by rw [hnode, hrouter]; exact h.below⟩
  rw [hnode]
  exact fun ho => (h.validated ho).mono (hprocessed ▸ List.prefix_rfl)

theorem Stopped.keep (h : s.Stopped) (hnode : s'.node = s.node) : s'.Stopped :=
  ⟨by rw [hnode]; exact h.opened, by rw [hnode]; exact h.running, by rw [hnode]; exact h.below⟩

/-- Fields that the holder does not look at. -/
theorem Around.same (hnode : s'.node = s.node) (hrouter : s'.router = s.router)
    (hconnected : s'.isConnected = s.isConnected) (hby : s'.connectedBy = s.connectedBy)
    (hcalls : s'.calls = s.calls) (hprocessed : s'.processed = s.processed) : Around p s s' where
  connected := hconnected
  connectedBy := hby
  calls := hcalls
  processed := hprocessed ▸ List.prefix_rfl
  fresh _ h := h.keep hnode hrouter
  opening _ h := h.keep hnode hrouter hprocessed
  stopped h := h.keep hnode

/-- A routed message of no current generation does nothing. -/
theorem calm_of_stale {sv sv' : Service} {message : Option IngressMessage}
    (h : Node.Routes p sv sv' message)
    (hstale : ∀ m, message = some m → m.generation ≠ sv.sessionId) : Service.Calm sv sv' := by
  rcases h with hcalm | ⟨m, hm, hgen, -⟩
  · exact hcalm
  · exact absurd hgen (hstale m hm)

theorem Routes.session_le {sv sv' : Service} {message : Option IngressMessage}
    (h : Node.Routes p sv sv' message) : sv.sessionId ≤ sv'.sessionId := by
  rcases h with hcalm | ⟨m, -, -, hreset | ⟨hsteady, -⟩⟩
  · exact hcalm.session.ge
  · rw [hreset.session]
    omega
  · exact hsteady.session.ge

/-- Everything outside the lifecycle. -/
theorem Around.frame {n' : Node} {message : Option IngressMessage}
    (h : Node.Frame p s.node n' message)
    (hcarries : ∀ m, message = some m → ∃ source, s.node.Carries (source, m))
    (hrouter : ∀ m, message = some m → s.router = .running) :
    Around p s { s with
      node := n'
      processed := s.processed ++
        message.toList.map fun m => (s.node.sys.service.sessionId, m) } := by
  have hstale : ∀ {b}, s.node.Below b → b ≤ s.node.sys.service.sessionId →
      ∀ m, message = some m → m.generation ≠ s.node.sys.service.sessionId := by
    intro b hb hle m hm
    obtain ⟨source, hc⟩ := hcarries m hm
    have := hb.messages _ hc
    dsimp only at this
    omega
  have hsession := Routes.session_le h.service
  refine ⟨rfl, rfl, rfl, List.prefix_append _ _, fun g hf => ?_, fun g ho => ?_, fun hs => ?_⟩
  · -- no message is of generation `g`: nothing was routed, or the peers are all older
    have hcalm : Service.Calm s.node.sys.service n'.sys.service := by
      refine calm_of_stale h.service fun m hm => ?_
      obtain ⟨hg, hb⟩ := hf.below (hrouter m hm)
      exact hstale hb hg.ge m hm
    refine ⟨?_, hf.session.trans hsession, fun hr => ?_⟩
    · exact Bool.eq_false_iff.mpr fun ho => absurd (hcalm.opened ho) (by simp [hf.opened])
    · obtain ⟨hg, hb⟩ := hf.below hr
      exact ⟨hcalm.session.trans hg, h.below hb⟩
  · refine ⟨fun hopened => ?_, ho.session.trans hsession, fun hr => h.below (ho.below hr)⟩
    rcases h.service with hcalm | ⟨m, hm, hgen, hreset | ⟨-, hok⟩⟩
    · exact (ho.validated (hcalm.opened hopened)).mono (List.prefix_append _ _)
    · exact absurd hopened (by simp [hreset.opened])
    · -- the message that opened the session has a generation between `g` and `g`
      obtain ⟨source, hc⟩ := hcarries m hm
      have hlt := (ho.below (hrouter m hm)).messages _ hc
      have hle := ho.session
      dsimp only at hlt
      have hg : s.node.sys.service.sessionId = g := by omega
      refine ⟨m, ?_, hgen.trans hg, hok⟩
      show (g, m) ∈ s.processed ++ _
      rw [hm, ← hg]
      simp
  · have hcalm := calm_of_stale h.service (hstale hs.below (le_refl _))
    refine ⟨?_, ?_, ?_⟩
    · exact Bool.eq_false_iff.mpr fun ho => absurd (hcalm.opened ho) (by simp [hs.opened])
    · exact Bool.eq_false_iff.mpr fun hr => absurd (hcalm.running hr) (by simp [hs.running])
    · show n'.Below n'.sys.service.sessionId
      rw [hcalm.session]
      exact h.below hs.below

theorem Around.node {n' : Node} (h : Node.Frame p s.node n' none) :
    Around p s { s with node := n' } := by
  have := Around.frame h (by simp) (by simp)
  simpa using this

/-- What passes between service and transport, but no message. -/
theorem Around.wire {n' : Node}
    (hopened : n'.sys.service.dataChannelOpened = s.node.sys.service.dataChannelOpened)
    (hrunning : n'.sys.service.heartbeatRunning = s.node.sys.service.heartbeatRunning)
    (hsession : n'.sys.service.sessionId = s.node.sys.service.sessionId)
    (hbelow : ∀ b, s.node.Below b → n'.Below b) : Around p s { s with node := n' } where
  connected := rfl
  connectedBy := rfl
  calls := rfl
  processed := List.prefix_rfl
  fresh g h := ⟨hopened.trans h.opened, h.session.trans hsession.ge,
    fun hr => ⟨hsession.trans (h.below hr).1, hbelow g (h.below hr).2⟩⟩
  opening g h := ⟨fun ho => h.validated (hopened ▸ ho), h.session.trans hsession.ge,
    fun hr => hbelow _ (h.below hr)⟩
  stopped h := ⟨hopened.trans h.opened, hrunning.trans h.running, by
    show n'.Below n'.sys.service.sessionId
    rw [hsession]
    exact hbelow _ h.below⟩

theorem Around.trans {s₁ s₂ s₃ : Session} (h : Around p s₁ s₂) (h' : Around p s₂ s₃) :
    Around p s₁ s₃ :=
  ⟨h'.connected.trans h.connected, h'.connectedBy.trans h.connectedBy, h'.calls.trans h.calls,
    h.processed.trans h'.processed, fun g hf => h'.fresh g (h.fresh g hf),
    fun g ho => h'.opening g (h.opening g ho), fun hs => h'.stopped (h.stopped hs)⟩

/-- The router leaves its loop, or is about to end. -/
theorem Around.exit {router : Owner} (hr : router ≠ .running) :
    Around p s { s with router } where
  connected := rfl
  connectedBy := rfl
  calls := rfl
  processed := List.prefix_rfl
  fresh _ h := ⟨h.opened, h.session, fun hrun => absurd hrun hr⟩
  opening _ h := ⟨h.validated, h.session, fun hrun => absurd hrun hr⟩
  stopped h := ⟨h.opened, h.running, h.below⟩

/-! ### Stores and resets -/

theorem store_frame (s : Session) (which : UnlockedStore) :
    Node.Frame p s.node (s.serve p base capacity (.store which)).node none :=
  .adopt (Or.inl (Service.store_calm _ which))

theorem Around.store (s : Session) (which : UnlockedStore) :
    Around p s (s.serve p base capacity (.store which)) := by
  have hframe : Node.Frame p s.node (s.serve p base capacity (.store which)).node none :=
    store_frame s which
  exact .node hframe

theorem reset_resets (s : Session) : Service.Resets s.node.sys.service
    (s.serve p base capacity .startNewSession).node.sys.service :=
  Service.startNewSession_resets _

theorem reset_behind (h : s.node.Behind) :
    (s.serve p base capacity .startNewSession).node.Behind :=
  h.reset (Service.startNewSession_resets _)

theorem reset_below {b : ℕ} (h : s.node.Below b) :
    (s.serve p base capacity .startNewSession).node.Below b := ⟨h.peers, h.messages⟩

/-- After a reset no peer is of the current session, and the flags are down. -/
theorem Inv.reset_stopped (h : Inv p s) : (s.serve p base capacity .startNewSession).Stopped :=
  ⟨rfl, rfl, reset_below h.below⟩

theorem Inv.reset_fresh (h : Inv p s) :
    (s.serve p base capacity .startNewSession).Fresh
      (s.serve p base capacity .startNewSession).node.sys.service.sessionId :=
  ⟨rfl, le_refl _, fun _ => ⟨rfl, reset_below h.below⟩⟩

theorem Around.reset (hr : s.router ≠ .running) :
    Around p s (s.serve p base capacity .startNewSession) where
  connected := rfl
  connectedBy := rfl
  calls := rfl
  processed := List.prefix_rfl
  fresh _ h := ⟨rfl, h.session.trans (Nat.le_succ _), fun hrun => absurd hrun hr⟩
  opening _ h := ⟨fun ho => absurd ho (by simp [(reset_resets s).opened]),
    h.session.trans (Nat.le_succ _), fun hrun => absurd hrun hr⟩
  stopped h := ⟨rfl, rfl, (reset_below h.below).mono (Nat.le_succ _)⟩

/-! ### Preservation -/

/-- The two bounds that every step keeps. -/
def Bounded (s : Session) : Prop :=
  s.node.Behind ∧ s.node.Below (s.node.sys.service.sessionId + 1)

theorem Inv.bounded (h : Inv p s) : s.Bounded := ⟨h.behind, h.below⟩

theorem Inv.frame_bounded (h : Inv p s) {message : Option IngressMessage}
    (hf : Node.Frame p s.node s'.node message) : s'.Bounded := by
  refine ⟨hf.behind h.behind, (hf.below h.below).mono ?_⟩
  have := Routes.session_le hf.service
  omega

theorem Inv.store_bounded (h : Inv p s) (which : UnlockedStore) :
    (s.serve p base capacity (.store which)).Bounded := h.frame_bounded (store_frame s which)

theorem Inv.reset_bounded (h : Inv p s) : (s.serve p base capacity .startNewSession).Bounded :=
  ⟨reset_behind h.behind, (reset_below h.below).mono (Nat.le_succ _)⟩

/-- A step of the others, as far as they leave gate, queue and owner alone. -/
theorem Inv.around (h : Inv p s) (ha : Around p s s') (hbounded : s'.Bounded)
    (hholder : s'.holder = s.holder) (hqueue : s'.queue = s.queue) (howner : s'.owner = s.owner) :
    Inv p s' where
  behind := hbounded.1
  below := hbounded.2
  owner rest hrest := by
    rw [unborrowed, hholder, hqueue]
    exact h.owner rest (howner ▸ hrest)
  holder x hx := ha.holds (h.holder x (hholder ▸ hx))

/-- The holder goes on to another stage. -/
theorem Inv.hold (h : Inv p s) (hx : s.holder = some x) {x' : Attempt} (hbounded : s'.Bounded)
    (hspawned : x.stage.spawned = true → x'.stage.spawned = true) (hx' : s'.Holds p x')
    (hsame : (s'.queue, s'.owner) = (s.queue, s.owner)) :
    Inv p (s'.hold x') where
  behind := hbounded.1
  below := hbounded.2
  owner rest hrest := by
    obtain ⟨hqueue, howner⟩ := Prod.mk.inj hsame
    have hun := h.owner rest (howner ▸ hrest)
    rw [unborrowed, hx, Bool.and_eq_true] at hun
    rw [unborrowed, Bool.and_eq_true]
    exact ⟨by rw [← hun.1, ← hqueue]; rfl, hspawned hun.2⟩
  holder y hy := by
    rw [Session.hold, Option.some_inj] at hy
    subst hy
    exact Around.holds (s := s') (.same rfl rfl rfl rfl rfl rfl) hx'

/-- The holder gives up the gate. -/
theorem Inv.finish (h : Inv p s) (hx : s.holder = some x) (ending : Ending)
    (hbounded : s'.Bounded)
    (hsame : (s'.queue, s'.owner) = (s.queue, s.owner)) : Inv p (s'.finish x ending) where
  behind := hbounded.1
  below := hbounded.2
  owner rest hrest := by
    obtain ⟨hqueue, howner⟩ := Prod.mk.inj hsame
    have hun := h.owner rest (howner ▸ hrest)
    rw [unborrowed, hx, Bool.and_eq_true] at hun
    rw [unborrowed, Bool.and_eq_true]
    exact ⟨by rw [← hun.1, ← hqueue]; rfl, rfl⟩
  holder y hy := absurd hy (by simp [Session.finish])

theorem Inv.fail (h : Inv p s) (hx : s.holder = some x) (hnot : x.stage.spawned = false)
    (error : String) (hbounded : s'.Bounded)
    (hsame : (s'.queue, s'.owner) = (s.queue, s.owner)) : Inv p (s'.hold (x.fail error)) :=
  h.hold hx hbounded (by simp [hnot]) (Or.inr ⟨error, rfl⟩) hsame

/-- The transport was asked for the generation it is to tag its messages with. -/
theorem Inv.prepareIngress (h : Inv p s) (hx : s.holder = some x)
    (hstage : x.stage = .prepareIngress) (outcome : PortResult String) :
    Inv p (s.prepareIngress p base capacity x outcome) := by
  have hspawned : x.stage.spawned = false := by rw [hstage]; rfl
  have hbehind : (s.node.step p base capacity .prepareIngress).Behind := by
    refine h.behind.adopt (le_refl _) fun g hg => ?_
    rcases List.mem_append.mp hg with hg | hg
    · exact Or.inl hg
    · exact Or.inr (Effect.setIngressGeneration.inj (List.mem_singleton.mp hg)).le
  have hask : Inv p { s with node := s.node.step p base capacity .prepareIngress } :=
    h.around (.wire rfl rfl rfl fun _ hb => ⟨hb.peers, hb.messages⟩)
      ⟨hbehind, ⟨h.below.peers, h.below.messages⟩⟩ rfl rfl rfl
  rw [Session.prepareIngress]
  split
  · exact h
  · dsimp only
    split
    · have hset : Node.Frame p (s.node.step p base capacity .prepareIngress)
          ((s.node.step p base capacity .prepareIngress).step p base capacity .setIngressGeneration)
          none := Node.step_frame _ rfl
      have hanswer := hask.around (Around.node hset) (hask.frame_bounded hset) rfl rfl rfl
      refine hanswer.hold hx hanswer.bounded (by simp [hspawned]) ?_ rfl
      have hholds := hanswer.holder x hx
      rw [Holds, hstage] at hholds
      exact hholds
    · refine hask.fail hx hspawned _ ?_ rfl
      exact ⟨⟨hbehind.effects, by simp, hbehind.ingress⟩, ⟨h.below.peers, h.below.messages⟩⟩

theorem advance_inv (h : Inv p s) (hx : s.holder = some x) (outcome : PortResult String) :
    Inv p (s.advance p base capacity o x outcome) := by
  have hb := h.bounded
  have hholds := h.holder x hx
  unfold Holds at hholds
  unfold advance
  cases hstage : x.stage with
  | acquired =>
    dsimp only
    split
    · split
      · exact h.finish hx _ hb rfl
      · exact h.hold hx hb (by simp [hstage, Stage.spawned]) trivial rfl
    next hjob => exact h.hold hx hb (by simp [hstage, Stage.spawned]) (Or.inl hjob) rfl
    next hjob => exact h.hold hx hb (by simp [hstage, Stage.spawned]) hjob rfl
  | run =>
    dsimp only
    split
    · exact h.fail hx (by rw [hstage]; rfl) _ hb rfl
    · refine h.hold hx ?_ (by simp [hstage, Stage.spawned]) trivial rfl
      exact hb
  | stopAudio =>
    dsimp only
    split
    · exact h.hold hx hb (by simp [hstage, Stage.spawned]) trivial rfl
    · exact h.fail hx (by rw [hstage]; rfl) _ hb rfl
  | stopTasks rest =>
    cases rest with
    | nil =>
      -- With the stores made, the new session starts: its generation is fresh.
      exact h.hold hx h.reset_bounded (by simp [hstage, Stage.spawned]) ⟨_, rfl, h.reset_fresh⟩ rfl
    | cons which rest =>
      exact h.hold hx (h.store_bounded which) (by simp [hstage, Stage.spawned]) trivial rfl
  | prepareIngress => exact h.prepareIngress hx hstage outcome
  | connectInAttempt =>
    rw [hstage] at hholds
    obtain ⟨g, hg, hf⟩ := hholds
    refine h.hold hx ?_ (by simp [hstage, Stage.spawned]) ?_ rfl
    · exact hb
    -- `connect` goes straight to the engine, the others roll back and close first.
    · by_cases hjob : x.job = Job.connect .connect
      · rw [if_pos hjob]
        exact ⟨g, hg, hf.keep rfl rfl⟩
      · rw [if_neg hjob]
        exact ⟨g, hg, hf.keep rfl rfl⟩
  | rollback =>
    rw [hstage] at hholds
    obtain ⟨g, hg, hf⟩ := hholds
    refine h.hold hx ?_ (by simp [hstage, Stage.spawned]) ⟨g, hg, hf.keep rfl rfl⟩ rfl
    exact hb
  | closeFirst =>
    rw [hstage] at hholds
    obtain ⟨g, hg, hf⟩ := hholds
    refine h.hold hx ?_ (by simp [hstage, Stage.spawned]) ⟨g, hg, hf.keep rfl rfl⟩ rfl
    exact hb
  | connectInner =>
    rw [hstage] at hholds
    obtain ⟨g, hg, hf⟩ := hholds
    dsimp only
    split
    · refine h.hold hx ?_ (by simp [hstage, Stage.spawned]) ⟨g, hg, hf.keep rfl rfl⟩ rfl
      exact hb
    · exact h.fail hx (by rw [hstage]; rfl) _ hb rfl
  | prepareOffer created =>
    -- Before the peer is there the generation is fresh, afterwards it is open; fresh is the
    -- stronger of the two.
    have hopening : ∃ g, x.started = some g ∧ s.Opening p g := by
      rw [hstage] at hholds
      cases created with
      | false =>
        obtain ⟨g, hg, hf⟩ := hholds
        exact ⟨g, hg, hf.opening⟩
      | true => exact hholds
    obtain ⟨g, hg, ho⟩ := hopening
    dsimp only
    split
    · refine h.hold hx ?_ (by simp [hstage, Stage.spawned]) ⟨g, hg, ho.keep rfl rfl rfl⟩ rfl
      exact hb
    · exact h.fail hx (by rw [hstage]; rfl) _ hb rfl
    · exact h.fail hx (by rw [hstage]; rfl) _ hb rfl
  | exchangeSdp =>
    rw [hstage] at hholds
    obtain ⟨g, hg, ho⟩ := hholds
    dsimp only
    split
    · refine h.hold hx ?_ (by simp [hstage, Stage.spawned]) ⟨g, hg, ho.keep rfl rfl rfl⟩ rfl
      exact hb
    · exact h.fail hx (by rw [hstage]; rfl) _ hb rfl
  | applyAnswer =>
    rw [hstage] at hholds
    obtain ⟨g, hg, ho⟩ := hholds
    dsimp only
    split
    · refine h.hold hx ?_ (by simp [hstage, Stage.spawned])
        ⟨⟨g, hg, ho.keep rfl rfl rfl⟩, rfl, rfl⟩ rfl
      exact hb
    · exact h.fail hx (by rw [hstage]; rfl) _ hb rfl
  | waitDatachannelOpen =>
    rw [hstage] at hholds
    dsimp only
    split
    · exact h.hold hx hb (by simp [hstage, Stage.spawned]) hholds rfl
    · exact h.fail hx (by rw [hstage]; rfl) _ hb rfl
  | sleep => exact h
  | opened => exact h.finish hx _ hb rfl
  | failAudio =>
    rw [hstage] at hholds
    exact h.hold hx hb (by simp [hstage, Stage.spawned]) hholds rfl
  | failStop rest =>
    rw [hstage] at hholds
    cases rest with
    | nil =>
      exact h.hold hx h.reset_bounded (by simp [hstage, Stage.spawned])
        ⟨hholds, h.reset_stopped⟩ rfl
    | cons which rest =>
      exact h.hold hx (h.store_bounded which) (by simp [hstage, Stage.spawned]) hholds rfl
  | failRollback =>
    rw [hstage] at hholds
    refine h.hold hx ?_ (by simp [hstage, Stage.spawned])
      ⟨hholds.1, hholds.2.keep rfl, rfl, List.suffix_append _ _⟩ rfl
    exact hb
  | failClose =>
    -- The rollback and the close are the last of all calls.
    rw [hstage] at hholds
    obtain ⟨hfailing, hstopped, hconnected, before, hcalls⟩ := hholds
    refine h.hold hx ?_ (by simp [hstage, Stage.spawned])
      ⟨hfailing, hstopped.keep rfl, hconnected, before, ?_⟩ rfl
    · exact hb
    · rw [Session.call, ← hcalls, List.append_assoc]
      rfl
  | failDone => exact h.finish hx _ hb rfl
  | dropStop rest =>
    cases rest with
    | nil => exact h.hold hx h.reset_bounded (by simp [hstage, Stage.spawned]) h.reset_stopped rfl
    | cons which rest =>
      exact h.hold hx (h.store_bounded which) (by simp [hstage, Stage.spawned]) trivial rfl
  | dropAudio =>
    rw [hstage] at hholds
    exact h.hold hx hb (fun _ => rfl) hholds rfl
  | dropConnection =>
    rw [hstage] at hholds
    refine h.hold hx ?_ (fun _ => rfl) ⟨hholds.keep rfl, rfl⟩ rfl
    exact hb
  | dropRollback =>
    rw [hstage] at hholds
    refine h.hold hx ?_ (fun _ => rfl) ⟨hholds.1.keep rfl, hholds.2, List.suffix_append _ _⟩ rfl
    exact hb
  | dropClose =>
    refine h.finish hx _ ?_ rfl
    exact hb
  | audio => exact h.finish hx _ hb rfl
  | audioCleanup => exact h.finish hx _ hb rfl

/-- The peer of session `g` is created: it captures what the transport has, and
that is not ahead of the session. -/
theorem createPeer_inv (h : Inv p s) (hx : s.holder = some x) :
    Inv p (match x.stage with
      | .prepareOffer false =>
        { s with node := s.node.step p base capacity .createPeer }.hold (x.at' (.prepareOffer true))
      | _ => s) := by
  split
  next hstage =>
    have hholds := h.holder x hx
    rw [Holds, hstage] at hholds
    obtain ⟨g, hg, hf⟩ := hholds
    have hbelow : ∀ {b}, s.node.Below b → s.node.ingressGeneration < b →
        (s.node.step p base capacity .createPeer).Below b := by
      intro b hb hlt
      refine ⟨fun g' hg' => ?_, hb.messages⟩
      rcases List.mem_append.mp hg' with hg' | hg'
      · exact hb.peers g' hg'
      · rw [List.mem_singleton.mp hg']
        exact hlt
    have hingress := h.behind.ingress
    refine h.hold hx ⟨⟨h.behind.effects, h.behind.announced, hingress⟩,
      hbelow h.below (Nat.lt_succ_of_le hingress)⟩ (by simp [hstage, Stage.spawned])
      ⟨g, hg, fun ho => absurd ho ?_, hf.session, fun hr => ?_⟩ rfl
    · exact Bool.eq_false_iff.mp hf.opened
    · obtain ⟨hsession, hb⟩ := hf.below hr
      exact hbelow (hb.mono (Nat.le_succ g)) (by omega)
  next => exact h

theorem poll_inv (h : Inv p s) (hx : s.holder = some x) (ready elapsed : Bool) :
    Inv p (s.poll x ready elapsed) := by
  unfold poll
  split
  next hstage =>
    have hholds := h.holder x hx
    rw [Holds, hstage] at hholds
    obtain ⟨⟨g, hg, ho⟩, hconnected, hby⟩ := hholds
    split
    next hopen =>
      exact h.hold hx h.bounded (by simp [hstage, Stage.spawned])
        ⟨⟨g, hg, ho.validated hopen.2⟩, hconnected, hby, rfl⟩ rfl
    next =>
      split
      · exact h.fail hx (by rw [hstage]; rfl) _ h.bounded rfl
      · exact h
  next => exact h

theorem not_spawned_of_awaits {stage : Stage} (h : stage.awaits = true) :
    stage.spawned = false := by
  cases stage with
  | dropAudio | dropConnection | dropRollback | dropClose | audioCleanup =>
    exact absurd h (by simp [Stage.awaits, Stage.inRun])
  | _ => rfl

theorem not_spawned_of_timed {stage : Stage} (h : stage.timed = true) :
    stage.spawned = false := by
  cases stage with
  | dropAudio | dropConnection | dropRollback | dropClose | audioCleanup =>
    exact absurd h (by simp [Stage.timed])
  | _ => rfl

theorem cancel_inv (h : Inv p s) (hx : s.holder = some x) : Inv p (s.cancel x) := by
  unfold cancel
  split
  next hrun =>
    exact h.fail hx (not_spawned_of_awaits (by simp [Stage.awaits, hrun.1])) _ h.bounded rfl
  next => exact h

theorem timeout_inv (h : Inv p s) (hx : s.holder = some x) (diagnostic : Option String) :
    Inv p (s.timeout x diagnostic) := by
  unfold timeout
  split
  next htimed =>
    exact h.fail hx (not_spawned_of_timed htimed) _ h.bounded rfl
  next => exact h

theorem dropFuture_inv (h : Inv p s) (hx : s.holder = some x) : Inv p (s.dropFuture x) := by
  unfold dropFuture
  split
  next hawaits =>
    exact h.hold hx h.bounded (by simp [not_spawned_of_awaits hawaits]) trivial rfl
  next =>
    split
    next hstage =>
      have hholds := h.holder x hx
      rw [Holds, hstage] at hholds
      exact h.hold hx h.bounded (fun _ => rfl) hholds rfl
    next => exact h

/-- While the session is being dropped, only a spawned cleanup can have the
gate. -/
theorem Inv.dropping (h : Inv p s) {rest : List UnlockedStore} (howner : s.owner = .stopping rest)
    (hbounded : s'.Bounded) (hholder : s'.holder = s.holder)
    (hconnected : s'.isConnected = s.isConnected) (hcalls : s'.calls = s.calls)
    (hstopped : s.Stopped → s'.Stopped) (hnext : ∀ rest, s'.owner = .stopping rest →
      s'.queue = s.queue) : Inv p s' := by
  have hun := h.owner rest howner
  refine ⟨hbounded.1, hbounded.2, fun rest' hrest' => ?_, fun x hx => ?_⟩
  · rw [unborrowed, hholder, hnext rest' hrest']
    exact hun
  · rw [hholder] at hx
    have hholds := h.holder x hx
    rw [unborrowed, hx, Bool.and_eq_true] at hun
    unfold Holds at hholds ⊢
    rw [hconnected, hcalls]
    cases hstage : x.stage with
    | dropAudio =>
      rw [hstage] at hholds
      exact hstopped hholds
    | dropConnection =>
      rw [hstage] at hholds
      exact hstopped hholds
    | dropRollback =>
      rw [hstage] at hholds
      exact ⟨hstopped hholds.1, hholds.2⟩
    | dropClose =>
      rw [hstage] at hholds
      exact ⟨hstopped hholds.1, hholds.2⟩
    | audioCleanup =>
      rw [hstage] at hholds
      exact hholds
    | _ => exact absurd hun.2 (by simp [hstage, Stage.spawned])

/-- Something else about the session changes, but nobody takes the gate. -/
theorem Inv.same (h : Inv p s) (ha : Around p s s') (hbounded : s'.Bounded)
    (hholder : s'.holder = s.holder)
    (howner : ∀ rest, s'.owner = .stopping rest → s'.unborrowed = true) : Inv p s' :=
  ⟨hbounded.1, hbounded.2, howner, fun x hx => ha.holds (h.holder x (hholder ▸ hx))⟩

theorem step_inv (s : Session) (a : Action) (h : Inv p s) :
    Inv p (s.step p base capacity o a) := by
  have hwith : ∀ f : Attempt → Session, (∀ x, s.holder = some x → Inv p (f x)) →
      Inv p (s.withHolder f) := by
    intro f hf
    unfold withHolder
    split
    · exact h
    next x hx => exact hf x hx
  cases a with
  | begin job =>
    rw [step]
    split
    next hrunning =>
      dsimp only
      split
      · refine h.same (.same rfl rfl rfl rfl rfl rfl) h.bounded rfl fun rest hrest => ?_
        exact absurd (hrunning.symm.trans hrest) (by simp)
      · refine h.same (.same rfl rfl rfl rfl rfl rfl) h.bounded rfl fun rest hrest => ?_
        exact absurd (hrunning.symm.trans hrest) (by simp)
    next => exact h
  | abandon i =>
    refine h.same (.same rfl rfl rfl rfl rfl rfl) h.bounded rfl fun rest hrest => ?_
    -- A queue that is empty stays so when one of its tickets is given up.
    have hun := h.owner rest hrest
    rw [unborrowed, Bool.and_eq_true, List.isEmpty_iff] at hun
    rw [unborrowed, Bool.and_eq_true, List.isEmpty_iff]
    refine ⟨?_, hun.2⟩
    show s.queue.eraseIdx i = []
    rw [hun.1, List.eraseIdx_nil]
  | acquire i =>
    rw [step]
    split
    next t hfree ht =>
      refine ⟨h.behind, h.below, fun rest hrest => ?_, fun x hx => ?_⟩
      · -- a session that is being dropped has nobody in the queue
        have hun := h.owner rest hrest
        rw [unborrowed, Bool.and_eq_true, List.isEmpty_iff] at hun
        exact absurd ht (by simp [hun.1])
      · rw [Session.hold, Option.some_inj] at hx
        subst hx
        rfl
    next => exact h
  | advance outcome => exact hwith _ fun x hx => advance_inv h hx outcome
  | createPeer => exact hwith _ fun x hx => createPeer_inv h hx
  | poll ready elapsed => exact hwith _ fun x hx => poll_inv h hx ready elapsed
  | cancel => exact hwith _ fun x hx => cancel_inv h hx
  | timeout diagnostic => exact hwith _ fun x hx => timeout_inv h hx diagnostic
  | dropFuture => exact hwith _ fun x hx => dropFuture_inv h hx
  | deliver peer payload =>
    rw [step]
    split
    · exact h
    next generation hpeer =>
      have hf : Node.Frame p s.node
          (s.node.push capacity (.peer peer, { generation, payload })) none :=
        Node.push_frame (Or.inr (List.mem_of_getElem? hpeer))
      exact h.around (.node hf) (h.frame_bounded hf) rfl rfl rfl
  | retainFault peer error =>
    rw [step]
    split
    · exact h
    next generation hpeer =>
      have hf : Node.Frame p s.node { s.node with
          fault := some (.peer peer, { generation, payload := .transportFault error }) } none :=
        .aside rfl rfl rfl rfl (Node.fault_messages (List.mem_of_getElem? hpeer))
      exact h.around (.node hf) (h.frame_bounded hf) rfl rfl rfl
  | refuseGeneration =>
    refine h.around (.wire rfl rfl rfl fun _ hb => ⟨hb.peers, hb.messages⟩) ?_ rfl rfl rfl
    exact ⟨⟨h.behind.effects, fun g hg => h.behind.announced g (List.mem_of_mem_tail hg),
      h.behind.ingress⟩, ⟨h.below.peers, h.below.messages⟩⟩
  | node a =>
    rw [step]
    split
    next ha =>
      have hf : Node.Frame p s.node (s.node.step p base capacity a) (s.node.routed a) :=
        Node.step_frame s.node ha.1
      refine h.around (.frame hf (fun m hm => Node.routed_carries hm) fun m hm => ?_)
        (h.frame_bounded hf) rfl rfl rfl
      -- Only the router routes, and it runs only while the session is there.
      have hrouter : byRouter a = true := by
        cases a <;> first | rfl | exact absurd hm (by simp [Node.routed])
      exact Owner.eq_running (ha.2 hrouter)
    next => exact h
  | dropSession =>
    rw [step]
    split
    next =>
      split
      next hun =>
        exact h.same (.same rfl rfl rfl rfl rfl rfl) h.bounded rfl fun _ _ => hun
      next => exact h
    next => exact h
  | dropSessionNext =>
    rw [step]
    split
    next howner =>
      -- The drop ends with a new session, so that the generation of the old one is stale.
      have hstop : ∀ s' : Session, s'.node = (s.serve p base capacity .startNewSession).node →
          s.Stopped → s'.Stopped := fun s' hnode hs =>
        Stopped.keep (s := s.serve p base capacity .startNewSession)
          ⟨rfl, rfl, (reset_below hs.below).mono (Nat.le_succ _)⟩ hnode
      have hreset : (s.serve p base capacity .startNewSession).Bounded := h.reset_bounded
      rw [spawnDisconnect]
      split
      · refine h.dropping howner ?_ rfl rfl rfl (hstop _ rfl) fun rest hrest => ?_
        · exact hreset
        · exact absurd hrest (by simp)
      · refine h.dropping howner ?_ rfl rfl rfl (hstop _ rfl) fun rest hrest => ?_
        · exact hreset
        · exact absurd hrest (by simp)
    next which rest howner =>
      have hstore : Around p s (s.serve p base capacity (.store which)) :=
        .store s which
      have hbounded : (s.serve p base capacity (.store which)).Bounded := h.store_bounded which
      refine h.dropping howner ?_ rfl rfl rfl (fun hs => ?_) fun _ _ => rfl
      · exact hbounded
      · exact (hstore.stopped hs).keep rfl
    next => exact h
  | routerExit =>
    rw [step]
    split
    · exact h.around (.exit (by simp)) h.bounded rfl rfl rfl
    · exact h
  | routerExitNext =>
    rw [step]
    split
    next hrouter =>
      have hreset : (s.serve p base capacity .startNewSession).Bounded := h.reset_bounded
      refine h.around ((Around.reset (by simp [hrouter])).trans (.exit (by simp))) ?_ rfl rfl rfl
      exact hreset
    next which rest hrouter =>
      have hstore : Around p s (s.serve p base capacity (.store which)) :=
        .store s which
      have hbounded : (s.serve p base capacity (.store which)).Bounded := h.store_bounded which
      refine h.around (hstore.trans (.exit (by simp))) ?_ rfl rfl rfl
      exact hbounded
    next => exact h

/-! ### Runs -/

theorem init_inv (c : Channel Tagged) (sessionId requestSequence : ℕ) :
    Inv p (init c sessionId requestSequence) := by
  refine ⟨⟨fun g hg => ?_, fun g hg => ?_, Nat.zero_le _⟩, ⟨fun g hg => ?_, fun m hm => ?_⟩,
    fun rest hrest => absurd hrest (by simp [init]), fun x hx => absurd hx (by simp [init])⟩
  · rw [List.mem_singleton.mp hg |> Effect.setIngressGeneration.inj]
    exact le_refl _
  · rw [List.mem_singleton.mp hg]
    exact le_refl _
  · exact absurd hg (by simp [init, Node.init])
  · rcases hm with hm | hm | hm <;> exact absurd hm (by simp [init, Node.init])

theorem run_inv (p : Platform) (base capacity : ℕ) (o : SessionOptions) (c : Channel Tagged)
    (sessionId requestSequence : ℕ) (as : List Action) :
    Inv p (Runs.run (step p base capacity o) (init c sessionId requestSequence) as) :=
  Runs.run_invariant (fun s a => step_inv s a) as (init_inv c sessionId requestSequence)

/-! ### The gate is released -/

/-- What an attempt set up has been closed since: every `prepare_offer` and
`apply_answer` of it comes before a `close` of it that was completed. -/
def Closed (s : Session) (id : ℕ) : Prop :=
  ∀ i c, s.calls[i]? = some (id, c) → c.setsUp = true →
    ∃ j, i < j ∧ s.calls[j]? = some (id, .close) ∧ s.calls[j + 1]? = some (id, .closed)

theorem closed_of_suffix {id : ℕ} (h : [(id, .close), (id, .closed)] <:+ s.calls) :
    s.Closed id := by
  obtain ⟨before, hcalls⟩ := h
  intro i c hc hset
  rw [← hcalls] at hc ⊢
  have hi : i < before.length := by
    by_contra hle
    rw [List.getElem?_append_right (by omega)] at hc
    rcases hk : i - before.length with _ | _ | k <;> rw [hk] at hc <;>
      simp only [List.getElem?_cons_zero, List.getElem?_cons_succ, List.getElem?_nil,
        Option.some_inj, Prod.mk.injEq, reduceCtorEq] at hc <;>
      rw [← hc.2] at hset <;> exact absurd hset (by simp [PortCall.setsUp])
  exact ⟨before.length, hi, by simp, by simp⟩

/-- The stages from which the gate is released, with what the attempt ends in. -/
inductive Releases (s : Session) (x : Attempt) : Session → Ending → Prop
  | early (e : String) (hstage : x.stage = .acquired) :
      Releases s x (s.finish x (.returned (.error e))) (.returned (.error e))
  | result (hstage : x.stage = .opened ∨ x.stage = .failDone) :
      Releases s x (s.finish x (.returned x.result)) (.returned x.result)
  | dropped (hstage : x.stage = .dropClose) :
      Releases s x ((s.call x .closed).finish x .dropped) .dropped
  | audio (ending : Ending) (hstage : x.stage = .audio ∨ x.stage = .audioCleanup) :
      Releases s x (s.finish x ending) ending

theorem Releases.ended {ending : Ending} (h : Releases s x s' ending) :
    s'.ended = s.ended ++ [(x, ending)] := by
  cases h <;> rfl

theorem advance_releases {outcome : PortResult String} (hx : s.holder = some x)
    (hfree : (s.advance p base capacity o x outcome).holder = none) :
    ∃ ending, Releases s x (s.advance p base capacity o x outcome) ending := by
  have hheld : ∀ {s₁ : Session} {y : Attempt}, (s₁.hold y).holder ≠ none := by simp [hold]
  unfold advance at hfree ⊢
  cases hstage : x.stage with
  | acquired =>
    rw [hstage] at hfree
    dsimp only at hfree ⊢
    split at hfree
    next mode hjob =>
      split at hfree
      next hearly =>
        rw [if_pos hearly]
        exact ⟨_, .early _ hstage⟩
      next => exact absurd hfree hheld
    next => exact absurd hfree hheld
    next => exact absurd hfree hheld
  | opened => exact ⟨_, .result (Or.inl hstage)⟩
  | failDone => exact ⟨_, .result (Or.inr hstage)⟩
  | dropClose => exact ⟨_, .dropped hstage⟩
  | audio => exact ⟨_, .audio _ (Or.inl hstage)⟩
  | audioCleanup => exact ⟨_, .audio _ (Or.inr hstage)⟩
  | sleep =>
    rw [hstage] at hfree
    exact absurd (hx.symm.trans hfree) (by simp)
  | prepareIngress =>
    rw [hstage] at hfree
    dsimp only [prepareIngress] at hfree
    split at hfree
    · exact absurd (hx.symm.trans hfree) (by simp)
    · split at hfree <;> exact absurd hfree hheld
  | stopTasks rest => cases rest <;> (rw [hstage] at hfree; exact absurd hfree hheld)
  | failStop rest => cases rest <;> (rw [hstage] at hfree; exact absurd hfree hheld)
  | dropStop rest => cases rest <;> (rw [hstage] at hfree; exact absurd hfree hheld)
  | _ =>
    rw [hstage] at hfree
    dsimp only at hfree
    first
      | exact absurd hfree hheld
      | (split at hfree <;> exact absurd hfree hheld)

/-- Nobody but the holder's own code releases the gate. -/
theorem step_keeps_gate {a : Action} (hx : s.holder = some x)
    (ha : ∀ outcome, a ≠ .advance outcome) : (s.step p base capacity o a).holder ≠ none := by
  have hkept : s.holder ≠ none := by simp [hx]
  have hheld : ∀ (s₁ : Session) (y : Attempt), (s₁.hold y).holder ≠ none := by simp [hold]
  cases a with
  | begin job =>
    rw [step]
    split
    · dsimp only
      split <;> exact hkept
    · exact hkept
  | abandon i => exact hkept
  | acquire i =>
    rw [step]
    split
    next hnone _ => exact absurd hnone hkept
    next => exact hkept
  | advance outcome => exact absurd rfl (ha outcome)
  | createPeer =>
    rw [step, withHolder, hx]
    dsimp only
    split
    · exact hheld _ _
    · exact hkept
  | poll ready elapsed =>
    rw [step, withHolder, hx]
    dsimp only
    rw [poll.eq_def]
    split
    · split
      · exact hheld _ _
      · split
        · exact hheld _ _
        · exact hkept
    · exact hkept
  | cancel =>
    rw [step, withHolder, hx]
    dsimp only
    rw [cancel]
    split
    · exact hheld _ _
    · exact hkept
  | timeout diagnostic =>
    rw [step, withHolder, hx]
    dsimp only
    rw [timeout.eq_def]
    split
    · exact hheld _ _
    · exact hkept
  | dropFuture =>
    rw [step, withHolder, hx]
    dsimp only
    rw [dropFuture]
    split
    · exact hheld _ _
    · split
      · exact hheld _ _
      · exact hkept
  | deliver peer payload => rw [step]; split <;> exact hkept
  | retainFault peer error => rw [step]; split <;> exact hkept
  | refuseGeneration => exact hkept
  | node a => rw [step]; split <;> exact hkept
  | dropSession =>
    rw [step]
    split
    · split <;> exact hkept
    · exact hkept
  | dropSessionNext =>
    rw [step]
    split
    · rw [spawnDisconnect]
      split <;> exact hkept
    · exact hkept
    · exact hkept
  | routerExit => rw [step]; split <;> exact hkept
  | routerExitNext => rw [step]; split <;> exact hkept

theorem step_releases {a : Action} (hx : s.holder = some x)
    (hfree : (s.step p base capacity o a).holder = none) :
    ∃ ending, Releases s x (s.step p base capacity o a) ending := by
  by_cases ha : ∃ outcome, a = .advance outcome
  · obtain ⟨outcome, rfl⟩ := ha
    rw [step, withHolder, hx] at hfree ⊢
    exact advance_releases hx hfree
  · exact absurd hfree (step_keeps_gate hx fun outcome hout => ha ⟨outcome, hout⟩)

/-- In every run, whenever a connect gives up the session gate: if it returns
`Ok`, it stored `is_connected` itself, and a `Validation Ok.` was routed whose
generation is the session that its own `start_new_session` started.  If it
returns an error, past the early exit of a retry, or was dropped, then both flags
and `is_connected` are down, and what it set up is closed. -/
theorem connect_all_or_nothing (p : Platform) (base capacity : ℕ) (o : SessionOptions)
    (c : Channel Tagged) (sessionId requestSequence : ℕ) (as : List Action) (a : Action)
    (x : Attempt) (mode : SessionConnect) (hjob : x.job = .connect mode) :
    let s := Runs.run (step p base capacity o) (init c sessionId requestSequence) as
    let s' := s.step p base capacity o a
    s.holder = some x → s'.holder = none →
    ∃ ending, s'.ended = s.ended ++ [(x, ending)] ∧
      (ending = .returned (.ok ()) →
        s'.isConnected = true ∧ s'.connectedBy = some x.id ∧
        ∃ g m, x.started = some g ∧ (g, m) ∈ s'.processed ∧ m.generation = g ∧
          Service.validates p m.payload = true) ∧
      ((∃ e, ending = .returned (.error e)) ∧ x.passed = true ∨ ending = .dropped →
        s'.isConnected = false ∧ s'.node.sys.service.dataChannelOpened = false ∧
        s'.node.sys.service.heartbeatRunning = false ∧ s'.Closed x.id) := by
  intro s s' hx hfree
  have hholds := (run_inv p base capacity o c sessionId requestSequence as).holder x hx
  obtain ⟨ending, hrel⟩ := step_releases hx hfree
  refine ⟨ending, hrel.ended, ?_⟩
  unfold Holds at hholds
  revert hrel
  generalize hs' : s.step p base capacity o a = s₁
  have hs₁ : s' = s₁ := hs'
  rw [hs₁]
  intro hrel
  cases hrel with
  -- How the gate was released says what the attempt ended with.
  | early e hstage =>
    rw [hstage] at hholds
    refine ⟨fun hok => absurd hok (by simp), fun hbad => ?_⟩
    rcases hbad with ⟨-, hpassed⟩ | hdropped
    · exact absurd hpassed (by simp [show x.passed = false from hholds])
    · exact absurd hdropped (by simp)
  | result hstage =>
    rcases hstage with hstage | hstage
    · rw [hstage] at hholds
      obtain ⟨⟨g, hg, m, hm, hgen, hok⟩, hconnected, hby, hresult⟩ := hholds
      refine ⟨fun _ => ⟨hconnected, hby, g, m, hg, hm, hgen, hok⟩, fun hbad => ?_⟩
      rw [hresult] at hbad
      rcases hbad with ⟨⟨e, he⟩, -⟩ | hdropped
      · exact absurd he (by simp)
      · exact absurd hdropped (by simp)
    · rw [hstage] at hholds
      obtain ⟨hfailing, hstopped, hconnected, hcalls⟩ := hholds
      refine ⟨fun hok => ?_, fun _ => ⟨hconnected, hstopped.opened, hstopped.running,
        closed_of_suffix hcalls⟩⟩
      -- A disconnect comes this way too, but the job is a connect.
      rcases hfailing with hdisconnect | ⟨e, he⟩
      · exact absurd (hjob.symm.trans hdisconnect) (by simp)
      · rw [he] at hok
        exact absurd hok (by simp)
  | dropped hstage =>
    rw [hstage] at hholds
    obtain ⟨hstopped, hconnected, before, hcalls⟩ := hholds
    refine ⟨fun hok => absurd hok (by simp), fun _ => ⟨hconnected, hstopped.opened,
      hstopped.running, closed_of_suffix ⟨before, ?_⟩⟩⟩
    show before ++ _ = s.calls ++ _
    rw [← hcalls, List.append_assoc]
    rfl
  | audio ending hstage =>
    have haudio : x.job = .audio := by
      rcases hstage with hstage | hstage
      · rw [hstage] at hholds
        exact hholds
      · rw [hstage] at hholds
        exact hholds
    exact absurd (hjob.symm.trans haudio) (by simp)

/-- The text that validates a session. -/
def validationText : String := "\x7b\"type\":\"validation\",\"data\":\"Validation Ok.\"\x7d"

def validationTree : Syntax :=
  .object [("type", .string "validation"), ("data", .string "Validation Ok.")]

/-- A connect over the access point, up to the offer and the peer of it. -/
def dialling : List Action :=
  [.node .setIngressGeneration, .begin (.connect .connect), .acquire 0] ++
    List.replicate 8 (.advance (.ok "")) ++
    [.node .setIngressGeneration, .advance (.ok ""), .advance (.ok ""), .advance (.ok ""),
      .createPeer, .advance (.ok "offer")]

/-- From there to the validation. -/
def validating : List Action :=
  [.advance (.ok "answer"), .advance (.ok ""), .advance (.ok ""),
    .deliver 0 (.text validationText), .node (.route (.at 0)), .poll true false]

/-- Or dropped while the signaling server is asked. -/
def dropping : List Action := .dropFuture :: List.replicate 8 (.advance (.ok ""))

def accessPoint : SessionOptions where
  connectionMethod := .localAP
  ip := none
  validationTimeout := .finite 5
  fits _ := true

/-- The first attempt, which started session 4. -/
def firstAttempt (stage : Stage) : Attempt :=
  { id := 0, job := .connect .connect, seen := 0, stage, result := .ok (), passed := true
    started := some 4 }

/-- A connect that is validated, and one that is dropped. -/
theorem connect_all_or_nothing_both :
    let p : Platform := .reading [(validationText, validationTree)]
    let go := fun as => Runs.run (step p 72 8 accessPoint) (init (Channel.fresh 2) 3 0) as
    let s₁ := (go (dialling ++ validating)).step p 72 8 accessPoint (.advance (.ok ""))
    let s₂ := (go (dialling ++ dropping)).step p 72 8 accessPoint (.advance (.ok ""))
    (s₁.ended = [(firstAttempt .opened, .returned (.ok ()))] ∧ s₁.isConnected = true ∧
      ∃ m, (4, m) ∈ s₁.processed ∧ m.generation = 4 ∧ Service.validates p m.payload = true) ∧
    s₂.ended = [(firstAttempt .dropClose, .dropped)] ∧ s₂.isConnected = false ∧ s₂.Closed 0 := by
  intro p go s₁ s₂
  have hended₁ : s₁.ended = [(firstAttempt .opened, .returned (.ok ()))] := by decide +kernel
  have hended₂ : s₂.ended = [(firstAttempt .dropClose, .dropped)] := by decide +kernel
  have hnone₁ : (go (dialling ++ validating)).ended = [] := by decide +kernel
  have hnone₂ : (go (dialling ++ dropping)).ended = [] := by decide +kernel
  obtain ⟨ending₁, hend₁, hok, -⟩ := connect_all_or_nothing p 72 8 accessPoint (Channel.fresh 2) 3 0
    (dialling ++ validating) (.advance (.ok "")) (firstAttempt .opened) .connect rfl
    (by decide +kernel) (by decide +kernel)
  obtain ⟨ending₂, hend₂, -, hbad⟩ :=
    connect_all_or_nothing p 72 8 accessPoint (Channel.fresh 2) 3 0
    (dialling ++ dropping) (.advance (.ok "")) (firstAttempt .dropClose) .connect rfl
    (by decide +kernel) (by decide +kernel)
  have hlast : ∀ {l l' : List (Attempt × Ending)} {y : Attempt} {e e' : Ending},
      l = l' ++ [(y, e)] → l = [(y, e')] → l' = [] → e = e' := by
    intro l l' y e e' h h' hnil
    rw [h', hnil] at h
    simpa using h.symm
  have heq₁ : ending₁ = .returned (.ok ()) := hlast hend₁ hended₁ hnone₁
  have heq₂ : ending₂ = .dropped := hlast hend₂ hended₂ hnone₂
  obtain ⟨hconnected, -, g, m, hg, hm, hgen, hvalid⟩ := hok heq₁
  obtain ⟨hdown, -, -, hclosed⟩ := hbad (Or.inr heq₂)
  have hfour : g = 4 := (Option.some_inj.mp hg).symm
  subst hfour
  exact ⟨⟨hended₁, hconnected, m, hm, hgen, hvalid⟩, hended₂, hdown, hclosed⟩

end Session

end Unitree
