/-
What makes a session ready.

The steps of the service were sorted by what they do to its flags.  Here the
transport, the queues and the workers are added: seen from the lifecycle, a step
of anyone else is calm, or it routes a message that a peer of the current
generation sent.

* `Node.Below`, `Node.Behind` — the generations under way, and those announced;
* `Node.step_frame` — what the transport, the queues and the workers add.
-/
import UnitreeWebrtc.Flags

namespace Unitree

namespace Node

/-! ### Around the service -/

/-- The message that the router takes in this step. -/
def routed (n : Node) : Action → Option IngressMessage
  | .takeFault _ => n.fault.map fun m => m.2
  | .route _ => n.ingress.head?.map fun m => m.2
  | _ => none

/-- Every peer, and everything under way to the router, is of a generation
below `b`. -/
structure Below (n : Node) (b : ℕ) : Prop where
  peers : ∀ g ∈ n.peers, g < b
  messages : ∀ m, n.Carries m → m.2.generation < b

/-- The transport is not ahead of the session. -/
structure Behind (n : Node) : Prop where
  effects : ∀ g, Effect.setIngressGeneration g ∈ n.sys.service.effects →
    g ≤ n.sys.service.sessionId
  announced : ∀ g ∈ n.announced, g ≤ n.sys.service.sessionId
  ingress : n.ingressGeneration ≤ n.sys.service.sessionId

/-- What a step did to the service: nothing that matters, or it routed a message
of the current generation, and that was a fault or the validation. -/
def Routes (p : Platform) (s s' : Service) (message : Option IngressMessage) : Prop :=
  Service.Calm s s' ∨ ∃ m, message = some m ∧ m.generation = s.sessionId ∧
    (Service.Resets s s' ∨ Service.Steady s s' ∧ Service.validates p m.payload = true)

/-- A step of anyone but the lifecycle: no peer is created, and messages come
from the peers there are. -/
structure Frame (p : Platform) (n n' : Node) (message : Option IngressMessage) : Prop where
  peers : n'.peers = n.peers
  messages : ∀ m, n'.Carries m → n.Carries m ∨ m.2.generation ∈ n.peers
  service : Routes p n.sys.service n'.sys.service message
  behind : n.Behind → n'.Behind

/-- What goes on beside the lifecycle.  The adapters that tag a message when it is
handed to them (`route_text_message`) are not among it, and neither is what only
the lifecycle does: create peers and start sessions. -/
def Action.outside : Action → Bool
  | .createPeer | .routeMessage _ | .prepareIngress => false
  | .call .startNewSession | .call (.store _) => false
  | _ => true

variable {p : Platform} {base capacity b : ℕ} {n n' : Node} {message : Option IngressMessage}

theorem Below.mono {b' : ℕ} (h : n.Below b) (hb : b ≤ b') : n.Below b' :=
  ⟨fun g hg => (h.peers g hg).trans_le hb, fun m hm => (h.messages m hm).trans_le hb⟩

theorem Frame.below (h : Frame p n n' message) (hb : n.Below b) : n'.Below b := by
  refine ⟨fun g hg => hb.peers g (h.peers ▸ hg), fun m hm => ?_⟩
  rcases h.messages m hm with hm | hm
  · exact hb.messages m hm
  · exact hb.peers _ hm

theorem routed_carries {a : Action} {m : IngressMessage} (h : n.routed a = some m) :
    ∃ source, n.Carries (source, m) := by
  cases a with
  | takeFault env =>
    obtain ⟨⟨source, m'⟩, hm, rfl⟩ := Option.map_eq_some_iff.mp h
    exact ⟨source, Or.inr (Or.inr hm)⟩
  | route env =>
    obtain ⟨⟨source, m'⟩, hm, rfl⟩ := Option.map_eq_some_iff.mp h
    exact ⟨source, Or.inr (Or.inl (List.mem_of_mem_head? hm))⟩
  | _ => exact absurd h (by simp [routed])

/-- A step of the service, with what it announced.  `hannounced` says that the
new announcements are not ahead. -/
theorem Behind.adopt (h : n.Behind) {sys : Sys}
    (hsession : n.sys.service.sessionId ≤ sys.service.sessionId)
    (hannounced : ∀ g, Effect.setIngressGeneration g ∈ sys.service.effects →
      Effect.setIngressGeneration g ∈ n.sys.service.effects ∨ g ≤ sys.service.sessionId) :
    (n.adopt sys).Behind := by
  have heffects : ∀ g, Effect.setIngressGeneration g ∈ sys.service.effects →
      g ≤ sys.service.sessionId := by
    intro g hg
    rcases hannounced g hg with hg | hg
    · exact (h.effects g hg).trans hsession
    · exact hg
  refine ⟨heffects, fun g hg => ?_, h.ingress.trans hsession⟩
  rcases List.mem_append.mp hg with hg | hg
  · exact (h.announced g hg).trans hsession
  · obtain ⟨e, he, heg⟩ := List.mem_filterMap.mp hg
    refine heffects g ?_
    cases e with
    | setIngressGeneration g' =>
      rw [← Option.some_inj.mp heg]
      exact List.mem_of_mem_drop he
    | _ => exact absurd heg (by simp)

theorem Behind.reset (h : n.Behind) {sys : Sys}
    (hreset : Service.Resets n.sys.service sys.service) : (n.adopt sys).Behind :=
  h.adopt (by rw [hreset.session]; omega) fun g hg => (hreset.announced g hg).imp id (·.le)

theorem Behind.steady (h : n.Behind) {sys : Sys}
    (hsteady : Service.Steady n.sys.service sys.service) : (n.adopt sys).Behind :=
  h.adopt hsteady.session.ge fun g hg => Or.inl (hsteady.announced g hg)

theorem Frame.adopt {sys : Sys} (h : Routes p n.sys.service sys.service message) :
    Frame p n (n.adopt sys) message where
  peers := rfl
  messages _ hm := Or.inl hm
  service := h
  behind hb := by
    rcases h with hcalm | ⟨m, -, -, hreset | ⟨hsteady, -⟩⟩
    · exact hb.steady hcalm.toSteady
    · exact hb.reset hreset
    · exact hb.steady hsteady

/-- Steps that leave service and wire alone. -/
theorem Frame.aside (hsys : n'.sys = n.sys) (hpeers : n'.peers = n.peers)
    (hgeneration : n'.ingressGeneration = n.ingressGeneration)
    (hannounced : n'.announced = n.announced)
    (hmessages : ∀ m, n'.Carries m → n.Carries m ∨ m.2.generation ∈ n.peers) :
    Frame p n n' message where
  peers := hpeers
  messages := hmessages
  service := Or.inl (hsys ▸ Service.Calm.refl _)
  behind h := ⟨hsys ▸ h.effects, by rw [hannounced, hsys]; exact h.announced,
    by rw [hgeneration, hsys]; exact h.ingress⟩

/-- A message taken out of a queue before the step changes nothing about it. -/
theorem Frame.taken {n₁ : Node} (h : Frame p n₁ n' message) (hsys : n₁.sys = n.sys)
    (hpeers : n₁.peers = n.peers) (hgeneration : n₁.ingressGeneration = n.ingressGeneration)
    (hannounced : n₁.announced = n.announced)
    (hmessages : ∀ m, n₁.Carries m → n.Carries m ∨ m.2.generation ∈ n.peers) :
    Frame p n n' message where
  peers := h.peers.trans hpeers
  messages m hm := by
    rcases h.messages m hm with hm | hm
    · exact hmessages m hm
    · exact Or.inr (hpeers ▸ hm)
  service := hsys ▸ h.service
  behind hb := h.behind ⟨hsys ▸ hb.effects, by rw [hannounced, hsys]; exact hb.announced,
    by rw [hgeneration, hsys]; exact hb.ingress⟩

theorem Frame.refl (n : Node) : Frame p n n message := .aside rfl rfl rfl rfl fun _ hm => Or.inl hm

/-- What the router hands on stays away from service and wire. -/
theorem handOn_frame (base : ℕ) (source : Source) (es : List Effect) : ∀ n : Node,
    let n' := es.foldl (Node.handOn base source) n
    n'.sys = n.sys ∧ n'.peers = n.peers ∧ n'.ingressGeneration = n.ingressGeneration ∧
      n'.announced = n.announced ∧ ∀ m, n'.Carries m ↔ n.Carries m := by
  induction es with
  | nil => intro n; exact ⟨rfl, rfl, rfl, rfl, fun _ => Iff.rfl⟩
  | cons e rest ih =>
    intro n
    obtain ⟨hsys, hpeers, hgeneration, hannounced, hcarries⟩ := ih (n.handOn base source e)
    cases e <;> exact ⟨hsys, hpeers, hgeneration, hannounced, hcarries⟩

theorem process_frame (env : Env) {m : Source × IngressMessage} (hm : message = some m.2) :
    Frame p n (n.process p base env m) message := by
  have hadopt : Frame p n
      (n.adopt (n.sys.step p (.processIngress { env with lidarQueue := n.lidarQueue } m.2)))
      message :=
    .adopt ((Service.processIngress_cases p _ n.sys.service m.2).imp id fun h => ⟨m.2, hm, h⟩)
  obtain ⟨hsys, hpeers, hgeneration, hannounced, hcarries⟩ := handOn_frame base m.1
    ((n.sys.step p (.processIngress { env with lidarQueue := n.lidarQueue } m.2)
      ).service.outputs.drop n.sys.service.outputs.length)
    (n.adopt (n.sys.step p (.processIngress { env with lidarQueue := n.lidarQueue } m.2)))
  refine ⟨hpeers, fun m' hm' => Or.inl ((hcarries m').mp hm'), ?_, fun hb => ?_⟩
  · rw [process, hsys]
    exact hadopt.service
  · have hbehind := hadopt.behind hb
    exact ⟨by rw [process, hsys]; exact hbehind.effects,
      by rw [process, hannounced, hsys]; exact hbehind.announced,
      by rw [process, hgeneration, hsys]; exact hbehind.ingress⟩

/-- A message of one of the peers reaches the queue, or is dropped. -/
theorem push_frame {m : Source × IngressMessage} (hm : n.Carries m ∨ m.2.generation ∈ n.peers) :
    Frame p n (push capacity n m) message := by
  rw [push]
  split
  · refine .aside rfl rfl rfl rfl fun m' hm' => ?_
    rcases hm'.queued with hm' | rfl
    · exact Or.inl hm'
    · exact hm
  · exact .refl n

/-- A message of one of the peers is kept as the fault. -/
theorem fault_messages {m : Source × IngressMessage} (hm : m.2.generation ∈ n.peers) :
    ∀ m', { n with fault := some m }.Carries m' → n.Carries m' ∨ m'.2.generation ∈ n.peers := by
  intro m' hm'
  rcases hm'.faulted with hm' | rfl
  · exact Or.inl hm'
  · exact Or.inr hm

theorem trafficStep_frame (a : Traffic.Action Tagged) :
    Frame p n (n.trafficStep base a) message := .aside rfl rfl rfl rfl fun _ hm => Or.inl hm

theorem step_frame (n : Node) {a : Action} (ha : a.outside = true) :
    Frame p n (n.step p base capacity a) (n.routed a) := by
  have hsame : ∀ m, n.Carries m → n.Carries m ∨ m.2.generation ∈ n.peers := fun _ hm => Or.inl hm
  cases a with
  | createPeer => exact absurd ha (by simp [Action.outside])
  | onMessage peer payload =>
    rw [step]
    split
    · exact .refl n
    next generation hpeer =>
      split
      · refine .aside rfl rfl rfl rfl fun m hm => ?_
        rcases hm.sent with hm | rfl
        · exact Or.inl hm
        · exact Or.inr (List.mem_of_getElem? hpeer)
      · exact .refl n
  | enqueue i =>
    rw [step]
    split
    · exact .refl n
    next m hi =>
      have hm : n.Carries m := Or.inl (List.mem_of_getElem? hi)
      have herased : ∀ m', Carries { n with inFlight := n.inFlight.eraseIdx i } m' → n.Carries m' :=
        fun m' hm' => hm'.sub (List.eraseIdx_subset ..) (List.Subset.refl _) (Or.inr rfl)
      rw [push]
      split
      · refine .aside rfl rfl rfl rfl fun m' hm' => Or.inl ?_
        rcases hm'.queued with hm' | rfl
        · exact herased m' hm'
        · exact hm
      · exact .aside rfl rfl rfl rfl fun m' hm' => Or.inl (herased m' hm')
  | commandFault peer =>
    rw [step]
    split
    · exact .refl n
    next generation hpeer =>
      have hg := List.mem_of_getElem? hpeer
      split
      · exact (push_frame (Or.inr hg)).taken rfl rfl rfl rfl (fault_messages hg)
      · exact .refl n
  | routeMessage payload => exact absurd ha (by simp [Action.outside])
  | setIngressGeneration =>
    rw [step]
    split
    · exact .refl n
    next generation rest hannounced =>
      -- The engine takes the oldest announcement, which is not ahead of the session.
      refine ⟨rfl, fun m hm => ?_, Or.inl (Service.Calm.refl _),
        fun h => ⟨h.effects, fun g hg => ?_, ?_⟩⟩
      · exact Or.inl (hm.sub (List.Subset.refl _) (List.Subset.refl _) (Or.inl rfl))
      · exact h.announced g (hannounced ▸ List.mem_cons_of_mem _ hg)
      · exact h.announced generation (by simp [hannounced])
  | prepareIngress => exact absurd ha (by simp [Action.outside])
  | takeFault env =>
    rw [step]
    split
    · exact .refl n
    next m hm =>
      refine (process_frame env (by rw [routed, hm]; rfl)).taken rfl rfl rfl rfl
        fun m' hm' => Or.inl ?_
      exact hm'.sub (List.Subset.refl _) (List.Subset.refl _) (Or.inl rfl)
  | route env =>
    rw [step]
    split
    · exact .refl n
    next m rest hm =>
      refine (process_frame env (by rw [routed, hm]; rfl)).taken rfl rfl rfl rfl
        fun m' hm' => Or.inl ?_
      exact hm'.sub (List.Subset.refl _) (hm ▸ List.subset_cons_self m rest) (Or.inr rfl)
  | call a =>
    rw [step]
    split
    · exact .refl n
    next hprocess =>
      -- A call is calm unless it starts a session, which is not outside.
      refine .adopt (Or.inl (Sys.step_calm p n.sys (by simpa using hprocess) ?_))
      rintro rfl
      exact absurd ha (by simp [Action.outside])
  | workerRecv =>
    rw [step]
    split
    · exact .refl n
    · exact .aside rfl rfl rfl rfl hsame
  | workerCheck i =>
    rw [step]
    split
    · exact .refl n
    · split <;> exact .aside rfl rfl rfl rfl hsame
  | workerSend i env points =>
    rw [step]
    split
    · exact .refl n
    · dsimp only
      split <;> exact .aside rfl rfl rfl rfl hsame
  | media peer event =>
    rw [step]
    split
    · exact .refl n
    · exact trafficStep_frame _
  | receive blocked keep =>
    rw [step]
    split
    · split
      · exact .aside rfl rfl rfl rfl hsame
      · exact .refl n
    · exact trafficStep_frame _
  | takeEvent i => exact trafficStep_frame _
  | dropHeld i => exact trafficStep_frame _
  | dropReceiver => exact trafficStep_frame _

end Node

end Unitree
