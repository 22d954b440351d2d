/-
A crew that shares one queue.

Jobs are accepted at the back of the queue.  A worker of the crew that has nothing in hand
takes the first one, and finishes it with an outcome before it takes another.  What is
accepted, taken and finished is kept as three histories.

* `Crew.Inv` — the queue and the histories agree;
* `Crew.inv_accept`, `Crew.inv_take`, `Crew.inv_finish` — kept by everything a crew does;
* `Crew.Inv.conserved` — no job is lost or done twice.
-/
import Mathlib

/-- Jobs of type `ρ` that end in an outcome of type `ω`. -/
structure Crew (ρ ω : Type) where
  queue : List ρ
  hands : ℕ → Option ρ
  accepted : List ρ
  taken : List (ℕ × ρ)
  finished : List (ℕ × ρ × ω)

namespace Crew

variable {ρ ω : Type}

def empty : Crew ρ ω := { queue := [], hands := fun _ => none, accepted := [], taken := [],
                          finished := [] }

def accept (c : Crew ρ ω) (r : ρ) : Crew ρ ω :=
  { c with queue := c.queue ++ [r], accepted := c.accepted ++ [r] }

/-- Worker `w` takes the first job. -/
def take (c : Crew ρ ω) (w : ℕ) : Crew ρ ω :=
  match c.queue with
  | [] => c
  | r :: rest =>
    { c with
      queue := rest, hands := Function.update c.hands w (some r), taken := c.taken ++ [(w, r)] }

/-- Worker `w` is done with what it has in hand. -/
def finish (c : Crew ρ ω) (w : ℕ) (outcome : ω) : Crew ρ ω :=
  match c.hands w with
  | none => c
  | some r =>
    { c with
      hands := Function.update c.hands w none, finished := c.finished ++ [(w, r, outcome)] }

/-- What worker `w` has done. -/
def finishedBy (c : Crew ρ ω) (w : ℕ) : List (ρ × ω) :=
  (c.finished.filter fun f => f.1 = w).map Prod.snd

/-- What a crew of `n` has in hand. -/
def inHand (c : Crew ρ ω) (n : ℕ) : List ρ := (List.range n).filterMap c.hands

/-- Jobs are taken in the order they were accepted in, and each worker finishes what it
takes, one after the other. -/
structure Inv (n : ℕ) (c : Crew ρ ω) : Prop where
  fifo : c.accepted = c.taken.map Prod.snd ++ c.queue
  ordered : ∀ w, (c.taken.filter fun t => t.1 = w).map Prod.snd =
    (c.finishedBy w).map Prod.fst ++ (c.hands w).toList
  crew : ∀ w, n ≤ w → c.hands w = none
  balance : (c.taken.map Prod.snd).Perm (c.finished.map (fun f => f.2.1) ++ c.inHand n)

variable {n : ℕ} {c : Crew ρ ω}

theorem inv_empty (n : ℕ) : (empty : Crew ρ ω).Inv n :=
  ⟨rfl, fun _ => rfl, fun _ _ => rfl, by simp [empty, inHand]⟩

theorem inv_accept (h : c.Inv n) (r : ρ) : (c.accept r).Inv n :=
  ⟨by simp [accept, h.fifo], h.ordered, h.crew, h.balance⟩

/-- What comes into an empty hand, or goes out of it. -/
theorem inHand_update {w : ℕ} (hw : w < n) {hands : ℕ → Option ρ} (hnone : hands w = none)
    (r : ρ) :
    ((List.range n).filterMap (Function.update hands w (some r))).Perm
      (r :: (List.range n).filterMap hands) := by
  obtain ⟨before, after, hsplit⟩ := List.append_of_mem (List.mem_range.mpr hw)
  have hnodup : (before ++ w :: after).Nodup := hsplit ▸ List.nodup_range
  have hout : ∀ ws : List ℕ, w ∉ ws →
      ws.filterMap (Function.update hands w (some r)) = ws.filterMap hands := by
    intro ws hws
    refine List.filterMap_congr fun v hv => Function.update_of_ne ?_ _ _
    exact fun hvw => hws (hvw ▸ hv)
  have hbefore : w ∉ before := fun hmem =>
    (List.nodup_append.mp hnodup).2.2 w hmem w (by simp) rfl
  have hafter : w ∉ after := (List.nodup_cons.mp (List.nodup_append.mp hnodup).2.1).1
  rw [hsplit, List.filterMap_append, List.filterMap_append, hout before hbefore,
    List.filterMap_cons, List.filterMap_cons, hout after hafter, hnone, Function.update_self]
  exact List.perm_middle

theorem take_eq {w : ℕ} {r : ρ} {rest : List ρ} (hqueue : c.queue = r :: rest) :
    c.take w =
      { c with
        queue := rest
        hands := Function.update c.hands w (some r)
        taken := c.taken ++ [(w, r)] } := by
  rw [take, hqueue]

theorem inv_take (h : c.Inv n) {w : ℕ} (hw : w < n) (hnone : c.hands w = none) :
    (c.take w).Inv n := by
  rcases hqueue : c.queue with _ | ⟨r, rest⟩
  · rw [take, hqueue]
    exact h
  · rw [take_eq hqueue]
    refine ⟨?_, fun v => ?_, fun v hv => ?_, ?_⟩
    · rw [h.fifo, hqueue]
      simp
    · have hv := h.ordered v
      by_cases hvw : v = w
      · subst hvw
        rw [hnone] at hv
        simp [hv, finishedBy]
      · have hwv : ¬ w = v := fun heq => hvw heq.symm
        simp only [List.filter_append, List.map_append, hv, Function.update_of_ne hvw]
        simp [finishedBy, hwv]
    · have hvw : v ≠ w := fun heq => absurd (heq ▸ hv) (by omega)
      exact (Function.update_of_ne hvw _ _).trans (h.crew v hv)
    · have hperm := inHand_update hw hnone r
      rw [List.map_append]
      refine (h.balance.append_right _).trans ?_
      refine (List.perm_append_comm.trans ?_).trans (hperm.symm.append_left _)
      have hmiddle : (r :: (c.finished.map (fun f => f.2.1) ++ c.inHand n)).Perm
          (c.finished.map (fun f => f.2.1) ++ r :: c.inHand n) := List.perm_middle.symm
      exact hmiddle

theorem finish_eq {w : ℕ} {r : ρ} (hr : c.hands w = some r) (outcome : ω) :
    c.finish w outcome =
      { c with
        hands := Function.update c.hands w none
        finished := c.finished ++ [(w, r, outcome)] } := by
  rw [finish, hr]

theorem finish_hands {w : ℕ} {r : ρ} (hr : c.hands w = some r) (outcome : ω) :
    (c.finish w outcome).hands = Function.update c.hands w none := by rw [finish_eq hr]

theorem finish_finished {w : ℕ} {r : ρ} (hr : c.hands w = some r) (outcome : ω) :
    (c.finish w outcome).finished = c.finished ++ [(w, r, outcome)] := by rw [finish_eq hr]

theorem finishedBy_finish {w : ℕ} {r : ρ} (hr : c.hands w = some r) (outcome : ω) (v : ℕ) :
    (c.finish w outcome).finishedBy v =
      c.finishedBy v ++ if v = w then [(r, outcome)] else [] := by
  rw [finishedBy, finish_finished hr]
  by_cases hv : v = w
  · simp [finishedBy, hv]
  · have hwv : ¬ w = v := fun he => hv he.symm
    simp [finishedBy, hv, hwv]

theorem inv_finish (h : c.Inv n) (w : ℕ) (outcome : ω) : (c.finish w outcome).Inv n := by
  rcases hr : c.hands w with _ | r
  · rw [finish, hr]
    exact h
  · have hw : w < n := by
      by_contra hge
      exact absurd ((h.crew w (by omega)).symm.trans hr) (by simp)
    rw [finish_eq hr]
    refine ⟨h.fifo, fun v => ?_, fun v hv => ?_, ?_⟩
    · have hv := h.ordered v
      by_cases hvw : v = w
      · subst hvw
        rw [hr] at hv
        simp [hv, finishedBy]
      · have hwv : ¬ w = v := fun heq => hvw heq.symm
        refine hv.trans ?_
        dsimp only
        rw [Function.update_of_ne hvw]
        simp [finishedBy, hwv]
    · by_cases hvw : v = w
      · exact hvw ▸ Function.update_self ..
      · exact (Function.update_of_ne hvw _ _).trans (h.crew v hv)
    · have hself : Function.update (Function.update c.hands w none) w (some r) = c.hands := by
        rw [Function.update_idem, ← hr, Function.update_eq_self]
      have hperm := inHand_update hw (Function.update_self w none c.hands) r
      rw [hself] at hperm
      refine h.balance.trans ((hperm.append_left _).trans ?_)
      simp [inHand]

/-- Every accepted job is finished, in somebody's hands, or in the queue. -/
theorem Inv.conserved (h : c.Inv n) :
    c.accepted.Perm (c.finished.map (fun f => f.2.1) ++ c.inHand n ++ c.queue) := by
  rw [h.fifo]
  exact h.balance.append_right _

@[simp] theorem finish_queue (w : ℕ) (outcome : ω) : (c.finish w outcome).queue = c.queue := by
  rw [finish]
  split <;> rfl

@[simp] theorem finish_accepted (c : Crew ρ ω) (w : ℕ) (outcome : ω) :
    (c.finish w outcome).accepted = c.accepted := by
  rw [finish]
  split <;> rfl

end Crew
