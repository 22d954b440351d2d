/-
Tenures.

One owner at a time works.  It can leave tasks running in the background, and gives
up only when they are finished; then the next one comes.  Events of any type can be
read in this way, and a log of them is `Orderly` when it was written by owners that
behave like that.  What such a log looks like:

* `Orderly.holds_or_released` — an owner holds until it released;
* `Orderly.runs_or_finished` — a task runs until it finished, and while it runs its
  owner holds;
* `Orderly.released_for_good` — after an owner released there is nothing of it;
* `Orderly.earlier` — so when another one works.
-/
import Mathlib

namespace Tenure

/-- How an event is read. -/
inductive Role (ω τ : Type) where
  | acquired (o : ω)
  | work (o : ω)
  | spawned (o : ω) (t : τ)
  | finished (o : ω) (t : τ)
  | released (o : ω)
  | other

variable {ε ω τ : Type}

def Role.owner : Role ω τ → Option ω
  | .acquired o | .work o | .spawned o _ | .finished o _ | .released o => some o
  | .other => none

variable (role : ε → Role ω τ)

/-- One event after a log: the holder and the tasks that run, before and after. -/
inductive Step (log : List ε) :
    Role ω τ → Option ω → Set τ → Option ω → Set τ → Prop where
  | other (h running) : Step log .other h running h running
  | acquired (o) (fresh : ∀ x ∈ log, (role x).owner ≠ some o) :
      Step log (.acquired o) none ∅ (some o) ∅
  | work (o running) : Step log (.work o) (some o) running (some o) running
  | spawned (o t running) :
      Step log (.spawned o t) (some o) running (some o) (insert t running)
  | finished (o t running) :
      Step log (.finished o t) (some o) running (some o) (running \ {t})
  | released (o) : Step log (.released o) (some o) ∅ none ∅

inductive Orderly : List ε → Option ω → Set τ → Prop where
  | nil : Orderly [] none ∅
  | snoc {log e h running h' running'} : Orderly log h running →
      Step role log (role e) h running h' running' → Orderly (log ++ [e]) h' running'

variable {role} {log l₁ l₂ : List ε} {x e : ε} {h : Option ω} {running : Set τ} {a : ω} {t : τ}

theorem Orderly.last (ho : Orderly role (log ++ [e]) h running) :
    ∃ h₀ running₀, Orderly role log h₀ running₀ ∧
      Step role log (role e) h₀ running₀ h running := by
  generalize hl : log ++ [e] = l at ho
  cases ho with
  | nil => exact absurd hl (by simp)
  | snoc ho hstep =>
    obtain ⟨rfl, rfl⟩ := List.append_singleton_inj.mp hl
    exact ⟨_, _, ho, hstep⟩

theorem Orderly.take (ho : Orderly role (l₁ ++ l₂) h running) :
    ∃ h₀ running₀, Orderly role l₁ h₀ running₀ := by
  induction l₂ using List.reverseRecOn generalizing h running with
  | nil => exact ⟨h, running, by rwa [List.append_nil] at ho⟩
  | append_singleton l₂ e ih =>
    rw [← List.append_assoc] at ho
    obtain ⟨_, _, ho', -⟩ := ho.last
    exact ih ho'

/-- Whose event comes next holds. -/
theorem Orderly.working (ho : Orderly role (l₁ ++ x :: l₂) h running) (hx : role x = .work a) :
    ∃ running₀, Orderly role l₁ (some a) running₀ := by
  rw [List.append_cons] at ho
  obtain ⟨_, _, ho'⟩ := ho.take
  obtain ⟨_, _, ho₀, hstep⟩ := ho'.last
  rw [hx] at hstep
  cases hstep
  exact ⟨_, ho₀⟩

/-- An owner holds until it released. -/
theorem Orderly.holds_or_released (ho : Orderly role (l₁ ++ x :: l₂) h running)
    (hx : role x = .acquired a) : h = some a ∨ ∃ y ∈ l₂, role y = .released a := by
  induction l₂ using List.reverseRecOn generalizing h running with
  | nil =>
    obtain ⟨_, _, -, hstep⟩ := ho.last
    rw [hx] at hstep
    cases hstep
    exact Or.inl rfl
  | append_singleton l₂ e ih =>
    rw [← List.cons_append, ← List.append_assoc] at ho
    obtain ⟨h₀, running₀, ho₀, hstep⟩ := ho.last
    rcases ih ho₀ with rfl | ⟨y, hy, hrel⟩
    · generalize hr : role e = r at hstep
      cases hstep with
      | other | work | spawned | finished => exact Or.inl rfl
      | released => exact Or.inr ⟨e, by simp, hr⟩
    · exact Or.inr ⟨y, List.mem_append_left _ hy, hrel⟩

/-- And the next one comes only then. -/
theorem Orderly.released_between {y : ε} {l₃ : List ε} {b : ω}
    (ho : Orderly role (l₁ ++ x :: (l₂ ++ y :: l₃)) h running) (hx : role x = .acquired a)
    (hy : role y = .acquired b) : ∃ z ∈ l₂, role z = .released a := by
  rw [← List.cons_append, ← List.append_assoc, List.append_cons] at ho
  obtain ⟨_, _, ho'⟩ := ho.take
  obtain ⟨_, _, ho₀, hstep⟩ := ho'.last
  rw [hy] at hstep
  cases hstep
  rcases ho₀.holds_or_released hx with hold | hrel
  · exact absurd hold (by simp)
  · exact hrel

/-- A task runs until it finished, and its owner holds that long. -/
theorem Orderly.runs_or_finished (ho : Orderly role (l₁ ++ x :: l₂) h running)
    (hx : role x = .spawned a t) :
    (h = some a ∧ t ∈ running) ∨ ∃ y ∈ l₂, role y = .finished a t := by
  induction l₂ using List.reverseRecOn generalizing h running with
  | nil =>
    obtain ⟨_, _, -, hstep⟩ := ho.last
    rw [hx] at hstep
    cases hstep
    exact Or.inl ⟨rfl, Set.mem_insert ..⟩
  | append_singleton l₂ e ih =>
    rw [← List.cons_append, ← List.append_assoc] at ho
    obtain ⟨h₀, running₀, ho₀, hstep⟩ := ho.last
    rcases ih ho₀ with ⟨rfl, ht⟩ | ⟨y, hy, hfin⟩
    · generalize hr : role e = r at hstep
      cases hstep with
      | other | work => exact Or.inl ⟨rfl, ht⟩
      | spawned => exact Or.inl ⟨rfl, Set.mem_insert_of_mem _ ht⟩
      | finished _ t' =>
        by_cases htt : t = t'
        · subst htt
          exact Or.inr ⟨e, by simp, hr⟩
        · exact Or.inl ⟨rfl, ht, htt⟩
      -- nothing runs there
      | released => exact absurd ht (Set.notMem_empty t)
    · exact Or.inr ⟨y, List.mem_append_left _ hy, hfin⟩

/-- After an owner released there is nothing of it. -/
theorem Orderly.released_for_good (ho : Orderly role (l₁ ++ x :: l₂) h running)
    (hx : role x = .released a) : h ≠ some a ∧ ∀ y ∈ l₂, (role y).owner ≠ some a := by
  induction l₂ using List.reverseRecOn generalizing h running with
  | nil =>
    obtain ⟨_, _, -, hstep⟩ := ho.last
    rw [hx] at hstep
    cases hstep
    exact ⟨by simp, by simp⟩
  | append_singleton l₂ e ih =>
    rw [← List.cons_append, ← List.append_assoc] at ho
    obtain ⟨h₀, running₀, ho₀, hstep⟩ := ho.last
    obtain ⟨hne, hnone⟩ := ih ho₀
    have hboth : h ≠ some a ∧ (role e).owner ≠ some a := by
      generalize role e = r at hstep ⊢
      cases hstep with
      | other => exact ⟨hne, by simp [Role.owner]⟩
      | acquired o fresh =>
        -- its release is in the log
        have hoa : o ≠ a := fun hoa => fresh x (by simp) (by rw [hx, hoa]; rfl)
        exact ⟨by simpa using hoa, by simpa [Role.owner] using hoa⟩
      | work | spawned | finished => exact ⟨hne, hne⟩
      | released => exact ⟨by simp, hne⟩
    refine ⟨hboth.1, fun y hy => ?_⟩
    rcases List.mem_append.mp hy with hy | hy
    · exact hnone y hy
    · rw [List.mem_singleton.mp hy]
      exact hboth.2

/-- When another owner works, an earlier one has released, with all its tasks. -/
theorem Orderly.earlier {b : ω} (ho : Orderly role (l₁ ++ x :: l₂) h running)
    (hx : role x = .work b) (hab : a ≠ b) (he : e ∈ l₁) (hea : role e = .acquired a) :
    (∀ y ∈ l₂, (role y).owner ≠ some a) ∧
      ∀ k₁ z k₂ t, l₁ = k₁ ++ z :: k₂ → role z = .spawned a t →
        ∃ y ∈ k₂, role y = .finished a t := by
  obtain ⟨_, ho₁⟩ := ho.working hx
  refine ⟨?_, fun k₁ z k₂ t hl hz => ?_⟩
  · obtain ⟨k₁, k₂, rfl⟩ := List.append_of_mem he
    rcases ho₁.holds_or_released hea with hold | ⟨y, hy, hrel⟩
    · exact absurd (Option.some_inj.mp hold).symm hab
    · obtain ⟨m₁, m₂, rfl⟩ := List.append_of_mem hy
      have hsplit : (k₁ ++ e :: (m₁ ++ y :: m₂)) ++ x :: l₂ =
          (k₁ ++ e :: m₁) ++ y :: (m₂ ++ x :: l₂) := by simp
      rw [hsplit] at ho
      exact fun z hz => (ho.released_for_good hrel).2 z (by simp [hz])
  · subst hl
    rcases ho₁.runs_or_finished hz with ⟨hold, -⟩ | hfin
    · exact absurd (Option.some_inj.mp hold).symm hab
    · exact hfin

end Tenure
