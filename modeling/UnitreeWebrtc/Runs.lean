/-
Runs of a deterministic step function.

A system is a function `step : σ → α → σ`: everything nondeterministic (the
order of steps, what the environment answers) is in the action `α`, so that a
run is a list of actions.  The rules below are what a safety argument uses:

* `run_invariant`, `run_invariant_of` — what every step keeps, or every step that meets
  a condition, a run of such steps keeps;
* `run_mono` — what every step relates, every run relates;
* `exists_first` — what becomes true during a run becomes true at one step,
  and was false at every point before it;
* `exists_entry` — where every step adds at most one entry to a history, an entry
  was added by one step, after what came before it.

Where the steps are a relation, a chain of steps ends when every step lowers a
measure (`chain_length_le`).
-/
import Mathlib

namespace Runs

variable {σ α : Type} {step : σ → α → σ}

/-- The state reached from `s` by a list of actions. -/
def run (step : σ → α → σ) (s : σ) (as : List α) : σ := as.foldl step s

@[simp] theorem run_nil (s : σ) : run step s [] = s := rfl

@[simp] theorem run_cons (s : σ) (a : α) (as : List α) :
    run step s (a :: as) = run step (step s a) as := rfl

@[simp] theorem run_append (s : σ) (as bs : List α) :
    run step s (as ++ bs) = run step (run step s as) bs := List.foldl_append

theorem run_concat (s : σ) (as : List α) (a : α) :
    run step s (as ++ [a]) = step (run step s as) a := by simp

/-- What every step keeps, every run keeps. -/
theorem run_invariant {I : σ → Prop} (hstep : ∀ s a, I s → I (step s a)) :
    ∀ (as : List α) {s : σ}, I s → I (run step s as) := by
  intro as
  induction as with
  | nil => intro s hs; exact hs
  | cons a rest ih => intro s hs; exact ih (hstep s a hs)

/-- What is kept by the steps that meet a condition, a run of such steps keeps. -/
theorem run_invariant_of {I : σ → Prop} {C : σ → α → Prop}
    (hstep : ∀ s a, I s → C s a → I (step s a)) : ∀ (as : List α) {s : σ}, I s →
      (∀ q a, q ++ [a] <+: as → C (run step s q) a) → I (run step s as) := by
  intro as
  induction as with
  | nil => intro s hs _; exact hs
  | cons a rest ih =>
    intro s hs hC
    have ha : C s a := hC [] a (List.cons_prefix_cons.mpr ⟨rfl, List.nil_prefix⟩)
    refine ih (hstep s a hs ha) fun q b hq => ?_
    exact hC (a :: q) b (List.cons_prefix_cons.mpr ⟨rfl, hq⟩)

/-- What every step relates to its source, a whole run relates to its source. -/
theorem run_rel {R : σ → σ → Prop} (hrefl : ∀ s, R s s)
    (htrans : ∀ {s t u}, R s t → R t u → R s u) (hstep : ∀ s a, R s (step s a)) :
    ∀ (as : List α) (s : σ), R s (run step s as) := by
  intro as
  induction as with
  | nil => intro s; exact hrefl s
  | cons a rest ih => intro s; exact htrans (hstep s a) (ih (step s a))

/-- A quantity that no step lowers is not lowered by a run. -/
theorem run_mono {β : Type} [Preorder β] (f : σ → β) (hstep : ∀ s a, f s ≤ f (step s a)) :
    ∀ (as : List α) (s : σ), f s ≤ f (run step s as) :=
  run_rel (R := fun s t => f s ≤ f t) (fun _ => le_refl _) le_trans hstep

/-- What is false at the start of a run and true at its end becomes true at
one step, and is false in every state before it. -/
theorem exists_first {P : σ → Prop} : ∀ {as : List α} {s : σ}, ¬ P s → P (run step s as) →
    ∃ pre a post, as = pre ++ a :: post ∧ P (step (run step s pre) a) ∧
      ∀ q, q <+: pre → ¬ P (run step s q) := by
  intro as
  induction as with
  | nil =>
    intro s hs h
    exact absurd h hs
  | cons a rest ih =>
    intro s hs h
    by_cases ha : P (step s a)
    · refine ⟨[], a, rest, rfl, ha, fun q hq => ?_⟩
      rw [List.prefix_nil.mp hq]
      exact hs
    · obtain ⟨pre, b, post, rfl, hb, hpre⟩ := ih ha h
      refine ⟨a :: pre, b, post, rfl, hb, fun q hq => ?_⟩
      rcases q with _ | ⟨c, q⟩
      · exact hs
      · obtain ⟨rfl, hq'⟩ := List.cons_prefix_cons.mp hq
        exact hpre q hq'

/-- An entry of a history was added by one step of the run, and is what the step says. -/
theorem exists_entry {ε : Type} (history : σ → List ε) {I : σ → Prop} {E : σ → α → ε → Prop}
    (hkept : ∀ s a, I s → I (step s a))
    (hstep : ∀ s a, I s → history (step s a) = history s ∨
      ∃ x, E s a x ∧ history (step s a) = history s ++ [x])
    {s : σ} (hI : I s) (hs : history s = []) {pre post : List ε} {x : ε} : ∀ {as : List α},
    history (run step s as) = pre ++ x :: post →
      ∃ q a, q ++ [a] <+: as ∧ history (run step s q) = pre ∧ E (run step s q) a x := by
  intro as
  induction as using List.reverseRecOn generalizing post with
  | nil =>
    intro h
    exact absurd (hs.symm.trans h) (by simp)
  | append_singleton as a ih =>
    intro h
    rw [run_concat] at h
    have hbefore : I (run step s as) := run_invariant hkept as hI
    rcases hstep (run step s as) a hbefore with hsame | ⟨y, hE, hy⟩
    · obtain ⟨q, b, hq, hpre, hx⟩ := ih (hsame.symm.trans h)
      exact ⟨q, b, hq.trans (List.prefix_append _ _), hpre, hx⟩
    · rw [hy] at h
      rcases List.eq_nil_or_concat post with rfl | ⟨post', z, rfl⟩
      · obtain ⟨hpre, rfl⟩ := List.append_singleton_inj.mp h
        exact ⟨as, a, List.prefix_rfl, hpre, hE⟩
      · rw [List.concat_eq_append, ← List.cons_append, ← List.append_assoc] at h
        obtain ⟨hold, -⟩ := List.append_singleton_inj.mp h
        obtain ⟨q, b, hq, hpre, hx⟩ := ih hold
        exact ⟨q, b, hq.trans (List.prefix_append _ _), hpre, hx⟩

/-- Where every step lowers a measure, a chain of steps is no longer than the measure
of the state that it starts from. -/
theorem chain_length_le {r : σ → σ → Prop} {μ : σ → ℕ} (h : ∀ {s t}, r s t → μ t < μ s)
    {ss : List σ} : ∀ {s : σ}, List.IsChain r (s :: ss) → ss.length ≤ μ s := by
  induction ss with
  | nil => intro s _; exact Nat.zero_le _
  | cons t ss ih =>
    intro s hc
    obtain ⟨hst, hrest⟩ := List.isChain_cons_cons.mp hc
    exact (ih hrest).trans_lt (h hst)

end Runs
