/-
Dialogues with somebody who may answer anything.

A dialogue asks questions one after the other, each of which may depend on the answers so
far, and ends with a result.  `talk` holds it with an answerer who remembers everything that
was said.  `Always` is its weakest precondition: whatever the answers are, as long as they
are as promised, the result and the transcript satisfy the postcondition.

* `Always.talk` — soundness, for every dialogue in which the promise is kept;
* `always_bind`, `always_attempt` — one dialogue after the other, also where the first can
  fail.
-/
import Mathlib.Tactic.Common
import Mathlib.Data.List.Basic

/-- A computation that asks questions `q : Q`, with answers in `A q`. -/
inductive Dialogue (Q : Type) (A : Q → Type) (α : Type) where
  | done (a : α)
  | ask (q : Q) (next : A q → Dialogue Q A α)

namespace Dialogue

variable {Q : Type} {A : Q → Type} {α β : Type}

def bind : Dialogue Q A α → (α → Dialogue Q A β) → Dialogue Q A β
  | done a, f => f a
  | ask q next, f => ask q fun r => (next r).bind f

instance : Monad (Dialogue Q A) where
  pure := done
  bind := bind

/-- What was asked, and what the answers were. -/
abbrev Transcript (Q : Type) (A : Q → Type) := List (Σ q, A q)

/-- The dialogue with an answerer, after what they have already said. -/
def talk (answer : Transcript Q A → (q : Q) → A q) :
    Dialogue Q A α → Transcript Q A → α × Transcript Q A
  | done a, said => (a, said)
  | ask q next, said => (next (answer said q)).talk answer (said ++ [⟨q, answer said q⟩])

theorem talk_append (answer : Transcript Q A → (q : Q) → A q) (d : Dialogue Q A α)
    (said : Transcript Q A) : ∃ more, (d.talk answer said).2 = said ++ more := by
  induction d generalizing said with
  | done a => exact ⟨[], (List.append_nil said).symm⟩
  | ask q next ih =>
    obtain ⟨more, heq⟩ := ih (answer said q) (said ++ [⟨q, answer said q⟩])
    exact ⟨⟨q, answer said q⟩ :: more, by rw [talk, heq, List.append_assoc]; rfl⟩

/-- Whatever the answers are, as long as `G` holds of them, the result and what was said
satisfy `P`. -/
def Always (G : (q : Q) → A q → Prop) : Dialogue Q A α → (α → Transcript Q A → Prop) → Prop
  | done a, P => P a []
  | ask q next, P => ∀ r, G q r → (next r).Always G fun a said => P a (⟨q, r⟩ :: said)

variable {G : (q : Q) → A q → Prop}

/-- Who always keeps a promise has kept it. -/
theorem talk_keeps {answer : Transcript Q A → (q : Q) → A q}
    (hanswer : ∀ said q, G q (answer said q)) (d : Dialogue Q A α) {said : Transcript Q A}
    (hsaid : ∀ s ∈ said, G s.1 s.2) : ∀ s ∈ (d.talk answer said).2, G s.1 s.2 := by
  induction d generalizing said with
  | done a => exact hsaid
  | ask q next ih =>
    refine ih _ fun s hs => ?_
    rcases List.mem_append.mp hs with hold | hnew
    · exact hsaid s hold
    · rw [List.mem_singleton.mp hnew]
      exact hanswer said q

theorem Always.talk (answer : Transcript Q A → (q : Q) → A q) {d : Dialogue Q A α}
    {P : α → Transcript Q A → Prop} (h : d.Always G P) (said : Transcript Q A) :
    ∃ more, (d.talk answer said).2 = said ++ more ∧
      ((∀ s ∈ more, G s.1 s.2) → P (d.talk answer said).1 more) := by
  induction d generalizing said P with
  | done a => exact ⟨[], (List.append_nil said).symm, fun _ => h⟩
  | ask q next ih =>
    obtain ⟨tail, htail⟩ := talk_append answer (next (answer said q)) (said ++ [⟨q, answer said q⟩])
    refine ⟨⟨q, answer said q⟩ :: tail, ?_, fun hall => ?_⟩
    · rw [Dialogue.talk, htail, List.append_assoc]
      rfl
    · obtain ⟨hfirst, hrest⟩ := List.forall_mem_cons.mp hall
      obtain ⟨more, heq, hP⟩ := ih _ (h _ hfirst) (said ++ [⟨q, answer said q⟩])
      obtain rfl := List.append_cancel_left (heq.symm.trans htail)
      exact hP hrest

theorem Always.mono {d : Dialogue Q A α} {P P' : α → Transcript Q A → Prop}
    (h : d.Always G P) (himp : ∀ a said, P a said → P' a said) : d.Always G P' := by
  induction d generalizing P P' with
  | done a => exact himp a [] h
  | ask q next ih => exact fun r hr => ih r (h r hr) fun a said => himp a _

@[simp] theorem always_pure {a : α} {P : α → Transcript Q A → Prop} :
    (pure a : Dialogue Q A α).Always G P ↔ P a [] := Iff.rfl

theorem always_bind {d : Dialogue Q A α} {f : α → Dialogue Q A β}
    {P : β → Transcript Q A → Prop} :
    (d >>= f).Always G P ↔
      d.Always G fun a said => (f a).Always G fun b more => P b (said ++ more) := by
  induction d generalizing P with
  | done a => exact Iff.rfl
  | ask q next ih => exact forall_congr' fun r => imp_congr_right fun _ => ih r

/-! ### Dialogues that can fail -/

variable {ε : Type}

/-- The question `q`, and its answer. -/
def query (q : Q) : ExceptT ε (Dialogue Q A) (A q) :=
  ExceptT.mk (ask q fun r => done (.ok r))

/-- A result that needs no questions. -/
def given (r : Except ε α) : ExceptT ε (Dialogue Q A) α := ExceptT.mk (done r)

@[simp] theorem always_query {q : Q} {P : Except ε (A q) → Transcript Q A → Prop} :
    (query q : ExceptT ε (Dialogue Q A) (A q)).run.Always G P ↔
      ∀ r, G q r → P (.ok r) [⟨q, r⟩] := Iff.rfl

@[simp] theorem always_given {r : Except ε α} {P : Except ε α → Transcript Q A → Prop} :
    (given r : ExceptT ε (Dialogue Q A) α).run.Always G P ↔ P r [] := Iff.rfl

@[simp] theorem always_attempt_pure {a : α} {P : Except ε α → Transcript Q A → Prop} :
    (pure a : ExceptT ε (Dialogue Q A) α).run.Always G P ↔ P (.ok a) [] := Iff.rfl

@[simp] theorem always_throw {e : ε} {P : Except ε α → Transcript Q A → Prop} :
    (throw e : ExceptT ε (Dialogue Q A) α).run.Always G P ↔ P (.error e) [] := Iff.rfl

/-- A failure ends the whole dialogue. -/
theorem always_attempt {x : ExceptT ε (Dialogue Q A) α} {f : α → ExceptT ε (Dialogue Q A) β}
    {P : Except ε β → Transcript Q A → Prop} :
    (x >>= f).run.Always G P ↔
      x.run.Always G fun r said => (∀ e, r = .error e → P (.error e) said) ∧
        ∀ a, r = .ok a → (f a).run.Always G fun b more => P b (said ++ more) := by
  rw [ExceptT.run_bind, always_bind]
  constructor
  all_goals refine fun h => h.mono fun r said hr => ?_
  · cases r with
    | error e =>
      refine ⟨fun e' he' => ?_, fun a ha => absurd ha (by simp)⟩
      rw [← Except.error.inj he']
      simpa using hr
    | ok a =>
      refine ⟨fun e he => absurd he (by simp), fun a' ha' => ?_⟩
      rw [← Except.ok.inj ha']
      exact hr
  · cases r with
    | error e => simpa using hr.1 e rfl
    | ok a => exact hr.2 a rfl

/-- A dialogue that can fail, and what comes after it. -/
theorem Always.attempt {x : ExceptT ε (Dialogue Q A) α} {f : α → ExceptT ε (Dialogue Q A) β}
    {P : Except ε α → Transcript Q A → Prop} {R : Except ε β → Transcript Q A → Prop}
    (hx : x.run.Always G P) (herror : ∀ e said, P (.error e) said → R (.error e) said)
    (hok : ∀ a said, P (.ok a) said → (f a).run.Always G fun b more => R b (said ++ more)) :
    (x >>= f).run.Always G R :=
  always_attempt.mpr (hx.mono fun _ said hr =>
    ⟨fun e he => herror e said (he ▸ hr), fun a ha => hok a said (ha ▸ hr)⟩)

theorem Always.query {q : Q} {f : A q → ExceptT ε (Dialogue Q A) β}
    {R : Except ε β → Transcript Q A → Prop}
    (h : ∀ r, G q r → (f r).run.Always G fun b more => R b (⟨q, r⟩ :: more)) :
    (Dialogue.query q >>= f).run.Always G R := h

theorem Always.given {r : Except ε α} {f : α → ExceptT ε (Dialogue Q A) β}
    {R : Except ε β → Transcript Q A → Prop} (herror : ∀ e, r = .error e → R (.error e) [])
    (hok : ∀ a, r = .ok a → (f a).run.Always G R) :
    (Dialogue.given r >>= f).run.Always G R :=
  always_attempt.mpr ⟨herror, hok⟩

end Dialogue
