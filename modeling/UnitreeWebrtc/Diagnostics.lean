/-
Repeated failures in the log (`diagnostics.rs`).

A class of failures that repeats is logged once when it starts, and then at most once
in a window, with the number of failures since the line before.  Every operation holds
the mutex once, so that concurrent callers make one sequence of operations.  What they
read from the clock before they have the mutex need not be in the order of that
sequence.

* `RepeatLog.apply_does` — everything an operation can do;
* `RepeatLog.run_accounts` — the counter and the lines of any sequence of operations;
* `RepeatLog.lines_account_for_every_event` — no failure is lost or counted twice, and
  lines are spaced.
-/
import UnitreeWebrtc.Runs

namespace Unitree

structure RepeatState where
  /-- An `Instant`, in nanoseconds. -/
  lastReport : Option ℕ
  pending : ℕ

structure RepeatLog where
  event : String
  reason : String
  state : RepeatState

/-- The fields of a `tracing::warn!`. -/
structure LogLine where
  event : String
  reason : String
  count : ℕ
  suppressedCount : ℕ
deriving DecidableEq

namespace RepeatLog

/-- `WINDOW`, five seconds. -/
def window : ℕ := 5 * 10 ^ 9

def u64Max : ℕ := 2 ^ 64 - 1

/-- `u64::saturating_add` of one. -/
def bump (pending : ℕ) : ℕ := min (pending + 1) u64Max

def new (event reason : String) : RepeatLog :=
  { event, reason, state := { lastReport := none, pending := 0 } }

/-- The subtraction of natural numbers is `saturating_duration_since`. -/
def recordAt (l : RepeatLog) (now : ℕ) : Option (ℕ × ℕ) × RepeatState :=
  match l.state.lastReport with
  | none => (some (1, 0), { l.state with lastReport := some now })
  | some lastReport =>
    let pending := bump l.state.pending
    if now - lastReport < window then (none, { l.state with pending })
    else (some (pending, pending), { lastReport := some now, pending := 0 })

def takePending (l : RepeatLog) : Option (ℕ × ℕ) × RepeatState :=
  let count := l.state.pending
  (if count ≠ 0 then some (count, count) else none, { l.state with pending := 0 })

/-- The locked part of `reset`. -/
def takeState (l : RepeatLog) : Option (ℕ × ℕ) × RepeatState :=
  let count := l.state.pending
  (if count ≠ 0 then some (count, count) else none, { lastReport := none, pending := 0 })

def emit (l : RepeatLog) (counts : ℕ × ℕ) : LogLine :=
  { event := l.event, reason := l.reason, count := counts.1, suppressedCount := counts.2 }

/-- What an operation has counted is emitted after the mutex is free again. -/
def emits (l : RepeatLog) (r : Option (ℕ × ℕ) × RepeatState) : Option LogLine × RepeatLog :=
  (r.1.map l.emit, { l with state := r.2 })

def record (l : RepeatLog) (now : ℕ) : Option LogLine × RepeatLog := l.emits (l.recordAt now)

def flush (l : RepeatLog) : Option LogLine × RepeatLog := l.emits l.takePending

def reset (l : RepeatLog) : Option LogLine × RepeatLog := l.emits l.takeState

def drop (l : RepeatLog) : Option LogLine × RepeatLog := l.flush

inductive Op where
  /-- `record` and `record_with`, with what `Instant::now()` answered. -/
  | record (now : ℕ)
  | flush
  | reset
  | drop
deriving DecidableEq

def Op.records : Op → Bool
  | .record _ => true
  | _ => false

def apply (l : RepeatLog) : Op → Option LogLine × RepeatLog
  | .record now => l.record now
  | .flush => l.flush
  | .reset => l.reset
  | .drop => l.drop

/-! ### Everything an operation can do -/

/-- The line of an operation, and the state it leaves. -/
inductive Does (l : RepeatLog) : Op → Option LogLine → RepeatState → Prop where
  | first (now : ℕ) (h : l.state.lastReport = none) :
      Does l (.record now) (some (l.emit (1, 0))) { l.state with lastReport := some now }
  | suppressed (now lastReport : ℕ) (h : l.state.lastReport = some lastReport)
      (hnow : now < lastReport + window) :
      Does l (.record now) none { l.state with pending := bump l.state.pending }
  | summary (now lastReport : ℕ) (h : l.state.lastReport = some lastReport)
      (hnow : lastReport + window ≤ now) :
      Does l (.record now) (some (l.emit (bump l.state.pending, bump l.state.pending)))
        { lastReport := some now, pending := 0 }
  | silent (op : Op) (hop : op.records = false) (h : l.state.pending = 0) :
      Does l op none
        { lastReport := if op = .reset then none else l.state.lastReport, pending := 0 }
  | flushes (op : Op) (hop : op.records = false) (h : 0 < l.state.pending) :
      Does l op (some (l.emit (l.state.pending, l.state.pending)))
        { lastReport := if op = .reset then none else l.state.lastReport, pending := 0 }

theorem apply_snd (l : RepeatLog) (op : Op) :
    (l.apply op).2 = { l with state := (l.apply op).2.state } := by
  cases op with
  | record now | flush | reset | drop => rfl

theorem record_does (l : RepeatLog) (now : ℕ) :
    Does l (.record now) (l.record now).1 (l.record now).2.state := by
  rw [record, recordAt]
  cases h : l.state.lastReport with
  | none => exact .first now h
  | some lastReport =>
    dsimp only
    split
    next hnow => exact .suppressed now lastReport h (by omega)
    next hnow => exact .summary now lastReport h (by rw [window] at hnow ⊢; omega)

theorem flush_does (l : RepeatLog) {op : Op} (hop : op.records = false) (hne : op ≠ .reset) :
    Does l op l.flush.1 l.flush.2.state := by
  by_cases h : l.state.pending = 0
  · have hdoes := Does.silent op hop h
    rw [if_neg hne] at hdoes
    simpa [flush, takePending, emits, h] using hdoes
  · have hdoes := Does.flushes op hop (Nat.pos_of_ne_zero h)
    rw [if_neg hne] at hdoes
    simpa [flush, takePending, emits, h] using hdoes

theorem reset_does (l : RepeatLog) : Does l .reset l.reset.1 l.reset.2.state := by
  by_cases h : l.state.pending = 0
  · simpa [reset, takeState, emits, h] using Does.silent .reset rfl h
  · simpa [reset, takeState, emits, h] using Does.flushes .reset rfl (Nat.pos_of_ne_zero h)

theorem apply_does (l : RepeatLog) (op : Op) :
    Does l op (l.apply op).1 (l.apply op).2.state := by
  cases op with
  | record now => exact l.record_does now
  | flush => exact l.flush_does rfl (by simp)
  | reset => exact l.reset_does
  | drop => exact l.flush_does rfl (by simp)

/-! ### Everything done to a log -/

/-- An operation with the line it logged. -/
abbrev Entry := Op × Option LogLine

/-- A log with everything done to it so far.  After `drop` it is gone. -/
structure Journal where
  log : RepeatLog
  dropped : Bool
  history : List Entry

def step (j : Journal) (op : Op) : Journal :=
  if j.dropped then j
  else
    { log := (j.log.apply op).2
      dropped := decide (op = .drop)
      history := j.history ++ [(op, (j.log.apply op).1)] }

def journal (event reason : String) (ops : List Op) : Journal :=
  Runs.run step { log := new event reason, dropped := false, history := [] } ops

/-- The operations up to the first `drop`. -/
def performed : List Op → List Op
  | [] => []
  | op :: rest => if op = .drop then [op] else op :: performed rest

/-- The number of failures recorded. -/
def recorded (history : List Entry) : ℕ := history.countP fun e => e.1.records

def lineCount (line : Option LogLine) : ℕ := line.elim 0 LogLine.count

/-- The sum of the counts of all lines. -/
def emitted (history : List Entry) : ℕ := (history.map fun e => lineCount e.2).sum

def after (last : Option ℕ) : Entry → Option ℕ
  | (.reset, _) => none
  | (.record now, some _) => some now
  | _ => last

/-- When `record` last logged a line, since the last reset. -/
def lastLine (history : List Entry) : Option ℕ := history.foldl after none

@[simp] theorem recorded_append (h h' : List Entry) :
    recorded (h ++ h') = recorded h + recorded h' := List.countP_append

@[simp] theorem emitted_append (h h' : List Entry) :
    emitted (h ++ h') = emitted h + emitted h' := by
  simp [emitted]

theorem recorded_singleton (e : Entry) : recorded [e] = if e.1.records then 1 else 0 := by
  simp [recorded]

theorem emitted_singleton (e : Entry) : emitted [e] = lineCount e.2 := by
  simp [emitted]

theorem lastLine_append (h h' : List Entry) : lastLine (h ++ h') = h'.foldl after (lastLine h) :=
  List.foldl_append

theorem after_quiet {op : Op} (hop : op.records = false) (last : Option ℕ) (line : Option LogLine) :
    after last (op, line) = if op = .reset then none else last := by
  cases op with
  | record now => exact absurd hop (by simp [Op.records])
  | flush | reset | drop => rfl

/-- What is done to a log that is there. -/
theorem step_does {j : Journal} (h : j.dropped = false) (op : Op) :
    ∃ out state, Does j.log op out state ∧
      step j op = { log := { j.log with state }, dropped := decide (op = .drop),
                    history := j.history ++ [(op, out)] } := by
  refine ⟨_, _, j.log.apply_does op, ?_⟩
  rw [step, h, ← apply_snd]
  rfl

/-! ### The counter and the lines -/

/-- A line reports what was pending and the failure itself. -/
theorem Does.conserves {l : RepeatLog} {op : Op} {out : Option LogLine} {state : RepeatState}
    (h : Does l op out state) (hidle : l.state.lastReport = none → l.state.pending = 0)
    (hfew : l.state.pending + (if op.records then 1 else 0) < 2 ^ 64) :
    lineCount out + state.pending = l.state.pending + if op.records then 1 else 0 := by
  cases h with
  | first now hnone => simp [lineCount, emit, Op.records, hidle hnone]
  | suppressed now last hsome hnow =>
    simp only [Op.records, if_true] at hfew
    simp only [Op.records, if_true, lineCount, Option.elim, bump, u64Max]
    omega
  | summary now last hsome hnow =>
    simp only [Op.records, if_true] at hfew
    simp only [Op.records, if_true, lineCount, emit, Option.elim, bump, u64Max]
    omega
  | silent op hop hzero => simp [lineCount, hop, hzero]
  | flushes op hop hpos => simp [lineCount, emit, hop]

theorem Does.lastReport {l : RepeatLog} {op : Op} {out : Option LogLine} {state : RepeatState}
    (h : Does l op out state) : state.lastReport = after l.state.lastReport (op, out) := by
  cases h with
  | first now hnone => rfl
  | suppressed now last hsome hnow => rfl
  | summary now last hsome hnow => rfl
  | silent op hop hzero => rw [after_quiet hop]
  | flushes op hop hpos => rw [after_quiet hop]

/-- Failures wait only behind a line of `record`, and not after any line or a `drop`. -/
theorem Does.pending {l : RepeatLog} {op : Op} {out : Option LogLine} {state : RepeatState}
    (h : Does l op out state) (hidle : l.state.lastReport = none → l.state.pending = 0)
    (hop : op = .drop ∨ out.isSome ∨ state.lastReport = none) : state.pending = 0 := by
  cases h with
  | first now hnone => exact hidle hnone
  | suppressed now last hsome hnow => simp [hsome] at hop
  | summary | silent | flushes => rfl

/-- No line reports nothing. -/
theorem Does.line {l : RepeatLog} {op : Op} {line : LogLine} {state : RepeatState}
    (h : Does l op (some line) state) :
    0 < line.count ∧ line.event = l.event ∧ line.reason = l.reason := by
  cases h with
  | first now hnone => exact ⟨Nat.one_pos, rfl, rfl⟩
  | summary now last hsome hnow => exact ⟨by simp [emit, bump, u64Max], rfl, rfl⟩
  | flushes op hop hpos => exact ⟨hpos, rfl, rfl⟩

/-- The lines and the counter say everything that has been recorded. -/
structure Accounts (event reason : String) (j : Journal) : Prop where
  event : j.log.event = event
  reason : j.log.reason = reason
  conserved : recorded j.history < 2 ^ 64 →
    emitted j.history + j.log.state.pending = recorded j.history
  lastReport : j.log.state.lastReport = lastLine j.history
  idle : j.log.state.lastReport = none → j.log.state.pending = 0
  dropped : j.dropped = true → j.log.state.pending = 0

variable {event reason : String}

/-- An operation and its line keep the sum. -/
theorem Accounts.entry {j : Journal} (h : Accounts event reason j) {op : Op} {out : Option LogLine}
    {state : RepeatState} (hdoes : Does j.log op out state)
    (hfew : recorded (j.history ++ [(op, out)]) < 2 ^ 64) :
    emitted (j.history ++ [(op, out)]) + state.pending = recorded (j.history ++ [(op, out)]) := by
  rw [recorded_append, recorded_singleton] at hfew
  dsimp only at hfew
  have hold := h.conserved (by omega)
  have hnew := hdoes.conserves h.idle (by omega)
  rw [recorded_append, recorded_singleton, emitted_append, emitted_singleton]
  dsimp only
  omega

theorem Accounts.step {j : Journal} (h : Accounts event reason j) (op : Op) :
    Accounts event reason (step j op) := by
  cases hgone : j.dropped with
  | true =>
    -- Nothing is done to a log that is gone.
    rw [RepeatLog.step, if_pos hgone]
    exact h
  | false =>
    obtain ⟨out, state, hdoes, hstep⟩ := step_does hgone op
    rw [hstep]
    refine ⟨h.event, h.reason, fun hfew => ?_, ?_, fun hnone => ?_, fun hdrop => ?_⟩
    · exact h.entry hdoes hfew
    · dsimp only
      rw [hdoes.lastReport, h.lastReport, lastLine_append]
      rfl
    · exact hdoes.pending h.idle (.inr (.inr hnone))
    · exact hdoes.pending h.idle (.inl (of_decide_eq_true hdrop))

/-- **The counter and the lines of any sequence of operations.** -/
theorem run_accounts (event reason : String) (ops : List Op) :
    Accounts event reason (journal event reason ops) :=
  Runs.run_invariant (I := Accounts event reason) (fun _ op h => h.step op) ops
    { event := rfl, reason := rfl, conserved := fun _ => rfl, lastReport := rfl,
      idle := fun _ => rfl, dropped := fun _ => rfl }

theorem run_dropped {j : Journal} (h : j.dropped = true) (ops : List Op) :
    Runs.run step j ops = j :=
  Runs.run_invariant (I := fun t => t = j)
    (fun t op ht => by rw [ht, step, if_pos h]) ops rfl

theorem step_history (j : Journal) (op : Op) : (step j op).history = j.history ∨
    ∃ e, (∃ state, Does j.log e.1 e.2 state) ∧
      (step j op).history = j.history ++ [e] := by
  cases hgone : j.dropped with
  | true => exact .inl (by rw [step, if_pos hgone])
  | false =>
    obtain ⟨out, state, hdoes, hstep⟩ := step_does hgone op
    exact .inr ⟨(op, out), ⟨state, hdoes⟩, by rw [hstep]⟩

theorem run_performs (ops : List Op) : ∀ {j : Journal}, j.dropped = false →
    (Runs.run step j ops).history.map Prod.fst = j.history.map Prod.fst ++ performed ops ∧
      ((Runs.run step j ops).dropped = true ↔ Op.drop ∈ ops) := by
  induction ops with
  | nil => intro j h; simp [performed, h]
  | cons op rest ih =>
    intro j h
    obtain ⟨out, state, -, hstep⟩ := step_does h op
    by_cases hop : op = .drop
    · subst hop
      have hgone : (step j .drop).dropped = true := by rw [hstep]; rfl
      rw [Runs.run_cons, run_dropped hgone]
      refine ⟨?_, by simp [hgone]⟩
      rw [hstep, performed, if_pos rfl]
      simp
    · have hthere : (step j op).dropped = false := by
        rw [hstep]
        exact decide_eq_false hop
      obtain ⟨hmap, hdrop⟩ := ih hthere
      rw [Runs.run_cons]
      refine ⟨?_, by rw [hdrop, List.mem_cons, or_iff_right (Ne.symm hop)]⟩
      rw [hmap, hstep, performed, if_neg hop]
      simp

theorem journal_performs (event reason : String) (ops : List Op) :
    (journal event reason ops).history.map Prod.fst = performed ops ∧
      ((journal event reason ops).dropped = true ↔ Op.drop ∈ ops) := run_performs ops rfl

/-- An entry was made by one operation, on a log that what came before it accounts for. -/
theorem journal_entry {ops : List Op} {before rest : List Entry} {op : Op} {out : Option LogLine}
    (h : (journal event reason ops).history = before ++ (op, out) :: rest) :
    ∃ j state, Accounts event reason j ∧ j.history = before ∧ Does j.log op out state := by
  obtain ⟨q, a, -, hbefore, state, hdoes⟩ := Runs.exists_entry Journal.history
    (I := fun _ => True) (fun _ _ _ => trivial) (fun s a _ => step_history s a) trivial rfl h
  exact ⟨journal event reason q, state, run_accounts event reason q, hbefore, hdoes⟩

theorem recorded_le_of_prefix {h h' : List Entry} (hp : h <+: h') : recorded h ≤ recorded h' :=
  hp.sublist.countP_le

theorem emitted_le_of_prefix {h h' : List Entry} (hp : h <+: h') : emitted h ≤ emitted h' := by
  obtain ⟨t, rfl⟩ := hp
  rw [emitted_append]
  exact Nat.le_add_right _ _

/-! ### A failure is in one line -/

/-- A line reports everything recorded since the line before it, and nothing is left. -/
theorem line_accounts {ops : List Op} {before rest : List Entry} {op : Op} {line : LogLine}
    (hfew : recorded (journal event reason ops).history < 2 ^ 64)
    (h : (journal event reason ops).history = before ++ (op, some line) :: rest) :
    0 < line.count ∧ line.event = event ∧ line.reason = reason ∧
      emitted before + line.count = recorded (before ++ [(op, some line)]) := by
  obtain ⟨j, state, hj, hbefore, hdoes⟩ := journal_entry h
  obtain ⟨hpos, hevent, hreason⟩ := hdoes.line
  refine ⟨hpos, hevent.trans hj.event, hreason.trans hj.reason, ?_⟩
  have hle : recorded (before ++ [(op, some line)]) ≤ recorded (journal event reason ops).history :=
    recorded_le_of_prefix ⟨rest, by rw [h]; simp⟩
  have hsum := hj.entry hdoes (by rw [hbefore]; omega)
  -- Nothing waits behind a line.
  rw [hdoes.pending hj.idle (.inr (.inl rfl)), hbefore, emitted_append, emitted_singleton] at hsum
  exact hsum

/-- The line after `before` is the one that counts failure number `i`, from one on. -/
def Reports (history before : List Entry) (line : LogLine) (i : ℕ) : Prop :=
  (∃ op rest, history = before ++ (op, some line) :: rest) ∧
    emitted before < i ∧ i ≤ emitted before + line.count

theorem exists_reports (history : List Entry) {i : ℕ} (hpos : 0 < i) (hi : i ≤ emitted history) :
    ∃ before line, Reports history before line i := by
  induction history using List.reverseRecOn with
  | nil => exact absurd hi (by simp [emitted]; omega)
  | append_singleton history e ih =>
    by_cases hold : i ≤ emitted history
    · obtain ⟨before, line, ⟨op, rest, heq⟩, hline⟩ := ih hold
      exact ⟨before, line, ⟨op, rest ++ [e], by rw [heq]; simp⟩, hline⟩
    · rw [emitted_append, emitted_singleton] at hi
      obtain ⟨op, _ | line⟩ := e
      · exact absurd hi hold
      · exact ⟨history, line, ⟨op, [], rfl⟩, not_le.mp hold, hi⟩

/-- A line counts nothing that a line before it has counted. -/
theorem Reports.length_le {history before before' : List Entry} {line line' : LogLine} {i : ℕ}
    (h : Reports history before line i) (h' : Reports history before' line' i) :
    before'.length ≤ before.length := by
  by_contra hlt
  obtain ⟨⟨op, rest, heq⟩, -, hle⟩ := h
  obtain ⟨⟨op', rest', heq'⟩, hgt, -⟩ := h'
  have hp : before ++ [(op, some line)] <+: before' := by
    have hcat : before ++ [(op, some line)] <+: history := ⟨rest, by rw [heq]; simp⟩
    refine List.prefix_of_prefix_length_le hcat ⟨_, heq'.symm⟩ ?_
    rw [List.length_append]
    exact not_le.mp hlt
  have := emitted_le_of_prefix hp
  rw [emitted_append, emitted_singleton, lineCount, Option.elim] at this
  omega

theorem Reports.unique {history before before' : List Entry} {line line' : LogLine} {i : ℕ}
    (h : Reports history before line i) (h' : Reports history before' line' i) :
    before = before' ∧ line = line' := by
  have hlen : before.length = before'.length :=
    Nat.le_antisymm (h'.length_le h) (h.length_le h')
  obtain ⟨⟨op, rest, heq⟩, -⟩ := h
  obtain ⟨⟨op', rest', heq'⟩, -⟩ := h'
  obtain ⟨hbefore, hrest⟩ := List.append_inj (heq.symm.trans heq') hlen
  exact ⟨hbefore, by simpa using (Prod.mk.inj (List.cons.inj hrest).1).2⟩

/-! ### When a line is logged -/

theorem foldl_after_quiet {mid : List Entry} (hmid : ∀ e ∈ mid, e.1.records = false) :
    mid.foldl after none = none := by
  induction mid with
  | nil => rfl
  | cons e mid ih =>
    rw [List.foldl_cons, after_quiet (hmid e (by simp)), ite_self]
    exact ih fun e' he' => hmid e' (List.mem_cons_of_mem e he')

/-- The first failure of a generation is reported at once. -/
theorem first_reported {ops : List Op} {before mid rest : List Entry} {now : ℕ}
    {out : Option LogLine}
    (h : (journal event reason ops).history = before ++ mid ++ (.record now, out) :: rest)
    (hbefore : before = [] ∨ ∃ h out, before = h ++ [(.reset, out)])
    (hmid : ∀ e ∈ mid, e.1.records = false) :
    out = some { event, reason, count := 1, suppressedCount := 0 } := by
  obtain ⟨j, state, hacc, hj, hdoes⟩ := journal_entry h
  have hstart : lastLine before = none := by
    obtain rfl | ⟨h, out, rfl⟩ := hbefore
    · rfl
    · rw [lastLine_append]
      rfl
  have hnone : j.log.state.lastReport = none := by
    rw [hacc.lastReport, hj, lastLine_append, hstart]
    exact foldl_after_quiet hmid
  cases hdoes with
  | first => rw [emit, hacc.event, hacc.reason]
  | suppressed now last hsome => exact absurd (hsome.symm.trans hnone) (by simp)
  | summary now last hsome => exact absurd (hsome.symm.trans hnone) (by simp)
  | silent op hop => exact absurd hop (by simp [Op.records])
  | flushes op hop => exact absurd hop (by simp [Op.records])

theorem line_after_window {ops : List Op} {before rest : List Entry} {now last : ℕ} {line : LogLine}
    (h : (journal event reason ops).history = before ++ (.record now, some line) :: rest)
    (hlast : lastLine before = some last) : last + window ≤ now := by
  obtain ⟨j, state, hacc, hj, hdoes⟩ := journal_entry h
  have hsome : j.log.state.lastReport = some last := by rw [hacc.lastReport, hj, hlast]
  cases hdoes with
  | first now hnone => exact absurd (hsome.symm.trans hnone) (by simp)
  | summary now last' hsome' hnow =>
    obtain rfl := Option.some_inj.mp (hsome.symm.trans hsome')
    exact hnow
  | flushes op hop => exact absurd hop (by simp [Op.records])

/-- Whatever the clock readings in between, the line that the next one is spaced from
is not before this one. -/
theorem lastLine_kept {ops : List Op} {before mid : List Entry} {now : ℕ} {line : LogLine}
    (hmid : ∀ e ∈ mid, e.1 ≠ .reset) : ∀ {rest : List Entry},
    (journal event reason ops).history = before ++ (.record now, some line) :: mid ++ rest →
      ∃ last, lastLine (before ++ (.record now, some line) :: mid) = some last ∧ now ≤ last := by
  induction mid using List.reverseRecOn with
  | nil =>
    intro rest h
    rw [lastLine_append]
    exact ⟨now, rfl, le_rfl⟩
  | append_singleton mid e ih =>
    intro rest h
    rw [← List.cons_append, ← List.append_assoc, List.append_assoc, List.singleton_append] at h
    obtain ⟨last, hlast, hle⟩ := ih (fun e' he' => hmid e' (List.mem_append_left _ he')) h
    rw [← List.cons_append, ← List.append_assoc, lastLine_append, hlast]
    obtain ⟨op, out⟩ := e
    cases op with
    | record t =>
      cases out with
      | none => exact ⟨last, rfl, hle⟩
      | some line' =>
        -- A record that logs again moves the reference forward by a window.
        have := line_after_window h hlast
        exact ⟨t, rfl, by omega⟩
    | reset => exact absurd rfl (hmid (.reset, out) (by simp))
    | flush | drop => exact ⟨last, rfl, hle⟩

/-- **Every failure is in exactly one line, and lines are spaced.**  The clock readings
are any numbers. -/
theorem lines_account_for_every_event (event reason : String) (ops : List Op)
    (hfew : recorded (journal event reason ops).history < 2 ^ 64) :
    (journal event reason ops).history.map Prod.fst = performed ops ∧
    emitted (journal event reason ops).history + (journal event reason ops).log.state.pending
      = recorded (journal event reason ops).history ∧
    (Op.drop ∈ ops → (journal event reason ops).log.state.pending = 0) ∧
    (∀ i, 0 < i → i ≤ emitted (journal event reason ops).history →
      ∃! l : List Entry × LogLine, Reports (journal event reason ops).history l.1 l.2 i) ∧
    (∀ (before rest : List Entry) (op : Op) (line : LogLine),
      (journal event reason ops).history = before ++ (op, some line) :: rest →
        0 < line.count ∧ line.event = event ∧ line.reason = reason ∧
        emitted before + line.count = recorded (before ++ [(op, some line)])) ∧
    (∀ (before mid rest : List Entry) (now : ℕ) (out : Option LogLine),
      (journal event reason ops).history = before ++ mid ++ (.record now, out) :: rest →
      (before = [] ∨ ∃ h out, before = h ++ [(.reset, out)]) →
      (∀ e ∈ mid, e.1.records = false) →
        out = some { event, reason, count := 1, suppressedCount := 0 }) ∧
    (∀ (before mid rest : List Entry) (now now' : ℕ) (line line' : LogLine),
      (journal event reason ops).history
        = before ++ (.record now, some line) :: mid ++ (.record now', some line') :: rest →
      (∀ e ∈ mid, e.1 ≠ .reset) → now + window ≤ now') := by
  obtain ⟨hmap, hdrop⟩ := journal_performs event reason ops
  have hacc := run_accounts event reason ops
  refine ⟨hmap, hacc.conserved hfew, fun hmem => hacc.dropped (hdrop.mpr hmem), ?_, ?_, ?_, ?_⟩
  · intro i hpos hi
    obtain ⟨before, line, hline⟩ := exists_reports _ hpos hi
    refine ⟨(before, line), hline, fun l hl => ?_⟩
    obtain ⟨hbefore, hsame⟩ := hl.unique hline
    exact Prod.ext hbefore hsame
  · intro before rest op line h
    exact line_accounts hfew h
  · intro before mid rest now out h hbefore hmid
    exact first_reported h hbefore hmid
  · intro before mid rest now now' line line' h hmid
    obtain ⟨last, hlast, hle⟩ := lastLine_kept hmid h
    have := line_after_window h hlast
    omega

/-- A burst, a reading of the clock from before it, a summary, a reset and a drop. -/
theorem lines_account_for_every_event_burst :
    emitted (journal "queue_loss" "full" [.record 10, .record 3, .record (10 + window),
      .record 11, .reset, .record 12, .record 0, .drop]).history = 6 := by
  obtain ⟨-, hsum, hdrop, -⟩ := lines_account_for_every_event "queue_loss" "full"
    [.record 10, .record 3, .record (10 + window), .record 11, .reset, .record 12, .record 0,
      .drop] (by decide)
  rw [hdrop (by decide)] at hsum
  exact hsum.trans (by decide)

end RepeatLog

end Unitree
