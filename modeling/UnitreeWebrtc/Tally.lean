/-
A family of repeat logs that one thread keeps.

A worker of the pipeline has one `RepeatLog` for each class of failure it can meet,
and starts all of them anew when the session generation changes.  `label` is that
generation; a line keeps the label it was logged under and what the caller's closure logs
in place of it, and `recorded` is the history of failures that the statements are about.

* `Tally.Balanced` — for each class and each generation, the lines and the counter say
  every failure;
* `Tally.balanced_record`, `Tally.balanced_reset`, `Tally.balanced_drop` — kept by all
  that is done to the family;
* `Tally.drop_waiting` — once the family is dropped, the lines alone say it.
-/
import UnitreeWebrtc.Diagnostics

namespace Unitree

/-- A line of one log of the family. -/
structure TallyLine (ι δ : Type) where
  log : ι
  label : ℕ
  line : LogLine
  /-- What the closure of `record_with` logs with the counts of `line`, in place of the event
  and the reason that the log has. -/
  detail : Option δ

structure Tally (ι δ : Type) where
  logs : ι → RepeatLog
  label : ℕ
  lines : List (TallyLine ι δ)
  /-- Every failure, with the label it was recorded under. -/
  recorded : List (ι × ℕ)

namespace Tally

variable {ι δ : Type} [DecidableEq ι]

/-- `name` gives the event and the reason of each log. -/
def new (name : ι → String × String) : Tally ι δ :=
  { logs := fun i => RepeatLog.new (name i).1 (name i).2, label := 0, lines := [],
    recorded := [] }

/-- One operation on one log. -/
def apply (t : Tally ι δ) (i : ι) (op : RepeatLog.Op) (detail : Option δ) : Tally ι δ :=
  let (line, log) := (t.logs i).apply op
  { t with
    logs := Function.update t.logs i log
    lines := t.lines ++ line.toList.map fun line => { log := i, label := t.label, line, detail }
    recorded := t.recorded ++ if op.records then [(i, t.label)] else [] }

/-- `record` and `record_with` of the log of this class. -/
def record (t : Tally ι δ) (i : ι) (now : ℕ) (detail : Option δ) : Tally ι δ :=
  t.apply i (.record now) detail

/-- The logs of the family start anew, one after the other, for a new generation. -/
def reset (order : List ι) (t : Tally ι δ) (label : ℕ) : Tally ι δ :=
  { order.foldl (fun t i => t.apply i .reset none) t with label }

/-- The family is dropped with its owner. -/
def drop (order : List ι) (t : Tally ι δ) : Tally ι δ :=
  order.foldl (fun t i => t.apply i .drop none) t

/-- The failures of a class under a label. -/
def failures (t : Tally ι δ) (i : ι) (label : ℕ) : ℕ := t.recorded.count (i, label)

/-- The failures that the lines of a class under a label count. -/
def counted (t : Tally ι δ) (i : ι) (label : ℕ) : ℕ :=
  ((t.lines.filter fun l => l.log = i ∧ l.label = label).map fun l => l.line.count).sum

/-- What a log has yet to say of the failures under a label. -/
def waiting (t : Tally ι δ) (i : ι) (label : ℕ) : ℕ :=
  if t.label = label then (t.logs i).state.pending else 0

/-- The lines and the counters say every failure, under its own label.  A counter is
of 64 bits. -/
structure Balanced (t : Tally ι δ) : Prop where
  conserved : ∀ i label, t.recorded.length < 2 ^ 64 →
    t.counted i label + t.waiting i label = t.failures i label
  idle : ∀ i, (t.logs i).state.lastReport = none → (t.logs i).state.pending = 0

theorem balanced_new (name : ι → String × String) : (new name : Tally ι δ).Balanced := by
  refine ⟨fun i label _ => ?_, fun _ _ => rfl⟩
  have hwait : (new name : Tally ι δ).waiting i label = 0 := by
    rw [waiting]
    split <;> rfl
  rw [hwait]
  rfl

variable {t : Tally ι δ} {i : ι} {op : RepeatLog.Op} {detail : Option δ}

/-- The entries of a history that fail as `i` under `label`. -/
theorem count_recorded {α : Type} (failure : α → Option ι) (labelOf : α → ℕ) (history : List α)
    (i : ι) (label : ℕ) :
    (history.filterMap fun x => (failure x).map fun j => (j, labelOf x)).count (i, label) =
      history.countP fun x => failure x = some i ∧ labelOf x = label := by
  induction history with
  | nil => rfl
  | cons x rest ih =>
    rw [List.filterMap_cons, List.countP_cons, ← ih]
    rcases hx : failure x with _ | j
    · simp
    · by_cases hsame : j = i ∧ labelOf x = label
      · obtain ⟨rfl, rfl⟩ := hsame
        simp
      · have hne : (j, labelOf x) ≠ (i, label) := fun he =>
          hsame ⟨(Prod.mk.inj he).1, (Prod.mk.inj he).2⟩
        simp [hne, hsame]

/-- The failures of a history, by the logs that recorded it. -/
theorem Balanced.counts (h : t.Balanced) {α : Type} {failure : α → Option ι} {labelOf : α → ℕ}
    {history : List α}
    (hrecorded : t.recorded =
      history.filterMap fun x => (failure x).map fun j => (j, labelOf x))
    (hfew : history.length < 2 ^ 64) (i : ι) (label : ℕ) :
    t.counted i label + t.waiting i label =
      history.countP fun x => failure x = some i ∧ labelOf x = label := by
  have hlen : t.recorded.length ≤ history.length := by
    rw [hrecorded]
    exact List.length_filterMap_le _ _
  rw [h.conserved i label (by omega), failures, hrecorded, count_recorded]

/-! ### One operation -/

@[simp] theorem apply_label : (t.apply i op detail).label = t.label := rfl

@[simp] theorem apply_recorded :
    (t.apply i op detail).recorded = t.recorded ++ if op.records then [(i, t.label)] else [] := rfl

theorem apply_lines : (t.apply i op detail).lines = t.lines ++
    ((t.logs i).apply op).1.toList.map fun line => ⟨i, t.label, line, detail⟩ := rfl

theorem apply_log : (t.apply i op detail).logs i = ((t.logs i).apply op).2 :=
  Function.update_self ..

theorem apply_log_ne {j : ι} (h : j ≠ i) : (t.apply i op detail).logs j = t.logs j :=
  Function.update_of_ne h ..

theorem failures_apply (j : ι) (label : ℕ) :
    (t.apply i op detail).failures j label =
      t.failures j label + if op.records ∧ j = i ∧ label = t.label then 1 else 0 := by
  rw [failures, failures, apply_recorded, List.count_append]
  cases op.records with
  | false => simp
  | true =>
    by_cases h : j = i ∧ label = t.label
    · obtain ⟨rfl, rfl⟩ := h
      simp
    · have hne : (i, t.label) ≠ (j, label) := fun he => h ⟨(Prod.mk.inj he).1.symm,
        (Prod.mk.inj he).2.symm⟩
      simp [hne, h]

theorem counted_apply (j : ι) (label : ℕ) :
    (t.apply i op detail).counted j label =
      t.counted j label + if j = i ∧ label = t.label then
        RepeatLog.lineCount ((t.logs i).apply op).1 else 0 := by
  rw [counted, counted, apply_lines, List.filter_append, List.map_append, List.sum_append]
  congr 1
  rcases ((t.logs i).apply op).1 with _ | line
  · simp [RepeatLog.lineCount]
  · by_cases h : j = i ∧ label = t.label
    · obtain ⟨rfl, rfl⟩ := h
      simp [RepeatLog.lineCount]
    · have hne : ¬ (i = j ∧ t.label = label) := fun he => h ⟨he.1.symm, he.2.symm⟩
      simp [hne, h]

theorem balanced_apply (h : t.Balanced) (i : ι) (op : RepeatLog.Op) (detail : Option δ) :
    (t.apply i op detail).Balanced := by
  have hdoes := (t.logs i).apply_does op
  refine ⟨fun j label hfew => ?_, fun j hnone => ?_⟩
  · have hlen : t.recorded.length + (if op.records then 1 else 0) < 2 ^ 64 := by
      rw [apply_recorded, List.length_append] at hfew
      split at hfew <;> simp_all
    have hold := h.conserved j label (by omega)
    rw [counted_apply, failures_apply]
    by_cases hj : j = i ∧ label = t.label
    · obtain ⟨rfl, rfl⟩ := hj
      -- The log at hand: what was pending, and the failure itself.
      have hpending : (t.logs j).state.pending ≤ t.recorded.length := by
        have hcount : t.failures j t.label ≤ t.recorded.length := List.count_le_length
        rw [waiting, if_pos rfl] at hold
        omega
      have hnew := hdoes.conserves (h.idle j) (by omega)
      rw [waiting, if_pos rfl] at hold
      rw [waiting, apply_label, if_pos rfl, if_pos ⟨rfl, rfl⟩, apply_log]
      simp only [and_self, and_true]
      omega
    · have hwait : (t.apply i op detail).waiting j label = t.waiting j label := by
        rw [waiting, waiting, apply_label]
        split
        next hlabel => rw [apply_log_ne fun hji => hj ⟨hji, hlabel.symm⟩]
        next => rfl
      rw [if_neg hj, if_neg fun hall => hj hall.2, hwait]
      exact hold
  · by_cases hj : j = i
    · subst hj
      rw [apply_log] at hnone ⊢
      exact hdoes.pending (h.idle j) (.inr (.inr hnone))
    · rw [apply_log_ne hj] at hnone ⊢
      exact h.idle j hnone

/-- After an operation that empties a log, nothing waits in it. -/
theorem pending_apply (h : t.Balanced) (hop : op = .reset ∨ op = .drop) :
    ((t.apply i op detail).logs i).state.pending = 0 := by
  have hdoes := (t.logs i).apply_does op
  rw [apply_log]
  rcases hop with rfl | rfl
  · refine hdoes.pending (h.idle i) (.inr (.inr ?_))
    rw [hdoes.lastReport]
    rfl
  · exact hdoes.pending (h.idle i) (.inl rfl)

theorem pending_apply_of_zero (h : t.Balanced) (hop : op = .reset ∨ op = .drop) {j : ι}
    (hzero : (t.logs j).state.pending = 0) :
    ((t.apply i op detail).logs j).state.pending = 0 := by
  by_cases hj : j = i
  · subst hj
    exact pending_apply h hop
  · rw [apply_log_ne hj]
    exact hzero

/-- A line of an operation is its log's. -/
theorem mem_lines_apply {l : TallyLine ι δ} (h : l ∈ (t.apply i op detail).lines) :
    l ∈ t.lines ∨ l.log = i ∧ l.label = t.label ∧ l.detail = detail := by
  rw [apply_lines] at h
  rcases List.mem_append.mp h with h | h
  · exact .inl h
  · obtain ⟨line, -, rfl⟩ := List.mem_map.mp h
    exact .inr ⟨rfl, rfl, rfl⟩

/-! ### All logs of the family -/

theorem balanced_record (h : t.Balanced) (i : ι) (now : ℕ) (detail : Option δ) :
    (t.record i now detail).Balanced := balanced_apply h i _ detail

/-- Emptying the logs one after the other. -/
theorem foldl_empties (hop : op = .reset ∨ op = .drop) (order : List ι) :
    ∀ {t : Tally ι δ}, t.Balanced →
      (order.foldl (fun t i => t.apply i op none) t).Balanced ∧
      (order.foldl (fun t i => t.apply i op none) t).recorded = t.recorded ∧
      ∀ j, (j ∈ order ∨ (t.logs j).state.pending = 0) →
        ((order.foldl (fun t i => t.apply i op none) t).logs j).state.pending = 0 := by
  induction order with
  | nil => intro t h; exact ⟨h, rfl, fun j hj => by simpa using hj⟩
  | cons i rest ih =>
    intro t h
    obtain ⟨hbalanced, hrecorded, hzero⟩ := ih (balanced_apply h i op none)
    refine ⟨hbalanced, hrecorded.trans ?_, fun j hj => hzero j ?_⟩
    · rcases hop with rfl | rfl <;> simp [RepeatLog.Op.records]
    · by_cases hji : j = i
      · subst hji
        exact .inr (pending_apply h hop)
      · rcases hj with hj | hj
        · exact .inl ((List.mem_cons.mp hj).resolve_left hji)
        · exact .inr (pending_apply_of_zero h hop hj)

theorem foldl_label (op : RepeatLog.Op) (order : List ι) : ∀ {t : Tally ι δ},
    (order.foldl (fun t i => t.apply i op none) t).label = t.label := by
  induction order with
  | nil => intro t; rfl
  | cons i rest ih => intro t; exact ih

/-- No closure adds to the lines of an emptied log. -/
theorem mem_lines_foldl (op : RepeatLog.Op) (order : List ι) : ∀ {t : Tally ι δ}
    {l : TallyLine ι δ}, l ∈ (order.foldl (fun t i => t.apply i op none) t).lines →
      l ∈ t.lines ∨ l.detail = none := by
  induction order with
  | nil => intro t l h; exact .inl h
  | cons i rest ih =>
    intro t l h
    rcases ih h with h | h
    · exact (mem_lines_apply h).imp id fun hl => hl.2.2
    · exact .inr h

variable {order : List ι}

/-- A new generation finds every counter at zero. -/
theorem balanced_reset (h : t.Balanced) (horder : ∀ i, i ∈ order) (label : ℕ) :
    (t.reset order label).Balanced := by
  obtain ⟨hbalanced, -, hzero⟩ := foldl_empties (.inl (Eq.refl RepeatLog.Op.reset)) order h
  refine ⟨fun j l hfew => ?_, hbalanced.idle⟩
  have hall : ∀ l', (order.foldl (fun t i => t.apply i .reset none) t).waiting j l' = 0 := by
    intro l'
    rw [waiting, hzero j (.inl (horder j)), ite_self]
  have hwait : (t.reset order label).waiting j l = 0 := by
    rw [waiting]
    split
    · exact hzero j (.inl (horder j))
    · rfl
  rw [hwait, ← hall l]
  exact hbalanced.conserved j l hfew

@[simp] theorem reset_recorded (h : t.Balanced) (label : ℕ) :
    (t.reset order label).recorded = t.recorded := (foldl_empties (.inl rfl) order h).2.1

theorem balanced_drop (h : t.Balanced) : (t.drop order).Balanced :=
  (foldl_empties (.inr rfl) order h).1

@[simp] theorem drop_recorded (h : t.Balanced) : (t.drop order).recorded = t.recorded :=
  (foldl_empties (.inr rfl) order h).2.1

@[simp] theorem drop_label : (t.drop order).label = t.label :=
  foldl_label .drop order

/-- Once the family is dropped, its lines say everything. -/
theorem drop_waiting (h : t.Balanced) (horder : ∀ i, i ∈ order) (i : ι) (label : ℕ) :
    (t.drop order).waiting i label = 0 := by
  rw [waiting]
  split
  · exact (foldl_empties (.inr rfl) order h).2.2 i (.inl (horder i))
  · rfl

end Tally

end Unitree
