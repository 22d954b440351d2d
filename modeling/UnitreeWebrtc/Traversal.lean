/-
The walk of `json_size` in any order (`protocol/events.rs`).

`json_size` pops its work list from the end and takes the entries of an object in the
order of the map.  Here the list is a multiset: a step takes any value that is left,
and any entry.  Each addition and each of the three early exits is a step of its own,
so that what holds of every walk holds between any two additions.

* `SizeWalk.Counts` — what is counted and what is owed make up the sum, at every point;
* `loop_walks` — the code's loop is one of the walks;
* `jsonSize_eq` — `json_size` is the sum over all nodes when that sum is within the
  control budget, and `usize::MAX` otherwise;
* `json_size_exact` — every walk ends, and all end with the capped sum.
-/
import UnitreeWebrtc.Footprint
import UnitreeWebrtc.Runs

namespace Unitree

open Relation

namespace Footprint

/-- What a value is charged apart from the values in it. -/
def own : Footprint → ℕ
  | scalar => 128
  | string capacity => 128 + capacity
  | array capacity _ => 128 + capacity * 32
  | object entries => 128 + (entries.map fun e => e.1 + 128).sum

/-- A value and every value in it. -/
def subvalues : Footprint → List Footprint
  | scalar => [scalar]
  | string capacity => [string capacity]
  | array capacity values => array capacity values :: values.flatMap subvalues
  | object entries => object entries :: entries.flatMap fun e => e.2.subvalues
termination_by f => sizeOf f
decreasing_by
  · have := List.sizeOf_lt_of_mem ‹_›
    simp only [array.sizeOf_spec]
    omega
  · have := List.sizeOf_lt_of_mem ‹_›
    have : sizeOf e.2 < sizeOf e := by
      cases e
      simp
    simp only [object.sizeOf_spec]
    omega

/-- The recursive sum is the sum over all nodes. -/
theorem total_eq_sum (f : Footprint) : f.total = (f.subvalues.map own).sum := by
  fun_induction subvalues f with
  | case1 => rw [total]; rfl
  | case2 capacity => rw [total]; rfl
  | case3 capacity values ih =>
    rw [total_array, List.map_cons, List.sum_cons, own, List.map_flatMap, List.flatMap,
      List.sum_flatten, List.map_map]
    congr 2
    exact List.map_congr_left ih
  | case4 entries ih =>
    rw [total_object, List.map_cons, List.sum_cons, own, List.map_flatMap, List.flatMap,
      List.sum_flatten, List.map_map, List.sum_map_add, Nat.add_assoc]
    congr 3
    exact List.map_congr_left ih

/-- What is left of the sum once the 128 of the value itself is added. -/
def rest : Footprint → ℕ
  | scalar => 0
  | string capacity => capacity
  | array capacity values => capacity * 32 + (values.map total).sum
  | object entries => (entries.map fun e => e.1 + 128 + e.2.total).sum

theorem total_eq_rest (f : Footprint) : f.total = 128 + f.rest := by
  cases f with
  | scalar | string capacity | object entries => rw [total, rest]
  | array capacity values => rw [total, rest, Nat.add_assoc]

end Footprint

/-! ### Walks -/

/-- The places of `return usize::MAX`, with what is in hand there. -/
inductive ExitPlace where
  | array (values : List Footprint)
  | entry (value : Footprint) (left : Multiset (ℕ × Footprint))
  | tail

/-- Where a walk is. -/
inductive SizeStage where
  /-- At `while let Some(value) = pending.pop()`. -/
  | head
  | body (value : Footprint)
  /-- In the loop over an object, with the entries that are left. -/
  | entries (left : Multiset (ℕ × Footprint))
  /-- The key of an entry has been added. -/
  | entry (value : Footprint) (left : Multiset (ℕ × Footprint))
  | tail
  | returned
  | exit (place : ExitPlace)

structure SizeWalk where
  size : ℕ
  pending : Multiset Footprint
  stage : SizeStage

namespace SizeWalk

/-- One addition with its test, or one move.  `pop` takes any value that is left and
`key` any entry. -/
inductive Step : SizeWalk → SizeWalk → Prop where
  | pop (size : ℕ) (value : Footprint) (rest : Multiset Footprint) :
      Step ⟨size, value ::ₘ rest, .head⟩ ⟨saturatingAdd size 128, rest, .body value⟩
  | done (size : ℕ) : Step ⟨size, 0, .head⟩ ⟨size, 0, .returned⟩
  | scalar (size : ℕ) (pending : Multiset Footprint) :
      Step ⟨size, pending, .body .scalar⟩ ⟨size, pending, .tail⟩
  | string (size capacity : ℕ) (pending : Multiset Footprint) :
      Step ⟨size, pending, .body (.string capacity)⟩
        ⟨saturatingAdd size capacity, pending, .tail⟩
  | array (size capacity : ℕ) (values : List Footprint) (pending : Multiset Footprint)
      (h : saturatingAdd size (saturatingMul capacity 32) ≤ controlBytes) :
      Step ⟨size, pending, .body (.array capacity values)⟩
        ⟨saturatingAdd size (saturatingMul capacity 32), values + pending, .tail⟩
  | arrayExit (size capacity : ℕ) (values : List Footprint) (pending : Multiset Footprint)
      (h : controlBytes < saturatingAdd size (saturatingMul capacity 32)) :
      Step ⟨size, pending, .body (.array capacity values)⟩
        ⟨saturatingAdd size (saturatingMul capacity 32), pending, .exit (.array values)⟩
  | object (size : ℕ) (members : List (ℕ × Footprint)) (pending : Multiset Footprint) :
      Step ⟨size, pending, .body (.object members)⟩ ⟨size, pending, .entries members⟩
  | key (size keyCapacity : ℕ) (value : Footprint) (left : Multiset (ℕ × Footprint))
      (pending : Multiset Footprint) :
      Step ⟨size, pending, .entries ((keyCapacity, value) ::ₘ left)⟩
        ⟨saturatingAdd size keyCapacity, pending, .entry value left⟩
  | entry (size : ℕ) (value : Footprint) (left : Multiset (ℕ × Footprint))
      (pending : Multiset Footprint) (h : saturatingAdd size 128 ≤ controlBytes) :
      Step ⟨size, pending, .entry value left⟩
        ⟨saturatingAdd size 128, value ::ₘ pending, .entries left⟩
  | entryExit (size : ℕ) (value : Footprint) (left : Multiset (ℕ × Footprint))
      (pending : Multiset Footprint) (h : controlBytes < saturatingAdd size 128) :
      Step ⟨size, pending, .entry value left⟩
        ⟨saturatingAdd size 128, pending, .exit (.entry value left)⟩
  | entriesEnd (size : ℕ) (pending : Multiset Footprint) :
      Step ⟨size, pending, .entries 0⟩ ⟨size, pending, .tail⟩
  | next (size : ℕ) (pending : Multiset Footprint) (h : size ≤ controlBytes) :
      Step ⟨size, pending, .tail⟩ ⟨size, pending, .head⟩
  | tailExit (size : ℕ) (pending : Multiset Footprint) (h : controlBytes < size) :
      Step ⟨size, pending, .tail⟩ ⟨size, pending, .exit .tail⟩

/-- `json_size` before its first iteration. -/
def start (value : Footprint) : SizeWalk := { size := 0, pending := {value}, stage := .head }

/-- What a walk returned, if it has ended. -/
def result (w : SizeWalk) : Option ℕ :=
  match w.stage with
  | .returned => some w.size
  | .exit _ => some usizeMax
  | _ => none

/-! ### What is counted and what is owed -/

def entriesOwed (left : Multiset (ℕ × Footprint)) : ℕ :=
  (left.map fun e => e.1 + 128 + e.2.total).sum

def stageOwed : SizeStage → ℕ
  | .head => 0
  | .body value => value.rest
  | .entries left => entriesOwed left
  | .entry value left => 128 + value.total + entriesOwed left
  | .tail => 0
  | .returned => 0
  | .exit (.array values) => (values.map Footprint.total).sum
  | .exit (.entry value left) => value.total + entriesOwed left
  | .exit .tail => 0

/-- The part of the sum that the walk has not added. -/
def owed (w : SizeWalk) : ℕ := (w.pending.map Footprint.total).sum + stageOwed w.stage

/-- What the comparison with the budget has established. -/
def Settled (w : SizeWalk) : Prop :=
  match w.stage with
  | .head => w.size ≤ controlBytes
  | .returned => w.size ≤ controlBytes ∧ w.pending = 0
  | .exit _ => controlBytes < w.size
  | _ => True

/-- The size is the part of the sum that is not owed, saturated once. -/
structure Counts (total : ℕ) (w : SizeWalk) : Prop where
  owed : w.owed ≤ total
  size : w.size = min (total - w.owed) usizeMax
  settled : w.Settled

theorem entriesOwed_cons (e : ℕ × Footprint) (left : Multiset (ℕ × Footprint)) :
    entriesOwed (e ::ₘ left) = e.1 + 128 + e.2.total + entriesOwed left := by
  simp [entriesOwed]

theorem entriesOwed_coe (members : List (ℕ × Footprint)) :
    entriesOwed members = (Footprint.object members).rest := by
  simp [entriesOwed, Footprint.rest]

theorem saturatingAdd_zero {size : ℕ} (h : size ≤ usizeMax) : saturatingAdd size 0 = size := by
  rw [saturatingAdd, Nat.add_zero, min_eq_left h]

theorem saturatingAdd_mul (size a b : ℕ) :
    saturatingAdd size (saturatingMul a b) = saturatingAdd size (a * b) := by
  simp only [saturatingAdd, saturatingMul]
  omega

/-- One step moves what it adds from what is owed to the size. -/
theorem Step.adds {w w' : SizeWalk} (h : Step w w') (hsize : w.size ≤ usizeMax) :
    ∃ added, w.owed = added + w'.owed ∧ w'.size = saturatingAdd w.size added := by
  cases h with
  | pop size value rest =>
    refine ⟨128, ?_, rfl⟩
    have := value.total_eq_rest
    simp only [SizeWalk.owed, stageOwed, Multiset.map_cons, Multiset.sum_cons]
    omega
  | done | scalar | entriesEnd | next | tailExit =>
    refine ⟨0, ?_, (saturatingAdd_zero hsize).symm⟩
    simp [SizeWalk.owed, stageOwed, Footprint.rest, entriesOwed]
  | string size capacity pending =>
    refine ⟨capacity, ?_, rfl⟩
    simp only [SizeWalk.owed, stageOwed, Footprint.rest]
    omega
  | array size capacity values pending h =>
    refine ⟨capacity * 32, ?_, saturatingAdd_mul ..⟩
    simp only [SizeWalk.owed, stageOwed, Footprint.rest, Multiset.map_add, Multiset.map_coe,
      Multiset.sum_add, Multiset.sum_coe]
    omega
  | arrayExit size capacity values pending h =>
    refine ⟨capacity * 32, ?_, saturatingAdd_mul ..⟩
    simp only [SizeWalk.owed, stageOwed, Footprint.rest]
    omega
  | object size members pending =>
    refine ⟨0, ?_, (saturatingAdd_zero hsize).symm⟩
    simp only [SizeWalk.owed, stageOwed, entriesOwed_coe, Nat.zero_add]
  | key size keyCapacity value left pending =>
    refine ⟨keyCapacity, ?_, rfl⟩
    simp only [SizeWalk.owed, stageOwed, entriesOwed_cons]
    omega
  | entry size value left pending h =>
    refine ⟨128, ?_, rfl⟩
    simp only [SizeWalk.owed, stageOwed, Multiset.map_cons, Multiset.sum_cons]
    omega
  | entryExit size value left pending h =>
    refine ⟨128, ?_, rfl⟩
    simp only [SizeWalk.owed, stageOwed]
    omega

theorem Step.settled {w w' : SizeWalk} (h : Step w w') (hw : w.Settled) : w'.Settled := by
  cases h with
  | done size => exact ⟨hw, rfl⟩
  | next size pending h | arrayExit size capacity values pending h
  | entryExit size value left pending h | tailExit size pending h => exact h
  | pop | scalar | string | array | object | key | entry | entriesEnd => trivial

/-- Saturated additions in a row saturate once. -/
theorem saturatingAdd_min (counted added : ℕ) :
    saturatingAdd (min counted usizeMax) added = min (counted + added) usizeMax := by
  simp only [saturatingAdd]
  omega

theorem Counts.size_le_max {total : ℕ} {w : SizeWalk} (hw : Counts total w) :
    w.size ≤ usizeMax := by
  rw [hw.size]
  exact min_le_right _ _

theorem Step.counts {total : ℕ} {w w' : SizeWalk} (h : Step w w') (hw : Counts total w) :
    Counts total w' := by
  obtain ⟨added, howed, hsize⟩ := h.adds hw.size_le_max
  have hle := hw.owed
  refine ⟨by omega, ?_, h.settled hw.settled⟩
  rw [hsize, hw.size, saturatingAdd_min]
  congr 1
  omega

theorem start_counts (value : Footprint) : Counts value.total (start value) where
  owed := by simp [start, owed, stageOwed]
  size := by simp [start, owed, stageOwed]
  settled := Nat.zero_le _

/-- **Every walk counts**, whatever it takes next. -/
theorem reachable_counts {value : Footprint} {w : SizeWalk}
    (h : ReflTransGen Step (start value) w) : Counts value.total w := by
  induction h with
  | refl => exact start_counts value
  | tail _ hstep ih => exact hstep.counts ih

/-! ### What a walk returns -/

theorem Counts.result {total size : ℕ} {w : SizeWalk} (hw : Counts total w)
    (h : w.result = some size) : size = capped total := by
  obtain ⟨size', pending, stage⟩ := w
  have hle := hw.owed
  have hsize := hw.size
  have hsettled := hw.settled
  rw [capped]
  cases stage with
  | returned =>
    -- Nothing is owed, and a size within the budget has not been saturated.
    obtain ⟨hfits, hpending⟩ := hsettled
    have hnone : SizeWalk.owed ⟨size', pending, .returned⟩ = 0 := by
      simp only [SizeWalk.owed, stageOwed] at hpending ⊢
      simp [hpending]
    obtain rfl : size' = size := Option.some_inj.mp h
    rw [hnone, Nat.sub_zero] at hsize
    dsimp only at hsize hfits
    rw [if_pos (by simp only [usizeMax, controlBytes] at hsize hfits ⊢; omega)]
    simp only [usizeMax, controlBytes] at hsize hfits
    omega
  | exit place =>
    -- A part of the sum is over the budget already.
    have hover : controlBytes < size' := hsettled
    dsimp only at hsize
    rw [if_neg (by omega)]
    exact (Option.some_inj.mp h).symm
  | head | body | entries | entry | tail => exact absurd h (by simp [SizeWalk.result])

/-- A walk that has not returned can go on. -/
theorem exists_step (w : SizeWalk) (h : w.result = none) : ∃ w', Step w w' := by
  obtain ⟨size, pending, stage⟩ := w
  cases stage with
  | head =>
    obtain rfl | ⟨value, hmem⟩ := pending.empty_or_exists_mem
    · exact ⟨_, .done size⟩
    · obtain ⟨rest, rfl⟩ := Multiset.exists_cons_of_mem hmem
      exact ⟨_, .pop size value rest⟩
  | body value =>
    cases value with
    | scalar => exact ⟨_, .scalar size pending⟩
    | string capacity => exact ⟨_, .string size capacity pending⟩
    | array capacity values =>
      obtain hle | hlt := le_or_gt (saturatingAdd size (saturatingMul capacity 32)) controlBytes
      · exact ⟨_, .array size capacity values pending hle⟩
      · exact ⟨_, .arrayExit size capacity values pending hlt⟩
    | object members => exact ⟨_, .object size members pending⟩
  | entries left =>
    obtain rfl | ⟨⟨keyCapacity, value⟩, hmem⟩ := left.empty_or_exists_mem
    · exact ⟨_, .entriesEnd size pending⟩
    · obtain ⟨left, rfl⟩ := Multiset.exists_cons_of_mem hmem
      exact ⟨_, .key size keyCapacity value left pending⟩
  | entry value left =>
    obtain hle | hlt := le_or_gt (saturatingAdd size 128) controlBytes
    · exact ⟨_, .entry size value left pending hle⟩
    · exact ⟨_, .entryExit size value left pending hlt⟩
  | tail =>
    obtain hle | hlt := le_or_gt size controlBytes
    · exact ⟨_, .next size pending hle⟩
    · exact ⟨_, .tailExit size pending hlt⟩
  | returned | exit => exact absurd h (by simp [result])

/-- No addition wraps. -/
theorem Counts.size_le {total : ℕ} {w w' : SizeWalk} (hw : Counts total w) (h : Step w w') :
    w.size ≤ w'.size := by
  obtain ⟨added, -, hsize⟩ := h.adds hw.size_le_max
  rw [hsize, saturatingAdd]
  exact le_min (Nat.le_add_right _ _) hw.size_le_max

/-- Within the budget nothing saturates and no exit is taken. -/
theorem Counts.fits {total : ℕ} {w : SizeWalk} (hw : Counts total w) (h : total ≤ controlBytes) :
    w.size + w.owed = total ∧ ∀ place, w.stage ≠ .exit place := by
  have hle := hw.owed
  have hsize := hw.size
  have hsum : w.size + w.owed = total := by
    simp only [usizeMax, controlBytes] at hsize h
    omega
  refine ⟨hsum, fun place hplace => ?_⟩
  have hover := hw.settled
  rw [Settled, hplace] at hover
  dsimp only at hover
  omega

/-! ### Every walk ends -/

/-- The steps that a pending value can still take, with those of the values in it. -/
def valueWork (value : Footprint) : ℕ := 6 * value.nodes - 2

def entriesWork (left : Multiset (ℕ × Footprint)) : ℕ := (left.map fun e => 6 * e.2.nodes).sum

def stageWork : SizeStage → ℕ
  | .head => 1
  | .body value => valueWork value
  | .entries left => 3 + entriesWork left
  | .entry value left => 2 + 6 * value.nodes + entriesWork left
  | .tail => 2
  | .returned => 0
  | .exit _ => 0

def work (w : SizeWalk) : ℕ := (w.pending.map valueWork).sum + stageWork w.stage

theorem entriesWork_cons (e : ℕ × Footprint) (left : Multiset (ℕ × Footprint)) :
    entriesWork (e ::ₘ left) = 6 * e.2.nodes + entriesWork left := by
  simp [entriesWork]

theorem entriesWork_coe (members : List (ℕ × Footprint)) :
    entriesWork members + 6 = 6 * (Footprint.object members).nodes := by
  rw [entriesWork, Multiset.map_coe, Multiset.sum_coe, List.sum_map_mul_left,
    Footprint.nodes_object]
  omega

theorem sum_valueWork_le (capacity : ℕ) (values : List Footprint) :
    (values.map valueWork).sum + 6 ≤ 6 * (Footprint.array capacity values).nodes := by
  have hle : (values.map valueWork).sum ≤ (values.map fun v => 6 * v.nodes).sum :=
    List.sum_le_sum fun v _ => Nat.sub_le _ _
  rw [List.sum_map_mul_left] at hle
  rw [Footprint.nodes_array]
  omega

/-- Every step leaves less to do. -/
theorem Step.work_lt {w w' : SizeWalk} (h : Step w w') : w'.work < w.work := by
  cases h with
  | pop size value rest =>
    simp only [work, stageWork, Multiset.map_cons, Multiset.sum_cons]
    omega
  | done | next | tailExit | entriesEnd =>
    simp [work, stageWork, entriesWork]
  | scalar | string =>
    simp only [work, stageWork, valueWork, Footprint.nodes]
    omega
  | array size capacity values pending h =>
    -- The values in it have less to do than it had, by more than the way back to the head.
    have := sum_valueWork_le capacity values
    simp only [work, stageWork, Multiset.map_add, Multiset.map_coe, Multiset.sum_add,
      Multiset.sum_coe]
    rw [valueWork]
    omega
  | arrayExit size capacity values pending h =>
    have := (Footprint.array capacity values).nodes_pos
    simp only [work, stageWork, valueWork]
    omega
  | object size members pending =>
    have := entriesWork_coe members
    simp only [work, stageWork, valueWork]
    omega
  | key size keyCapacity value left pending =>
    simp only [work, stageWork, entriesWork_cons]
    omega
  | entry size value left pending h =>
    have := value.nodes_pos
    simp only [work, stageWork, valueWork, Multiset.map_cons, Multiset.sum_cons]
    omega
  | entryExit size value left pending h =>
    simp only [work, stageWork]
    omega

theorem start_work (value : Footprint) : (start value).work ≤ 6 * value.nodes := by
  have := value.nodes_pos
  rw [start, work, Multiset.map_singleton, Multiset.sum_singleton]
  simp only [stageWork, valueWork]
  omega

/-! ### The code's own order -/

/-- The walk reaches a state with this result. -/
def Returns (w : SizeWalk) (size : ℕ) : Prop :=
  ∃ w', ReflTransGen Step w w' ∧ w'.result = some size

theorem Step.returns {w w' : SizeWalk} {size : ℕ} (h : Step w w') (hw : w'.Returns size) :
    w.Returns size := by
  obtain ⟨u, hreach, hresult⟩ := hw
  exact ⟨u, .head h hreach, hresult⟩

theorem returns_self {w : SizeWalk} {size : ℕ} (h : w.result = some size) : w.Returns size :=
  ⟨w, .refl, h⟩

/-- The entries in the order of the map. -/
theorem objectSize_walks (members : List (ℕ × Footprint)) :
    ∀ {size : ℕ} {pending : Multiset Footprint},
      (objectSize members size = none →
        Returns ⟨size, pending, .entries members⟩ usizeMax) ∧
      ∀ {size' n : ℕ}, objectSize members size = some size' →
        Returns ⟨size', entryValues members + pending, .tail⟩ n →
        Returns ⟨size, pending, .entries members⟩ n := by
  induction members with
  | nil =>
    intro size pending
    refine ⟨fun h => absurd h (by simp [objectSize]), fun h hw => ?_⟩
    obtain rfl := Option.some_inj.mp h
    rw [entryValues, List.map_nil, Multiset.coe_nil, Multiset.zero_add] at hw
    exact (Step.entriesEnd size pending).returns hw
  | cons e members ih =>
    intro size pending
    obtain ⟨keyCapacity, value⟩ := e
    have hkey := Step.key size keyCapacity value members pending
    rw [Multiset.cons_coe] at hkey
    rw [objectSize]
    split
    next hover =>
      refine ⟨fun _ => ?_, fun h => absurd h (by simp)⟩
      exact hkey.returns ((Step.entryExit _ value members pending hover).returns (returns_self rfl))
    next hfits =>
      have hentry := Step.entry _ value members pending (not_lt.mp hfits)
      refine ⟨fun h => hkey.returns (hentry.returns (ih.1 h)), fun h hw => ?_⟩
      refine hkey.returns (hentry.returns (ih.2 h ?_))
      -- The code pushes a value at once, the list of all of them is pushed at the end.
      rw [Multiset.add_cons, ← Multiset.cons_add, Multiset.cons_coe]
      exact hw

end SizeWalk

open SizeWalk

theorem coe_extend (pending values : List Footprint) :
    (extend pending values : Multiset Footprint) = values + pending := by
  rw [extend, ← Multiset.coe_add, Multiset.coe_reverse]

/-- From any work list, the code takes one of the walks. -/
theorem loop_walks (stack : List Footprint) (size : ℕ) :
    Returns ⟨size, stack, .head⟩ (jsonSizeLoop stack size) := by
  fun_induction jsonSizeLoop stack size with
  | case1 size => exact (Step.done size).returns (returns_self rfl)
  | case2 rest size size' hover =>
    exact (Step.pop size .scalar rest).returns <| (Step.scalar _ _).returns <|
      (Step.tailExit _ _ hover).returns (returns_self rfl)
  | case3 rest size size' hfits ih =>
    exact (Step.pop size .scalar rest).returns <| (Step.scalar _ _).returns <|
      (Step.next _ _ (not_lt.mp hfits)).returns ih
  | case4 capacity rest size size' hover =>
    exact (Step.pop size (.string capacity) rest).returns <| (Step.string _ _ _).returns <|
      (Step.tailExit _ _ hover).returns (returns_self rfl)
  | case5 capacity rest size size' hfits ih =>
    exact (Step.pop size (.string capacity) rest).returns <| (Step.string _ _ _).returns <|
      (Step.next _ _ (not_lt.mp hfits)).returns ih
  | case6 capacity values rest size size' hover =>
    exact (Step.pop size (.array capacity values) rest).returns <|
      (Step.arrayExit _ _ _ _ hover).returns (returns_self rfl)
  | case7 capacity values rest size size' hfits ih =>
    rw [coe_extend] at ih
    exact (Step.pop size (.array capacity values) rest).returns <|
      (Step.array _ _ _ _ (not_lt.mp hfits)).returns <|
      (Step.next _ _ (not_lt.mp hfits)).returns ih
  | case8 members rest size hnone =>
    exact (Step.pop size (.object members) rest).returns <| (Step.object _ _ _).returns <|
      (objectSize_walks members).1 hnone
  | case9 members rest size size' hsome hover =>
    exact (Step.pop size (.object members) rest).returns <| (Step.object _ _ _).returns <|
      (objectSize_walks members).2 hsome ((Step.tailExit _ _ hover).returns (returns_self rfl))
  | case10 members rest size size' hsome hfits ih =>
    rw [coe_extend] at ih
    exact (Step.pop size (.object members) rest).returns <| (Step.object _ _ _).returns <|
      (objectSize_walks members).2 hsome ((Step.next _ _ (not_lt.mp hfits)).returns ih)

/-- **`json_size` is a capped sum.** -/
theorem jsonSize_eq (value : Footprint) : jsonSize value = capped value.total := by
  obtain ⟨w, hreach, hresult⟩ := loop_walks [value] 0
  exact (reachable_counts hreach).result hresult

/-- **`json_size` is an exact capped sum, in whatever order it takes the values.** -/
theorem json_size_exact (value : Footprint) :
    value.total = (value.subvalues.map Footprint.own).sum ∧
    jsonSize value = (if value.total ≤ controlBytes then value.total else usizeMax) ∧
    (start value).Returns (jsonSize value) ∧
    (∀ ws : List SizeWalk, List.IsChain Step (start value :: ws) → ws.length ≤ 6 * value.nodes) ∧
    ∀ w, ReflTransGen Step (start value) w →
      (∀ size, w.result = some size → size = jsonSize value) ∧
      (w.result = none → ∃ w', Step w w') ∧
      (w.owed ≤ value.total ∧ w.size = min (value.total - w.owed) usizeMax) ∧
      (∀ w', Step w w' → w.size ≤ w'.size) ∧
      (value.total ≤ controlBytes →
        w.size + w.owed = value.total ∧ ∀ place, w.stage ≠ .exit place) := by
  refine ⟨value.total_eq_sum, jsonSize_eq value, loop_walks [value] 0, fun ws h => ?_,
    fun w h => ?_⟩
  · exact (Runs.chain_length_le (r := Step) Step.work_lt h).trans (start_work value)
  · have hw := reachable_counts h
    refine ⟨fun size hsize => ?_, exists_step w, ⟨hw.owed, hw.size⟩, fun w' hstep => ?_,
      fun hfits => ?_⟩
    · rw [jsonSize_eq]
      exact hw.result hsize
    · exact hw.size_le hstep
    · exact hw.fits hfits

end Unitree
