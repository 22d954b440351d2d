/-
Accounted sizes of callback events (`protocol/events.rs`, `json_size` and
`event_size`).

The budget charges buffers by capacity, which a `Value` does not say.  A
`Footprint` is what `json_size` reads of a value: its shape and the capacity of
each of its buffers.  The size is computed as the source does, with a work
list, saturating additions and early exits.  `Traversal` proves it a plain
capped sum.
-/
import UnitreeWebrtc.Ingress

namespace Unitree

def mediaBytes : ℕ := 32 * 1024 * 1024
def controlBytes : ℕ := 2 * 1024 * 1024

/-! ### `usize` arithmetic that saturates -/

def usizeMax : ℕ := 2 ^ 64 - 1

def saturatingAdd (a b : ℕ) : ℕ := min (a + b) usizeMax

def saturatingMul (a b : ℕ) : ℕ := min (a * b) usizeMax

/-! ### Footprints -/

/-- The shape of a value with the capacities of its buffers: a string's, an
array's slots, and each key's. -/
inductive Footprint where
  | scalar
  | string (capacity : ℕ)
  | array (capacity : ℕ) (values : List Footprint)
  | object (entries : List (ℕ × Footprint))

namespace Footprint

/-- The sum `json_size` caps: 128 for every node, string capacities, 32 bytes
for every array slot, and for every entry its key's capacity and 128 more. -/
def total : Footprint → ℕ
  | scalar => 128
  | string capacity => 128 + capacity
  | array capacity values => 128 + capacity * 32 + (values.map total).sum
  | object entries => 128 + (entries.map fun e => e.1 + 128 + e.2.total).sum
termination_by f => sizeOf f
decreasing_by
  · have := List.sizeOf_lt_of_mem ‹_›
    simp only [array.sizeOf_spec]
    omega
  · have := List.sizeOf_lt_of_mem ‹_›
    have : sizeOf e.2 < sizeOf e := by
      cases e
      simp
    simp only [object.sizeOf_spec]
    omega

mutual

/-- The footprint of a value whose buffers have no spare capacity. -/
def ofValue : Value → Footprint
  | .string text => string text.utf8ByteSize
  | .array values => array values.length (ofValues values)
  | .object entries => object (ofEntries entries)
  | _ => scalar

def ofValues : List Value → List Footprint
  | [] => []
  | v :: rest => ofValue v :: ofValues rest

def ofEntries : List (String × Value) → List (ℕ × Footprint)
  | [] => []
  | (key, v) :: rest => (key.utf8ByteSize, ofValue v) :: ofEntries rest

end

/-- The number of values, which bounds the work list. -/
def nodes : Footprint → ℕ
  | scalar => 1
  | string _ => 1
  | array _ values => 1 + (values.map nodes).sum
  | object entries => 1 + (entries.map fun e => e.2.nodes).sum
termination_by f => sizeOf f
decreasing_by
  · have := List.sizeOf_lt_of_mem ‹_›
    simp only [array.sizeOf_spec]
    omega
  · have := List.sizeOf_lt_of_mem ‹_›
    have : sizeOf e.2 < sizeOf e := by
      cases e
      simp
    simp only [object.sizeOf_spec]
    omega

theorem total_array (capacity : ℕ) (values : List Footprint) :
    (array capacity values).total = 128 + capacity * 32 + (values.map total).sum := by
  rw [total]

theorem total_object (entries : List (ℕ × Footprint)) :
    (object entries).total = 128 + (entries.map fun e => e.1 + 128 + e.2.total).sum := by
  rw [total]

theorem nodes_array (capacity : ℕ) (values : List Footprint) :
    (array capacity values).nodes = 1 + (values.map nodes).sum := by
  rw [nodes]

theorem nodes_object (entries : List (ℕ × Footprint)) :
    (object entries).nodes = 1 + (entries.map fun e => e.2.nodes).sum := by
  rw [nodes]

theorem nodes_pos (f : Footprint) : 0 < f.nodes := by
  cases f <;> rw [nodes] <;> omega

end Footprint

/-- `pending.extend(values)` on a stack whose top is the head of the list. -/
def extend (pending values : List Footprint) : List Footprint := values.reverse ++ pending

theorem sum_map_extend (f : Footprint → ℕ) (pending values : List Footprint) :
    ((extend pending values).map f).sum = (values.map f).sum + (pending.map f).sum := by
  simp [extend]

/-- The values of an object, in key order. -/
def entryValues (entries : List (ℕ × Footprint)) : List Footprint := entries.map fun e => e.2

theorem map_entryValues (f : Footprint → ℕ) (entries : List (ℕ × Footprint)) :
    (entryValues entries).map f = entries.map fun e => f e.2 := by
  simp [entryValues]

/-- The entries loop of an object: `none` when it exits early. -/
def objectSize : List (ℕ × Footprint) → ℕ → Option ℕ
  | [], size => some size
  | (keyCapacity, _) :: rest, size =>
    let size := saturatingAdd (saturatingAdd size keyCapacity) 128
    if size > controlBytes then none else objectSize rest size

/-- The loop of `json_size`. -/
def jsonSizeLoop : List Footprint → ℕ → ℕ
  | [], size => size
  | .scalar :: rest, size =>
    let size := saturatingAdd size 128
    if size > controlBytes then usizeMax else jsonSizeLoop rest size
  | .string capacity :: rest, size =>
    let size := saturatingAdd (saturatingAdd size 128) capacity
    if size > controlBytes then usizeMax else jsonSizeLoop rest size
  | .array capacity values :: rest, size =>
    let size := saturatingAdd (saturatingAdd size 128) (saturatingMul capacity 32)
    if size > controlBytes then usizeMax else jsonSizeLoop (extend rest values) size
  | .object entries :: rest, size =>
    match objectSize entries (saturatingAdd size 128) with
    | none => usizeMax
    | some size =>
      if size > controlBytes then usizeMax
      else jsonSizeLoop (extend rest (entryValues entries)) size
termination_by stack => (stack.map Footprint.nodes).sum
decreasing_by
  · simp [Footprint.nodes]
  · simp [Footprint.nodes]
  · rw [sum_map_extend, List.map_cons, List.sum_cons, Footprint.nodes_array]
    omega
  · rw [sum_map_extend, map_entryValues, List.map_cons, List.sum_cons, Footprint.nodes_object]
    omega

def jsonSize (f : Footprint) : ℕ := jsonSizeLoop [f] 0

/-- A sum capped at the control budget. -/
def capped (n : ℕ) : ℕ := if n ≤ controlBytes then n else usizeMax

end Unitree
