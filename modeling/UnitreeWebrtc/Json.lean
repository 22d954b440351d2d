/-
JSON values as `serde_json` holds them.

`Value` is `serde_json::Value` without the spare capacities of its buffers
(those are a separate shape, see `Footprint` in the event channel): numbers
are the 64-bit integers of either sign or finite doubles, and an object is a
`BTreeMap`, kept here as its entries in iteration order.

The accessors (`get`, `pointer`, `asStr`, …) follow the crate's documented
behaviour.  What the routing proofs need of them is how a replacement under a
path is seen through the other paths:

* `get_setPath_ne` — a replacement below one key leaves the other keys alone;
* `get_setPath_eq` — and is the replacement below that key;
* `setPath_isSome` — it succeeds exactly on the paths that exist.
-/
import Mathlib

namespace Unitree

/-! ### Numbers -/

/-- A finite `f64`, `(-1)^negative * mantissa * 2^exponent`, in its one
canonical form. -/
structure F64 where
  negative : Bool
  mantissa : ℕ
  exponent : ℤ
  canonical : mantissa < 2 ^ 53 ∧ -1074 ≤ exponent ∧ exponent ≤ 971 ∧
    (2 ^ 52 ≤ mantissa ∨ exponent = -1074)
deriving DecidableEq

namespace F64

/-- The magnitude of a double. -/
def magnitude (x : F64) : ℚ := x.mantissa * (2 : ℚ) ^ x.exponent

/-- Does `q` round to `|x|`?  The interval is closed for even mantissas, and
its lower half is narrower right above a power of two. -/
def roundsTo (x : F64) (q : ℚ) : Bool :=
  let ulp := (2 : ℚ) ^ x.exponent
  let narrow := x.mantissa = 2 ^ 52 ∧ x.exponent ≠ -1074
  let low := x.magnitude - (if narrow then ulp / 4 else ulp / 2)
  let high := x.magnitude + ulp / 2
  if x.mantissa % 2 = 0 then low ≤ q ∧ q ≤ high else low < q ∧ q < high

/-- The shortest decimal `d * 10^k` that reads back as `|x|`: `k` is tried
from above, and of the two neighbours of `|x|` the nearer one is taken. -/
def shortest (x : F64) : ℕ → ℤ → ℕ × ℤ
  | 0, k => (0, k)
  | fuel + 1, k =>
    let unit := (10 : ℚ) ^ k
    let d := (x.magnitude / unit).floor.toNat
    let down := 0 < d ∧ x.roundsTo (d * unit) = true
    let up := x.roundsTo ((d + 1) * unit) = true
    if down ∧ (¬ up ∨ 2 * (x.magnitude - d * unit) < unit) then (d, k)
    else if up then (d + 1, k)
    else shortest x fuel (k - 1)

/-- The digits of `d * 10^k` in positional notation. -/
def positional (d : ℕ) (k : ℤ) : String :=
  let digits := (toString d).toList
  if 0 ≤ k then String.ofList (digits ++ List.replicate k.toNat '0')
  else
    let places := (-k).toNat
    let padded := List.replicate (places + 1 - digits.length) '0' ++ digits
    String.ofList (padded.take (padded.length - places) ++ '.' ::
      padded.drop (padded.length - places))

/-- `f64::to_string`. -/
def display (x : F64) : String :=
  let body := if x.mantissa = 0 then "0" else
    let (d, k) := x.shortest 700 309
    positional d k
  if x.negative then "-" ++ body else body

end F64

/-- An integer `serde_json` stores exactly: `u64` when it is not negative,
`i64` when it is. -/
abbrev JsonInt := {i : ℤ // -2 ^ 63 ≤ i ∧ i < 2 ^ 64}

/-- An `i64`. -/
abbrev I64 := {i : ℤ // -2 ^ 63 ≤ i ∧ i < 2 ^ 63}

/-- `serde_json::Number`. -/
inductive Number where
  | int (i : JsonInt)
  | float (x : F64)
deriving DecidableEq

namespace Number

/-- `Number::from(i64)`. -/
def ofI64 (i : I64) : Number := .int ⟨i.1, i.2.1, lt_trans i.2.2 (by norm_num)⟩

/-- `Number::from(u8)`. -/
def ofByte (b : UInt8) : Number :=
  .int ⟨b.toNat, by
    have : b.toNat < 256 := b.toNat_lt
    omega⟩

/-- `Number::from(u64)`. -/
def ofU64 (n : ℕ) : Number :=
  .int ⟨(n % 2 ^ 64 : ℕ), le_trans (by norm_num) (Int.natCast_nonneg _),
    by exact_mod_cast Nat.mod_lt n (by norm_num)⟩

def asI64 : Number → Option I64
  | .int i => if h : i.1 < 2 ^ 63 then some ⟨i.1, i.2.1, h⟩ else none
  | .float _ => none

def asU64 : Number → Option ℕ
  | .int i => if 0 ≤ i.1 then some i.1.toNat else none
  | .float _ => none

/-- The text of a number in `nested_scalar_to_string`: integers as `i64` or
`u64`, doubles through `f64`'s `Display`. -/
def display : Number → String
  | .int i => toString i.1
  | .float x => x.display

@[simp] theorem asI64_ofI64 (i : I64) : (ofI64 i).asI64 = some i := by
  simp only [ofI64, asI64]
  rw [dif_pos i.2.2]

@[simp] theorem asU64_ofByte (b : UInt8) : (ofByte b).asU64 = some b.toNat := by
  simp [ofByte, asU64]

end Number

/-! ### Values -/

/-- `serde_json::Value`. -/
inductive Value where
  | null
  | bool (b : Bool)
  | number (n : Number)
  | string (s : String)
  | array (values : List Value)
  | object (entries : List (String × Value))

/-- The entries of an object, in key order. -/
abbrev Entries := List (String × Value)

namespace Entries

/-- `Map::insert` into a `BTreeMap`: the value of an existing key is replaced,
a new key goes before the first larger one. -/
def insert (k : String) (v : Value) : Entries → Entries
  | [] => [(k, v)]
  | (k', v') :: rest =>
    if k = k' then (k, v) :: rest
    else if k < k' then (k, v) :: (k', v') :: rest
    else (k', v') :: insert k v rest

/-- Assignment through a mutable reference to an existing entry. -/
def replace (k : String) (v : Value) : Entries → Entries
  | [] => []
  | (k', v') :: rest => if k = k' then (k, v) :: rest else (k', v') :: replace k v rest

theorem lookup_cons (es : Entries) (j k : String) (w : Value) :
    List.lookup k ((j, w) :: es) = if k = j then some w else es.lookup k := by
  by_cases h : k = j
  · simp [List.lookup, h]
  · have hb : (k == j) = false := by simpa using h
    simp [List.lookup, hb, h]

theorem lookup_insert (es : Entries) (k k' : String) (v : Value) :
    List.lookup k' (insert k v es) = if k' = k then some v else es.lookup k' := by
  induction es with
  | nil => rw [insert, lookup_cons]
  | cons e rest ih =>
    obtain ⟨j, w⟩ := e
    rw [insert, lookup_cons]
    by_cases h1 : k = j
    · subst h1
      rw [if_pos rfl, lookup_cons]
      by_cases h : k' = k <;> simp [h]
    · rw [if_neg h1]
      by_cases h2 : k < j
      · rw [if_pos h2, lookup_cons, lookup_cons]
      · rw [if_neg h2, lookup_cons, ih]
        by_cases h : k' = j
        · subst h
          simp [Ne.symm h1]
        · simp [h]

theorem lookup_replace (es : Entries) (k k' : String) (v : Value) :
    List.lookup k' (replace k v es) =
      if k' = k then (es.lookup k).map (fun _ => v) else es.lookup k' := by
  induction es with
  | nil => simp [replace]
  | cons e rest ih =>
    obtain ⟨j, w⟩ := e
    rw [replace, lookup_cons, lookup_cons]
    by_cases h1 : k = j
    · subst h1
      rw [if_pos rfl, lookup_cons]
      by_cases h : k' = k <;> simp [h]
    · rw [if_neg h1, if_neg h1, lookup_cons, ih]
      by_cases h : k' = k
      · subst h
        simp [h1]
      · simp [h]

end Entries

namespace Value

def asStr : Value → Option String
  | string s => some s
  | _ => none

def asBool : Value → Option Bool
  | bool b => some b
  | _ => none

def asI64 : Value → Option I64
  | number n => n.asI64
  | _ => none

def asU64 : Value → Option ℕ
  | number n => n.asU64
  | _ => none

def asArray : Value → Option (List Value)
  | array vs => some vs
  | _ => none

def asObject : Value → Option Entries
  | object es => some es
  | _ => none

/-- `Value::get` with a string index: only objects answer. -/
def get (v : Value) (key : String) : Option Value :=
  match v with
  | object es => es.lookup key
  | _ => none

/-- A chain of `get`s.  It is also `Value::pointer` for the source's
pointers: none of their tokens is a numeral, so an array ends the chain. -/
def pointer (v : Value) : List String → Option Value
  | [] => some v
  | k :: ks => (v.get k).bind fun child => child.pointer ks

/-- Assignment through `Value::pointer_mut`; `none` where the path leads
nowhere. -/
def setPath : List String → Value → Value → Option Value
  | [], new, _ => some new
  | k :: ks, new, object es =>
    (es.lookup k).bind fun child =>
      (setPath ks new child).map fun child' => object (Entries.replace k child' es)
  | _ :: _, _, _ => none

/-- `value[key] = new` on an object. -/
def insertKey (v : Value) (key : String) (new : Value) : Value :=
  match v with
  | object es => object (Entries.insert key new es)
  | v => v

@[simp] theorem get_object (es : Entries) (k : String) : (object es).get k = es.lookup k := rfl

@[simp] theorem pointer_nil (v : Value) : v.pointer [] = some v := rfl

theorem pointer_cons (v : Value) (k : String) (ks : List String) :
    v.pointer (k :: ks) = (v.get k).bind fun child => child.pointer ks := rfl

/-- A replacement happens inside an object that has the first key. -/
theorem setPath_cons_eq_some {k : String} {ks : List String} {new v v' : Value}
    (h : setPath (k :: ks) new v = some v') :
    ∃ es child child', v = object es ∧ es.lookup k = some child ∧
      setPath ks new child = some child' ∧ v' = object (Entries.replace k child' es) := by
  cases v with
  | object es =>
    simp only [setPath, Option.bind_eq_some_iff, Option.map_eq_some_iff] at h
    obtain ⟨child, hchild, child', hset, rfl⟩ := h
    exact ⟨es, child, child', rfl, hchild, hset, rfl⟩
  | _ => simp [setPath] at h

/-- A replacement below one key leaves the other keys alone. -/
theorem get_setPath_ne {k k' : String} {ks : List String} {new v v' : Value}
    (h : setPath (k :: ks) new v = some v') (hk : k' ≠ k) : v'.get k' = v.get k' := by
  obtain ⟨es, child, child', rfl, -, -, rfl⟩ := setPath_cons_eq_some h
  rw [get_object, get_object, Entries.lookup_replace, if_neg hk]

/-- Below its own key, a replacement is the replacement in the child. -/
theorem get_setPath_eq {k : String} {ks : List String} {new v v' : Value}
    (h : setPath (k :: ks) new v = some v') :
    ∃ child child', v.get k = some child ∧ setPath ks new child = some child' ∧
      v'.get k = some child' := by
  obtain ⟨es, child, child', rfl, hchild, hset, rfl⟩ := setPath_cons_eq_some h
  refine ⟨child, child', hchild, hset, ?_⟩
  rw [get_object, Entries.lookup_replace, if_pos rfl, hchild, Option.map_some]

/-- A replacement succeeds exactly on the paths that exist. -/
theorem setPath_isSome (ks : List String) (new : Value) : ∀ v : Value,
    (setPath ks new v).isSome = (v.pointer ks).isSome := by
  induction ks with
  | nil => intro v; rfl
  | cons k ks ih =>
    intro v
    cases v with
    | object es =>
      rw [pointer_cons, get_object, setPath]
      rcases es.lookup k with _ | child
      · rfl
      · simp [ih]
    | _ => rfl

theorem setPath_of_pointer {ks : List String} {v old : Value} (h : v.pointer ks = some old)
    (new : Value) : ∃ v', setPath ks new v = some v' := by
  rw [← Option.isSome_iff_exists, setPath_isSome, h]
  rfl

theorem pointer_setPath {ks : List String} {new : Value} : ∀ {v v' : Value},
    setPath ks new v = some v' → v'.pointer ks = some new := by
  induction ks with
  | nil =>
    intro v v' h
    rw [setPath, Option.some_inj] at h
    rw [h, pointer_nil]
  | cons k ks ih =>
    intro v v' h
    obtain ⟨child, child', -, hset, hget⟩ := get_setPath_eq h
    rw [pointer_cons, hget, Option.bind_some]
    exact ih hset

end Value

end Unitree
