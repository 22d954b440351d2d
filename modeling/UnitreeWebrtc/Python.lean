/-
Python objects as JSON.

A Python value is the root of a heap graph: containers hold addresses, so they can
be shared, and a container can hold itself.  `convert_json` walks the graph along
its paths, charging every value it meets to a budget of nodes and one of bytes, and
keeps the containers of the current path to see a cycle.

What it should accept is stated without the walk.  `Unfolds heap a t` says that the
graph below `a` unfolds to the finite tree `t`; the costs are functions of `t`.

PyO3 is outside of this repository.  `PyO3` has the conversions that are used of it,
and `PyO3.Lawful` what it documents about them.

* `convertJson` — the walk;
* `Unfolds.unique`, `Unfolds.acyclic` — a graph unfolds to one tree at most, and to
  none if there is a cycle;
* `exists_unfolds` — a finite graph without cycles unfolds.
-/
import UnitreeWebrtc.Admission

namespace Unitree

namespace Python

/-! ### The heap -/

abbrev Address := ℕ

/-- The code points of a `str`; surrogates can be among them. -/
abbrev PyStr := List (Fin 0x110000)

inductive PyFloat where
  | finite (x : F64)
  | infinite (negative : Bool)
  | nan
deriving DecidableEq

inductive PyObject where
  | none
  | bool (b : Bool)
  | int (i : ℤ)
  | float (x : PyFloat)
  | str (s : PyStr)
  | list (items : List Address)
  /-- Keys and values, in insertion order. -/
  | dict (entries : List (Address × Address))
  /-- An object of another type, such as a tuple, that no conversion takes. -/
  | other
deriving DecidableEq

abbrev Heap := Address → PyObject

namespace PyStr

def charOf (c : Fin 0x110000) : Option Char :=
  if h : c.val.isValidChar then some (Char.ofNatAux c.val h) else none

/-- The string, if it has no surrogates. -/
def text (s : PyStr) : Option String := (s.mapM charOf).map String.ofList

/-- The string with U+FFFD for every surrogate. -/
def lossy (s : PyStr) : String := String.ofList (s.map fun c => (charOf c).getD (Char.ofNat 0xFFFD))

end PyStr

namespace PyObject

def isNone : PyObject → Bool
  | .none => true
  | _ => false

/-- `is_instance_of::<PyInt>`; `bool` is a subclass. -/
def isInt : PyObject → Bool
  | .int _ => true
  | .bool _ => true
  | _ => false

def isStr : PyObject → Bool
  | .str _ => true
  | _ => false

def isContainer : PyObject → Bool
  | .list _ => true
  | .dict _ => true
  | _ => false

/-- What `__index__` returns. -/
def index : PyObject → Option ℤ
  | .int i => some i
  | .bool b => some (if b then 1 else 0)
  | _ => Option.none

def asFloat : PyObject → Option PyFloat
  | .float x => some x
  | _ => Option.none

/-- The objects a container holds. -/
def children : PyObject → List Address
  | .list items => items
  | .dict entries => entries.flatMap fun e => [e.1, e.2]
  | _ => []

end PyObject

/-! ### PyO3 -/

structure PyO3 where
  extractBool : PyObject → Option Bool
  extractI64 : PyObject → Option I64
  extractU64 : PyObject → Option ℕ
  extractF64 : PyObject → Option PyFloat
  /-- `PyString::to_str`. -/
  toStr : PyStr → Option String

/-- A `bool` is extracted from `True` and `False` only; the integers come from
`__index__`, if they fit; a `float` as it is, and an `f64` from nothing else that is
not an integer; a `str` if it can be encoded. -/
structure PyO3.Lawful (api : PyO3) : Prop where
  bool : ∀ o b, api.extractBool o = some b ↔ o = .bool b
  i64 : ∀ o, api.extractI64 o =
    o.index.bind fun i => if h : -2 ^ 63 ≤ i ∧ i < 2 ^ 63 then some ⟨i, h⟩ else none
  u64 : ∀ o, api.extractU64 o =
    o.index.bind fun i => if 0 ≤ i ∧ i < 2 ^ 64 then some i.toNat else none
  f64 : ∀ o, o.index = none → api.extractF64 o = o.asFloat
  str : ∀ s, api.toStr s = PyStr.text s

/-- The sizes of `Value` and `String`. -/
structure Layout where
  value : ℕ
  string : ℕ
  value_pos : 0 < value

inductive PyErr where
  | valueError (message : String)
  | typeError (message : String)
  /-- The failed cast of `copy_string`. -/
  | castError
  | unicodeEncodeError
deriving DecidableEq

/-! ### The budget -/

def maxJsonDepth : ℕ := 64

def maxJsonNodes : ℕ := 16384

def maxJsonBytes : ℕ := 1024 * 1024

structure JsonBudget where
  remainingNodes : ℕ
  remainingBytes : ℕ

namespace JsonBudget

def chargeBytes (budget : JsonBudget) (bytes : ℕ) : Except PyErr JsonBudget :=
  if bytes ≤ budget.remainingBytes then
    .ok { budget with remainingBytes := budget.remainingBytes - bytes }
  else .error (.valueError "JSON byte budget exceeded")

def chargeNode (layout : Layout) (budget : JsonBudget) : Except PyErr JsonBudget :=
  if 1 ≤ budget.remainingNodes then
    { budget with remainingNodes := budget.remainingNodes - 1 }.chargeBytes layout.value
  else .error (.valueError "JSON node budget exceeded")

def checkChildren (layout : Layout) (budget : JsonBudget) (count : ℕ) : Except PyErr Unit :=
  if count > budget.remainingNodes then .error (.valueError "JSON node budget exceeded")
  else if count > budget.remainingBytes / layout.value then
    .error (.valueError "JSON byte budget exceeded")
  else .ok ()

def copyString (api : PyO3) (budget : JsonBudget) (object : PyObject) :
    Except PyErr (String × JsonBudget) :=
  match object with
  | .str s =>
    match api.toStr s with
    | none => .error .unicodeEncodeError
    | some text =>
      match budget.chargeBytes text.utf8ByteSize with
      | .error e => .error e
      | .ok budget => .ok (text, budget)
  | _ => .error .castError

end JsonBudget

/-! ### The walk -/

/-- `Number::from_f64`. -/
def fromF64 : PyFloat → Option Number
  | .finite x => some (.float x)
  | _ => none

/-- What the walk returns: the value, the path and the budget that is left. -/
abbrev Converted (α : Type) := Except PyErr (α × Finset Address × JsonBudget)

abbrev Convert := Address → Finset Address → JsonBudget → Converted Value

/-- The end of the cascade: floats and strings. -/
def convertFloatOrString (api : PyO3) (object : PyObject) (budget : JsonBudget) :
    Option (Except PyErr (Value × JsonBudget)) :=
  match api.extractF64 object with
  | some v =>
    match fromF64 v with
    | some n => some (.ok (.number n, budget))
    | none => some (.error (.valueError "JSON numbers must be finite"))
  | none =>
    if object.isStr then
      match budget.copyString api object with
      | .error e => some (.error e)
      | .ok (text, budget) => some (.ok (.string text, budget))
    else none

/-- The cascade up to the strings; `none` is whatever comes to the containers. -/
def convertScalar (api : PyO3) (object : PyObject) (budget : JsonBudget) :
    Option (Except PyErr (Value × JsonBudget)) :=
  if object.isNone then some (.ok (.null, budget))
  else
    match api.extractBool object with
    | some v => some (.ok (.bool v, budget))
    | none =>
      match api.extractI64 object with
      | some v => some (.ok (.number (.ofI64 v), budget))
      | none =>
        match api.extractU64 object with
        | some v => some (.ok (.number (.ofU64 v), budget))
        | none =>
          if object.isInt then
            some (.error (.valueError "JSON integer must fit signed or unsigned 64-bit range"))
          else convertFloatOrString api object budget

/-- `for item in list.iter()`. -/
def convertItems (convert : Convert) :
    List Address → List Value → Finset Address → JsonBudget → Converted (List Value)
  | [], values, active, budget => .ok (values, active, budget)
  | item :: rest, values, active, budget =>
    match convert item active budget with
    | .error e => .error e
    | .ok (value, active, budget) => convertItems convert rest (values ++ [value]) active budget

/-- `for (key, value) in dict.iter()`. -/
def convertEntries (api : PyO3) (layout : Layout) (heap : Heap) (convert : Convert) :
    List (Address × Address) → Entries → Finset Address → JsonBudget → Converted Entries
  | [], values, active, budget => .ok (values, active, budget)
  | (key, value) :: rest, values, active, budget =>
    match budget.chargeBytes layout.string with
    | .error e => .error e
    | .ok budget =>
      match budget.copyString api (heap key) with
      | .error e => .error e
      | .ok (key, budget) =>
        match convert value active budget with
        | .error e => .error e
        | .ok (value, active, budget) =>
          convertEntries api layout heap convert rest (Entries.insert key value values) active
            budget

/-- `check_children`, or what stands in its place. -/
abbrev Check := JsonBudget → ℕ → Except PyErr Unit

/-- The container at an address that is on the path already. -/
def convertContainer (api : PyO3) (layout : Layout) (heap : Heap) (check : Check)
    (convert : Convert) : Convert := fun address active budget =>
  match heap address with
  | .list items =>
    match check budget items.length with
    | .error e => .error e
    | .ok () =>
      match convertItems convert items [] active budget with
      | .error e => .error e
      | .ok (values, active, budget) => .ok (.array values, active, budget)
  | .dict entries =>
    match check budget entries.length with
    | .error e => .error e
    | .ok () =>
      match convertEntries api layout heap convert entries [] active budget with
      | .error e => .error e
      | .ok (values, active, budget) => .ok (.object values, active, budget)
  | _ => .error (.typeError "Unsupported type for JSON conversion")

/-- `convert_json`, where `deeper` is the call one level down, if there is one. -/
def convertAt (api : PyO3) (layout : Layout) (heap : Heap) (check : Check)
    (deeper : Option Convert) : Convert := fun address active budget =>
  match budget.chargeNode layout with
  | .error e => .error e
  | .ok budget =>
    match convertScalar api (heap address) budget with
    | some (.error e) => .error e
    | some (.ok (value, budget)) => .ok (value, active, budget)
    | none =>
      if ¬ (heap address).isContainer then
        .error (.typeError "Unsupported type for JSON conversion")
      else
        match deeper with
        | none => .error (.valueError "JSON container depth exceeds 64")
        | some convert =>
          if address ∈ active then .error (.valueError "Cyclic JSON container")
          else
            match convertContainer api layout heap check convert address (insert address active)
                budget with
            | .error e => .error e
            | .ok (value, active, budget) => .ok (value, active.erase address, budget)

/-- `convert_json` at depth `MAX_JSON_DEPTH - levels`. -/
def convertJson (api : PyO3) (layout : Layout) (heap : Heap) (check : Check) : ℕ → Convert
  | 0 => convertAt api layout heap check none
  | levels + 1 => convertAt api layout heap check (some (convertJson api layout heap check levels))

/-- `py_any_to_json_value`, with any `check_children`. -/
def pyAnyToJsonValueWith (check : Check) (api : PyO3) (layout : Layout) (heap : Heap)
    (object : Address) : Except PyErr Value :=
  match convertJson api layout heap check maxJsonDepth object ∅
      { remainingNodes := maxJsonNodes, remainingBytes := maxJsonBytes } with
  | .error e => .error e
  | .ok (value, _, _) => .ok value

def pyAnyToJsonValue (api : PyO3) (layout : Layout) (heap : Heap) (object : Address) :
    Except PyErr Value :=
  pyAnyToJsonValueWith (fun budget count => budget.checkChildren layout count) api layout heap
    object

/-! ### What it should accept -/

end Python

namespace Syntax

mutual

/-- One node for every value. -/
def nodes : Syntax → ℕ
  | .array ts => 1 + nodesSeq ts
  | .object ms => 1 + nodesMap ms
  | _ => 1

def nodesSeq : List Syntax → ℕ
  | [] => 0
  | t :: ts => t.nodes + nodesSeq ts

def nodesMap : List (String × Syntax) → ℕ
  | [] => 0
  | (_, t) :: ms => t.nodes + nodesMap ms

end

mutual

/-- A slot for every value, and the text of every string; a header and its text for
every key. -/
def bytes (layout : Python.Layout) : Syntax → ℕ
  | .string s => layout.value + s.utf8ByteSize
  | .array ts => layout.value + bytesSeq layout ts
  | .object ms => layout.value + bytesMap layout ms
  | _ => layout.value

def bytesSeq (layout : Python.Layout) : List Syntax → ℕ
  | [] => 0
  | t :: ts => t.bytes layout + bytesSeq layout ts

def bytesMap (layout : Python.Layout) : List (String × Syntax) → ℕ
  | [] => 0
  | (k, t) :: ms => layout.string + k.utf8ByteSize + t.bytes layout + bytesMap layout ms

end

theorem nodes_pos (t : Syntax) : 1 ≤ t.nodes := by
  cases t <;> simp [nodes]

theorem value_le_bytes (layout : Python.Layout) (t : Syntax) : layout.value ≤ t.bytes layout := by
  cases t <;> simp [bytes]

/-- The budgets of the conversion. -/
def WithinBudgets (layout : Python.Layout) (t : Syntax) : Prop :=
  t.nesting ≤ Python.maxJsonDepth ∧ t.nodes ≤ Python.maxJsonNodes ∧
    t.bytes layout ≤ Python.maxJsonBytes

end Syntax

namespace Python

mutual

/-- The graph below an address unfolds to this tree, where `text` reads the strings. -/
inductive Unfolds (text : PyStr → Option String) (heap : Heap) : Address → Syntax → Prop
  | none {a : Address} : heap a = .none → Unfolds text heap a .null
  | bool {a : Address} {b : Bool} : heap a = .bool b → Unfolds text heap a (.bool b)
  | int {a : Address} {i : JsonInt} : heap a = .int i.1 → Unfolds text heap a (.number (.int i))
  | float {a : Address} {x : F64} :
      heap a = .float (.finite x) → Unfolds text heap a (.number (.float x))
  | str {a : Address} {s : PyStr} {t : String} :
      heap a = .str s → text s = some t → Unfolds text heap a (.string t)
  | list {a : Address} {items : List Address} {ts : List Syntax} :
      heap a = .list items → UnfoldsSeq text heap items ts → Unfolds text heap a (.array ts)
  | dict {a : Address} {entries : List (Address × Address)} {ms : List (String × Syntax)} :
      heap a = .dict entries → UnfoldsMap text heap entries ms → Unfolds text heap a (.object ms)

inductive UnfoldsSeq (text : PyStr → Option String) (heap : Heap) :
    List Address → List Syntax → Prop
  | nil : UnfoldsSeq text heap [] []
  | cons {item : Address} {t : Syntax} {rest : List Address} {ts : List Syntax} :
      Unfolds text heap item t → UnfoldsSeq text heap rest ts →
        UnfoldsSeq text heap (item :: rest) (t :: ts)

inductive UnfoldsMap (text : PyStr → Option String) (heap : Heap) :
    List (Address × Address) → List (String × Syntax) → Prop
  | nil : UnfoldsMap text heap [] []
  | cons {key value : Address} {s : PyStr} {k : String} {t : Syntax}
      {rest : List (Address × Address)} {ms : List (String × Syntax)} :
      heap key = .str s → text s = some k → Unfolds text heap value t →
        UnfoldsMap text heap rest ms →
        UnfoldsMap text heap ((key, value) :: rest) ((k, t) :: ms)

end

/-- `b` is held by the container at `a`. -/
def Child (heap : Heap) (a b : Address) : Prop := b ∈ (heap a).children

variable {heap : Heap} {text : PyStr → Option String}

/-! ### Trees have no cycles -/

theorem UnfoldsSeq.mem {items : List Address} {ts : List Syntax} {b : Address}
    (h : UnfoldsSeq text heap items ts) (hb : b ∈ items) :
    ∃ t, Unfolds text heap b t ∧ t.nodes ≤ Syntax.nodesSeq ts := by
  induction items generalizing ts with
  | nil => exact absurd hb (by simp)
  | cons item rest ih =>
    cases h with
    | cons hitem hrest =>
      rw [Syntax.nodesSeq]
      rcases List.mem_cons.mp hb with rfl | hb
      · exact ⟨_, hitem, Nat.le_add_right _ _⟩
      · obtain ⟨t, ht, hle⟩ := ih hrest hb
        exact ⟨t, ht, by omega⟩

theorem UnfoldsMap.mem {entries : List (Address × Address)} {ms : List (String × Syntax)}
    {b : Address} (h : UnfoldsMap text heap entries ms)
    (hb : b ∈ entries.flatMap fun e => [e.1, e.2]) :
    ∃ t, Unfolds text heap b t ∧ t.nodes ≤ Syntax.nodesMap ms := by
  induction entries generalizing ms with
  | nil => exact absurd hb (by simp)
  | cons entry rest ih =>
    cases h with
    | @cons key value s k t _ ms hkey hk hvalue hrest =>
      have hpos := t.nodes_pos
      rw [Syntax.nodesMap]
      rcases List.mem_append.mp hb with hb | hb
      · rcases List.mem_pair.mp hb with rfl | rfl
        · exact ⟨_, .str hkey hk, show 1 ≤ _ by omega⟩
        · exact ⟨_, hvalue, Nat.le_add_right _ _⟩
      · obtain ⟨t', ht', hle⟩ := ih hrest hb
        exact ⟨t', ht', by omega⟩

theorem Unfolds.child {a b : Address} {t : Syntax} (h : Unfolds text heap a t)
    (hb : Child heap a b) : ∃ t', Unfolds text heap b t' ∧ t'.nodes < t.nodes := by
  rw [Child] at hb
  cases h with
  | list ha hitems =>
    rw [ha] at hb
    obtain ⟨t', ht', hle⟩ := hitems.mem hb
    exact ⟨t', ht', by rw [Syntax.nodes]; omega⟩
  | dict ha hentries =>
    rw [ha] at hb
    obtain ⟨t', ht', hle⟩ := hentries.mem hb
    exact ⟨t', ht', by rw [Syntax.nodes]; omega⟩
  | none ha => rw [ha] at hb; exact absurd hb (by simp [PyObject.children])
  | bool ha => rw [ha] at hb; exact absurd hb (by simp [PyObject.children])
  | int ha => rw [ha] at hb; exact absurd hb (by simp [PyObject.children])
  | float ha => rw [ha] at hb; exact absurd hb (by simp [PyObject.children])
  | str ha _ => rw [ha] at hb; exact absurd hb (by simp [PyObject.children])

/-- What is below a tree is a smaller tree. -/
theorem Unfolds.descendant {a b : Address} (hb : Relation.TransGen (Child heap) a b) :
    ∀ {t : Syntax}, Unfolds text heap a t →
      ∃ t', Unfolds text heap b t' ∧ t'.nodes < t.nodes := by
  induction hb with
  | single hb => exact fun h => h.child hb
  | tail _ hb ih =>
    intro t h
    obtain ⟨t', ht', hlt⟩ := ih h
    obtain ⟨t'', ht'', hlt'⟩ := ht'.child hb
    exact ⟨t'', ht'', by omega⟩

/-- So a container that holds itself does not unfold. -/
theorem Unfolds.acyclic {a : Address} {t : Syntax} (h : Unfolds text heap a t) :
    ¬ Relation.TransGen (Child heap) a a := by
  intro hcycle
  induction hn : t.nodes using Nat.strong_induction_on generalizing t with
  | _ n ih =>
    obtain ⟨t', ht', hlt⟩ := Unfolds.descendant hcycle h
    exact ih t'.nodes (by omega) ht' rfl

/-! ### Graphs without cycles -/

/-- An object that can be part of a JSON value. -/
def PyObject.Fits (text : PyStr → Option String) (heap : Heap) : PyObject → Prop
  | .int i => -2 ^ 63 ≤ i ∧ i < 2 ^ 64
  | .float x => ∃ y, x = .finite y
  | .str s => (text s).isSome
  | .dict entries => ∀ e ∈ entries, ∃ s, heap e.1 = .str s
  | .other => False
  | _ => True

theorem exists_unfoldsSeq {items : List Address}
    (h : ∀ b ∈ items, ∃ t, Unfolds text heap b t) : ∃ ts, UnfoldsSeq text heap items ts := by
  induction items with
  | nil => exact ⟨[], .nil⟩
  | cons item rest ih =>
    obtain ⟨t, ht⟩ := h item List.mem_cons_self
    obtain ⟨ts, hts⟩ := ih fun b hb => h b (List.mem_cons_of_mem _ hb)
    exact ⟨t :: ts, .cons ht hts⟩

theorem exists_unfoldsMap (entries : List (Address × Address))
    (hkeys : ∀ e ∈ entries, ∃ s, heap e.1 = .str s ∧ (text s).isSome)
    (h : ∀ e ∈ entries, ∃ t, Unfolds text heap e.2 t) :
    ∃ ms, UnfoldsMap text heap entries ms := by
  induction entries with
  | nil => exact ⟨[], .nil⟩
  | cons entry rest ih =>
    obtain ⟨s, hs, htext⟩ := hkeys entry List.mem_cons_self
    obtain ⟨k, hk⟩ := Option.isSome_iff_exists.mp htext
    obtain ⟨t, ht⟩ := h entry List.mem_cons_self
    obtain ⟨ms, hms⟩ := ih (fun e he => hkeys e (List.mem_cons_of_mem _ he))
      fun e he => h e (List.mem_cons_of_mem _ he)
    exact ⟨(k, t) :: ms, .cons hs hk ht hms⟩

/-- A finite graph without cycles unfolds to a tree, however much of it is shared. -/
theorem exists_unfolds {root : Address}
    (hfinite : {b | Relation.ReflTransGen (Child heap) root b}.Finite)
    (hacyclic : ∀ b, Relation.ReflTransGen (Child heap) root b →
      ¬ Relation.TransGen (Child heap) b b)
    (hfits : ∀ b, Relation.ReflTransGen (Child heap) root b → (heap b).Fits text heap) :
    ∃ t, Unfolds text heap root t := by
  -- below each other, the reachable containers are well founded
  let Reached := {b // Relation.ReflTransGen (Child heap) root b}
  have hsub : Finite Reached := hfinite.to_subtype
  let below : Reached → Reached → Prop := fun b a => Relation.TransGen (Child heap) a.1 b.1
  have htrans : IsTrans Reached below := ⟨fun _ _ _ hba hcb => hcb.trans hba⟩
  have hirrefl : Std.Irrefl below := ⟨fun b => hacyclic b.1 b.2⟩
  have hwf : WellFounded below := Finite.wellFounded_of_trans_of_irrefl below
  refine hwf.induction (C := fun a => ∃ t, Unfolds text heap a.1 t) ⟨root, .refl⟩ ?_
  rintro ⟨a, ha⟩ ih
  have hchild : ∀ b, Child heap a b → ∃ t, Unfolds text heap b t := fun b hb =>
    ih ⟨b, ha.tail hb⟩ (.single hb)
  have hfit := hfits a ha
  cases hobject : heap a with
  | none => exact ⟨_, .none hobject⟩
  | bool b => exact ⟨_, .bool hobject⟩
  | int i =>
    rw [hobject] at hfit
    exact ⟨.number (.int ⟨i, hfit⟩), .int hobject⟩
  | float x =>
    rw [hobject] at hfit
    obtain ⟨y, rfl⟩ := hfit
    exact ⟨_, .float hobject⟩
  | str s =>
    rw [hobject] at hfit
    obtain ⟨t, ht⟩ := Option.isSome_iff_exists.mp hfit
    exact ⟨_, .str hobject ht⟩
  | list items =>
    obtain ⟨ts, hts⟩ := exists_unfoldsSeq fun b hb => hchild b (by rw [Child, hobject]; exact hb)
    exact ⟨_, .list hobject hts⟩
  | dict entries =>
    rw [hobject] at hfit
    have hentry : ∀ e ∈ entries, Child heap a e.1 ∧ Child heap a e.2 := by
      intro e he
      rw [Child, Child, hobject]
      exact ⟨List.mem_flatMap.mpr ⟨e, he, by simp⟩, List.mem_flatMap.mpr ⟨e, he, by simp⟩⟩
    obtain ⟨ms, hms⟩ := exists_unfoldsMap entries
      (fun e he => by
        obtain ⟨s, hs⟩ := hfit e he
        have hkey := hfits e.1 (ha.tail (hentry e he).1)
        rw [hs] at hkey
        exact ⟨s, hs, hkey⟩)
      fun e he => hchild e.2 (hentry e he).2
    exact ⟨_, .dict hobject hms⟩
  | other =>
    rw [hobject] at hfit
    exact absurd hfit id

mutual

/-- A graph unfolds to one tree at most. -/
theorem Unfolds.unique : ∀ {a : Address} {t t' : Syntax},
    Unfolds text heap a t → Unfolds text heap a t' → t = t'
  | _, _, _, .none ha, h' => by cases h' <;> simp_all
  | _, _, _, .bool ha, h' => by cases h' <;> simp_all
  | _, _, _, .int ha, h' => by
    cases h' with
    | int ha' =>
      rw [ha, PyObject.int.injEq] at ha'
      rw [Subtype.ext ha']
    | _ => simp_all
  | _, _, _, .float ha, h' => by cases h' <;> simp_all
  | _, _, _, .str ha ht, h' => by cases h' <;> simp_all
  | _, _, _, .list ha hts, h' => by
    cases h' with
    | list ha' hts' =>
      rw [ha, PyObject.list.injEq] at ha'
      rw [hts.unique (ha' ▸ hts')]
    | _ => simp_all
  | _, _, _, .dict ha hms, h' => by
    cases h' with
    | dict ha' hms' =>
      rw [ha, PyObject.dict.injEq] at ha'
      rw [hms.unique (ha' ▸ hms')]
    | _ => simp_all

theorem UnfoldsSeq.unique : ∀ {items : List Address} {ts ts' : List Syntax},
    UnfoldsSeq text heap items ts → UnfoldsSeq text heap items ts' → ts = ts'
  | _, _, _, .nil, .nil => rfl
  | _, _, _, .cons ht hts, .cons ht' hts' => by rw [ht.unique ht', hts.unique hts']

theorem UnfoldsMap.unique : ∀ {entries : List (Address × Address)}
    {ms ms' : List (String × Syntax)},
    UnfoldsMap text heap entries ms → UnfoldsMap text heap entries ms' → ms = ms'
  | _, _, _, .nil, .nil => rfl
  | _, _, _, .cons hs hk ht hms, .cons hs' hk' ht' hms' => by
    rw [hs, PyObject.str.injEq] at hs'
    rw [← hs', hk, Option.some_inj] at hk'
    rw [hk', ht.unique ht', hms.unique hms']

end

end Python

end Unitree
