/-
JSON through Python and back.

`json_value_to_py` builds a Python object from a value: it allocates a container
first and then appends to it what it makes of the children, so the container is
written to after they are there.  What has been built stays readable, since later
steps write to fresh addresses and to that one container only (`Stored`).

A `serde_json` object is a `BTreeMap`: its keys are in order, each once
(`Value.Ordered`).  Without that the entries of a Python `dict`, and of the object
that is read back, would not be those of the value.

* `jsonValueToPy_stored` — the graph that is built unfolds to the value;
* `value_toSyntax` — and the value is what that tree spells;
* `json_survives_python` — so conversion back returns it.
-/
import UnitreeWebrtc.Conversion

namespace Unitree

/-! ### `serde_json` values -/

namespace Value

mutual

/-- The keys of every object are in order. -/
def Ordered : Value → Prop
  | .array vs => OrderedSeq vs
  | .object es => Entries.Sorted es ∧ OrderedMap es
  | _ => True

def OrderedSeq : List Value → Prop
  | [] => True
  | v :: vs => v.Ordered ∧ OrderedSeq vs

def OrderedMap : List (String × Value) → Prop
  | [] => True
  | (_, v) :: es => v.Ordered ∧ OrderedMap es

end

mutual

/-- A value as a tree. -/
def toSyntax : Value → Syntax
  | .null => .null
  | .bool b => .bool b
  | .number n => .number n
  | .string s => .string s
  | .array vs => .array (syntaxSeq vs)
  | .object es => .object (syntaxMap es)

def syntaxSeq : List Value → List Syntax
  | [] => []
  | v :: vs => v.toSyntax :: syntaxSeq vs

def syntaxMap : List (String × Value) → List (String × Syntax)
  | [] => []
  | (k, v) :: es => (k, v.toSyntax) :: syntaxMap es

end

end Value

/-- A `serde_json::Value`. -/
abbrev JsonValue := {v : Value // v.Ordered}

theorem Entries.insert_last {k : String} {v : Value} {es : Entries} (h : ∀ e ∈ es, e.1 < k) :
    Entries.insert k v es = es ++ [(k, v)] := by
  induction es with
  | nil => rfl
  | cons e rest ih =>
    obtain ⟨j, w⟩ := e
    have hlt : j < k := h (j, w) List.mem_cons_self
    rw [Entries.insert, if_neg hlt.ne', if_neg (not_lt.mpr hlt.le),
      ih fun e he => h e (List.mem_cons_of_mem _ he), List.cons_append]

/-- Entries in order are the ones that inserting them leaves. -/
theorem Syntax.lastEntries_sorted_eq {es : Entries} (h : es.Sorted) :
    Syntax.lastEntries es = es := by
  have hfold : ∀ (rest done : Entries), Entries.Sorted (done ++ rest) →
      rest.foldl (fun es m => Entries.insert m.1 m.2 es) done = done ++ rest := by
    intro rest
    induction rest with
    | nil => intro done _; simp
    | cons e rest ih =>
      intro done hsorted
      have hlast : ∀ e' ∈ done, e'.1 < e.1 := fun e' he' =>
        (List.pairwise_append.mp hsorted).2.2 e' he' e List.mem_cons_self
      rw [List.foldl_cons, Entries.insert_last hlast]
      have hassoc : done ++ [(e.1, e.2)] ++ rest = done ++ e :: rest := by simp
      rw [ih _ (hassoc ▸ hsorted), hassoc]
  exact hfold es [] h

mutual

/-- A value is what its tree spells. -/
theorem value_toSyntax : ∀ v : Value, v.Ordered → v.toSyntax.value = v
  | .null, _ => rfl
  | .bool _, _ => rfl
  | .number _, _ => rfl
  | .string _, _ => rfl
  | .array vs, h => by
    rw [Value.toSyntax, Syntax.value, valueSeq_toSyntax vs h]
  | .object es, h => by
    rw [Value.toSyntax, Syntax.value, valueMap_toSyntax es h.2, Syntax.lastEntries_sorted_eq h.1]

theorem valueSeq_toSyntax : ∀ vs : List Value, Value.OrderedSeq vs →
    Syntax.valueSeq (Value.syntaxSeq vs) = vs
  | [], _ => rfl
  | v :: vs, h => by
    rw [Value.syntaxSeq, Syntax.valueSeq, value_toSyntax v h.1, valueSeq_toSyntax vs h.2]

theorem valueMap_toSyntax : ∀ es : List (String × Value), Value.OrderedMap es →
    Syntax.valueMap (Value.syntaxMap es) = es
  | [], _ => rfl
  | (k, v) :: es, h => by
    rw [Value.syntaxMap, Syntax.valueMap, value_toSyntax v h.1, valueMap_toSyntax es h.2]

end

namespace Python

/-! ### Building objects -/

/-- The heap, and the first address that is free. -/
structure Memory where
  heap : Heap
  next : Address

namespace Memory

def alloc (m : Memory) (object : PyObject) : Address × Memory :=
  (m.next, { heap := Function.update m.heap m.next object, next := m.next + 1 })

def write (m : Memory) (a : Address) (object : PyObject) : Memory :=
  { m with heap := Function.update m.heap a object }

/-- `list.append`. -/
def append (m : Memory) (list item : Address) : Memory :=
  match m.heap list with
  | .list items => m.write list (.list (items ++ [item]))
  | _ => m

/-- `dict.set_item`: the value of an equal key is replaced. -/
def setItem (m : Memory) (dict key value : Address) : Memory :=
  match m.heap dict with
  | .dict entries =>
    m.write dict <| .dict <|
      if entries.any fun e => m.heap e.1 = m.heap key then
        entries.map fun e => if m.heap e.1 = m.heap key then (e.1, value) else e
      else entries ++ [(key, value)]
  | _ => m

end Memory

/-- The conversions into Python, and `Number::as_f64`. -/
structure IntoPyO3 where
  ofI64 : I64 → PyObject
  ofU64 : ℕ → PyObject
  ofF64 : F64 → PyObject
  ofStr : String → PyStr
  asF64 : Number → Option F64

/-- Integers become `int`, an `f64` a `float`, a string the `str` of its text; a
number that is no integer is its `f64`. -/
structure IntoPyO3.Lawful (into : IntoPyO3) : Prop where
  i64 : ∀ i : I64, into.ofI64 i = .int i.1
  u64 : ∀ n, into.ofU64 n = .int n
  f64 : ∀ x, into.ofF64 x = .float (.finite x)
  str : ∀ s, (into.ofStr s).text = some s
  asF64 : ∀ x, into.asF64 (.float x) = some x

def numberToPy (into : IntoPyO3) (n : Number) : PyObject :=
  match n.asI64 with
  | some i => into.ofI64 i
  | none =>
    match n.asU64 with
    | some u => into.ofU64 u
    | none =>
      match into.asF64 n with
      | some f => into.ofF64 f
      | none => .none

mutual

def jsonValueToPy (into : IntoPyO3) : Value → Memory → Address × Memory
  | .null, m => m.alloc .none
  | .bool v, m => m.alloc (.bool v)
  | .number n, m => m.alloc (numberToPy into n)
  | .string s, m => m.alloc (.str (into.ofStr s))
  | .array arr, m => (m.next, appendItems into m.next arr (m.alloc (.list [])).2)
  | .object obj, m => (m.next, setItems into m.next obj (m.alloc (.dict [])).2)

/-- `for item in arr`. -/
def appendItems (into : IntoPyO3) (list : Address) : List Value → Memory → Memory
  | [], m => m
  | item :: rest, m =>
    let (pyItem, m) := jsonValueToPy into item m
    appendItems into list rest (m.append list pyItem)

/-- `for (key, value) in obj`. -/
def setItems (into : IntoPyO3) (dict : Address) : List (String × Value) → Memory → Memory
  | [], m => m
  | (key, value) :: rest, m =>
    let (pyValue, m) := jsonValueToPy into value m
    let (pyKey, m) := m.alloc (.str (into.ofStr key))
    setItems into dict rest (m.setItem dict pyKey pyValue)

end

/-! ### What is built -/

/-- The object at `a` was built from `v` on fresh addresses, and unfolds to it in
every heap that has kept them. -/
structure Stored (v : Value) (m : Memory) (a : Address) (m' : Memory) : Prop where
  fresh : m.next ≤ a ∧ a < m'.next
  frame : ∀ c < m.next, m'.heap c = m.heap c
  unfolds : ∀ heap : Heap, (∀ c, m.next ≤ c → c < m'.next → heap c = m'.heap c) →
    Unfolds PyStr.text heap a v.toSyntax

/-- What was appended to a list. -/
structure Appended (vs : List Value) (list : Address) (done : List Address) (m m' : Memory) :
    Prop where
  grows : m.next ≤ m'.next
  frame : ∀ c < m.next, c ≠ list → m'.heap c = m.heap c
  unfolds : ∃ items, m'.heap list = .list (done ++ items) ∧
    ∀ heap : Heap, (∀ c, m.next ≤ c → c < m'.next → heap c = m'.heap c) →
      UnfoldsSeq PyStr.text heap items (Value.syntaxSeq vs)

/-- What was put into a dict. -/
structure Filled (es : List (String × Value)) (dict : Address) (done : List (Address × Address))
    (m m' : Memory) : Prop where
  grows : m.next ≤ m'.next
  frame : ∀ c < m.next, c ≠ dict → m'.heap c = m.heap c
  unfolds : ∃ entries, m'.heap dict = .dict (done ++ entries) ∧
    ∀ heap : Heap, (∀ c, m.next ≤ c → c < m'.next → heap c = m'.heap c) →
      UnfoldsMap PyStr.text heap entries (Value.syntaxMap es)

theorem alloc_stored {v : Value} {m : Memory} {object : PyObject}
    (h : ∀ heap : Heap, heap m.next = object → Unfolds PyStr.text heap m.next v.toSyntax) :
    Stored v m (m.alloc object).1 (m.alloc object).2 where
  fresh := ⟨le_rfl, Nat.lt_succ_self _⟩
  frame c hc := Function.update_of_ne hc.ne _ _
  unfolds heap hheap := h heap <| by
    rw [hheap m.next le_rfl (Nat.lt_succ_self _)]
    exact Function.update_self _ _ _

variable {into : IntoPyO3}

theorem unfolds_numberToPy (hinto : into.Lawful) (n : Number) {heap : Heap} {a : Address}
    (h : heap a = numberToPy into n) : Unfolds PyStr.text heap a (.number n) := by
  cases n with
  | int i =>
    refine .int (h.trans ?_)
    rw [numberToPy, Number.asI64]
    by_cases hsigned : i.1 < 2 ^ 63
    · rw [dif_pos hsigned]
      exact hinto.i64 _
    · have hpos : 0 ≤ i.1 := by omega
      rw [dif_neg hsigned]
      dsimp only
      rw [Number.asU64, if_pos hpos]
      dsimp only
      rw [hinto.u64, Int.toNat_of_nonneg hpos]
  | float x =>
    refine .float (h.trans ?_)
    rw [numberToPy]
    dsimp only [Number.asI64, Number.asU64]
    rw [hinto.asF64]
    exact hinto.f64 x

theorem IntoPyO3.Lawful.str_injective (hinto : into.Lawful) {s t : String}
    (h : into.ofStr s = into.ofStr t) : s = t := by
  have hs := hinto.str s
  rw [h, hinto.str t] at hs
  exact (Option.some_inj.mp hs).symm

/-- A new list, and what is appended to it. -/
theorem alloc_appended {vs : List Value} {m m' : Memory}
    (h : Appended vs m.next [] (m.alloc (.list [])).2 m') : Stored (.array vs) m m.next m' where
  fresh := ⟨le_rfl, h.grows⟩
  frame c hc := (h.frame c (Nat.lt_succ_of_lt hc) hc.ne).trans (Function.update_of_ne hc.ne _ _)
  unfolds heap hheap := by
    obtain ⟨items, hlist, hitems⟩ := h.unfolds
    refine .list ((hheap m.next le_rfl h.grows).trans hlist) (hitems heap fun c hc hc' => ?_)
    exact hheap c ((Nat.le_succ _).trans hc) hc'

/-- One more item. -/
theorem Stored.append {v : Value} {vs : List Value} {list a : Address} {done : List Address}
    {m m₁ m' : Memory} (hv : Stored v m a m₁) (hlist : list < m.next)
    (hdone : m.heap list = .list done)
    (h : Appended vs list (done ++ [a]) (m₁.write list (.list (done ++ [a]))) m') :
    m₁.append list a = m₁.write list (.list (done ++ [a])) ∧
      Appended (v :: vs) list done m m' := by
  have hgrows : m.next ≤ m₁.next := hv.fresh.1.trans hv.fresh.2.le
  refine ⟨?_, hgrows.trans h.grows, fun c hc hne => ?_, ?_⟩
  · rw [Memory.append, hv.frame list hlist, hdone]
  · rw [h.frame c (hc.trans_le hgrows) hne]
    exact (Function.update_of_ne hne _ _).trans (hv.frame c hc)
  · obtain ⟨items, hitems, hunfolds⟩ := h.unfolds
    refine ⟨a :: items, by rw [hitems, List.append_assoc, List.singleton_append],
      fun heap hheap => .cons (hv.unfolds heap fun c hc hc' => ?_)
        (hunfolds heap fun c hc hc' => hheap c (hgrows.trans hc) hc')⟩
    -- the list is not one of the addresses of the item
    have hne : c ≠ list := (hlist.trans_le hc).ne'
    rw [hheap c hc (hc'.trans_le h.grows), h.frame c hc' hne]
    exact Function.update_of_ne hne _ _

/-- A new dict, and what is put into it. -/
theorem alloc_filled {es : List (String × Value)} {m m' : Memory}
    (h : Filled es m.next [] (m.alloc (.dict [])).2 m') : Stored (.object es) m m.next m' where
  fresh := ⟨le_rfl, h.grows⟩
  frame c hc := (h.frame c (Nat.lt_succ_of_lt hc) hc.ne).trans (Function.update_of_ne hc.ne _ _)
  unfolds heap hheap := by
    obtain ⟨entries, hdict, hentries⟩ := h.unfolds
    refine .dict ((hheap m.next le_rfl h.grows).trans hdict) (hentries heap fun c hc hc' => ?_)
    exact hheap c ((Nat.le_succ _).trans hc) hc'

/-- The keys that a dict has are strings that are still to be read, and not the ones
to come. -/
def KeysApart (into : IntoPyO3) (dict : Address) (m : Memory) (done : List (Address × Address))
    (keys : List String) : Prop :=
  ∀ e ∈ done, e.1 < m.next ∧ e.1 ≠ dict ∧
    ∃ k, m.heap e.1 = .str (into.ofStr k) ∧ k ∉ keys

/-- One more entry: its value, then its key, and then the dict is written to. -/
theorem Stored.setItem (hinto : into.Lawful) {v : Value} {es : List (String × Value)}
    (key : String) {dict a : Address} {done : List (Address × Address)} {m m₁ m₂ m' : Memory}
    (hv : Stored v m a m₁) (hm₂ : m₂ = (m₁.alloc (.str (into.ofStr key))).2)
    (hdict : dict < m.next) (hdone : m.heap dict = .dict done)
    (hkeys : KeysApart into dict m done (key :: es.map Prod.fst))
    (hsorted : key ∉ es.map Prod.fst)
    (h : KeysApart into dict (m₂.write dict (.dict (done ++ [(m₁.next, a)])))
        (done ++ [(m₁.next, a)]) (es.map Prod.fst) →
      Filled es dict (done ++ [(m₁.next, a)])
        (m₂.write dict (.dict (done ++ [(m₁.next, a)]))) m') :
    m₂.setItem dict m₁.next a = m₂.write dict (.dict (done ++ [(m₁.next, a)])) ∧
      Filled ((key, v) :: es) dict done m m' := by
  have hgrows : m.next ≤ m₁.next := hv.fresh.1.trans hv.fresh.2.le
  have hnext : m₁.next < m₂.next := by
    rw [hm₂]
    exact Nat.lt_succ_self _
  have hkey : m₂.heap m₁.next = .str (into.ofStr key) := by
    rw [hm₂]
    exact Function.update_self _ _ _
  have hkeep : ∀ c < m.next, m₂.heap c = m.heap c := by
    intro c hc
    rw [hm₂]
    exact (Function.update_of_ne (hc.trans_le hgrows).ne _ _).trans (hv.frame c hc)
  -- no key that is there is equal to the new one
  have hfresh : (done.any fun e => m₂.heap e.1 = m₂.heap m₁.next) = false := by
    rw [List.any_eq_false]
    intro e he heq
    obtain ⟨hlt, -, k, hk, hmem⟩ := hkeys e he
    rw [decide_eq_true_eq, hkeep e.1 hlt, hk, hkey, PyObject.str.injEq] at heq
    exact hmem (hinto.str_injective heq ▸ List.mem_cons_self)
  have hapart : KeysApart into dict (m₂.write dict (.dict (done ++ [(m₁.next, a)])))
      (done ++ [(m₁.next, a)]) (es.map Prod.fst) := by
    intro e he
    rcases List.mem_append.mp he with he | he
    · obtain ⟨hlt, hne, k, hk, hmem⟩ := hkeys e he
      refine ⟨(hlt.trans_le hgrows).trans hnext, hne, k, ?_,
        fun hin => hmem (List.mem_cons_of_mem _ hin)⟩
      exact (Function.update_of_ne hne _ _).trans ((hkeep e.1 hlt).trans hk)
    · obtain rfl := List.mem_singleton.mp he
      have hne : m₁.next ≠ dict := (hdict.trans_le hgrows).ne'
      exact ⟨hnext, hne, key,
        (Function.update_of_ne hne _ _).trans hkey, hsorted⟩
  have h := h hapart
  have hlater : m₂.next ≤ m'.next := h.grows
  refine ⟨?_, hgrows.trans (hnext.le.trans hlater), fun c hc hne => ?_, ?_⟩
  · rw [Memory.setItem, hkeep dict hdict, hdone]
    dsimp only
    rw [if_neg (by rw [hfresh]; simp)]
  · rw [h.frame c ((hc.trans_le hgrows).trans hnext) hne]
    exact (Function.update_of_ne hne _ _).trans (hkeep c hc)
  · obtain ⟨entries, hentries, hunfolds⟩ := h.unfolds
    -- what is above the dict is as it was before the dict was written to
    have hread : ∀ heap : Heap, (∀ c, m.next ≤ c → c < m'.next → heap c = m'.heap c) →
        ∀ c, m.next ≤ c → c < m₂.next → heap c = m₂.heap c := by
      intro heap hheap c hc hc'
      have hne : c ≠ dict := (hdict.trans_le hc).ne'
      rw [hheap c hc (hc'.trans_le hlater), h.frame c hc' hne]
      exact Function.update_of_ne hne _ _
    refine ⟨(m₁.next, a) :: entries, by rw [hentries, List.append_assoc, List.singleton_append],
      fun heap hheap => .cons ?_ (hinto.str key) (hv.unfolds heap fun c hc hc' => ?_)
        (hunfolds heap fun c hc hc' => hheap c ?_ hc')⟩
    · rw [hread heap hheap m₁.next hgrows hnext, hkey]
    · rw [hread heap hheap c hc (hc'.trans hnext), hm₂]
      exact Function.update_of_ne hc'.ne _ _
    · exact hgrows.trans (hnext.le.trans hc)

mutual

/-- The object that is built from a value unfolds to it. -/
theorem jsonValueToPy_stored (hinto : into.Lawful) : ∀ (v : Value) (m : Memory), v.Ordered →
    Stored v m (jsonValueToPy into v m).1 (jsonValueToPy into v m).2
  | .null, _, _ => alloc_stored fun _ h => .none h
  | .bool _, _, _ => alloc_stored fun _ h => .bool h
  | .number n, _, _ => alloc_stored fun _ h => unfolds_numberToPy hinto n h
  | .string s, _, _ => alloc_stored fun _ h => .str h (hinto.str s)
  | .array vs, m, hordered => by
    rw [jsonValueToPy]
    exact alloc_appended (appendItems_appended hinto vs m.next [] _ hordered
      (Nat.lt_succ_self _) (Function.update_self _ _ _))
  | .object es, m, hordered => by
    rw [jsonValueToPy]
    exact alloc_filled (setItems_filled hinto es m.next [] _ hordered.1 hordered.2
      (Nat.lt_succ_self _) (Function.update_self _ _ _) fun e he => absurd he (by simp))

theorem appendItems_appended (hinto : into.Lawful) : ∀ (vs : List Value) (list : Address)
    (done : List Address) (m : Memory), Value.OrderedSeq vs → list < m.next →
    m.heap list = .list done → Appended vs list done m (appendItems into list vs m)
  | [], _, done, _, _, _, hdone =>
    ⟨le_rfl, fun _ _ _ => rfl, [], by rw [List.append_nil]; exact hdone, fun _ _ => .nil⟩
  | v :: vs, list, done, m, hordered, hlist, hdone => by
    have hv := jsonValueToPy_stored hinto v m hordered.1
    have hgrows := hv.fresh.1.trans hv.fresh.2.le
    obtain ⟨happend, hall⟩ := hv.append hlist hdone
      (appendItems_appended hinto vs list _ _ hordered.2 (hlist.trans_le hgrows)
        (Function.update_self _ _ _))
    rw [appendItems]
    dsimp only
    rw [happend]
    exact hall

theorem setItems_filled (hinto : into.Lawful) : ∀ (es : List (String × Value)) (dict : Address)
    (done : List (Address × Address)) (m : Memory), Entries.Sorted es → Value.OrderedMap es →
    dict < m.next → m.heap dict = .dict done →
    KeysApart into dict m done (es.map Prod.fst) →
    Filled es dict done m (setItems into dict es m)
  | [], _, done, _, _, _, _, hdone, _ =>
    ⟨le_rfl, fun _ _ _ => rfl, [], by rw [List.append_nil]; exact hdone, fun _ _ => .nil⟩
  | (key, v) :: es, dict, done, m, hsorted, hordered, hdict, hdone, hkeys => by
    have hv := jsonValueToPy_stored hinto v m hordered.1
    have hgrows := hv.fresh.1.trans hv.fresh.2.le
    obtain ⟨hfirst, hrest⟩ := List.pairwise_cons.mp hsorted
    have hkey : key ∉ es.map Prod.fst := by
      intro hmem
      obtain ⟨e, he, heq⟩ := List.mem_map.mp hmem
      exact (hfirst e he).ne heq.symm
    obtain ⟨hset, hall⟩ := hv.setItem hinto key rfl hdict hdone hkeys hkey fun hapart =>
      setItems_filled hinto es dict _ _ hrest hordered.2
        ((hdict.trans_le hgrows).trans (Nat.lt_succ_self _)) (Function.update_self _ _ _) hapart
    rw [setItems]
    dsimp only
    rw [show ((jsonValueToPy into v m).2.alloc (.str (into.ofStr key))).1 =
      (jsonValueToPy into v m).2.next from rfl, hset]
    exact hall

end

/-- JSON survives the Python boundary.  Every `serde_json` value within the budgets of
the conversion is returned unchanged when it is converted to Python, anywhere in
memory, and back. -/
theorem json_survives_python {api : PyO3} (hapi : api.Lawful) (hinto : into.Lawful)
    (layout : Layout) (m : Memory) (v : JsonValue) (hwithin : v.1.toSyntax.WithinBudgets layout) :
    pyAnyToJsonValue api layout (jsonValueToPy into v.1 m).2.heap (jsonValueToPy into v.1 m).1 =
      .ok v.1 := by
  have hstored := jsonValueToPy_stored hinto v.1 m v.2
  refine (pyAnyToJsonValueWith_eq_ok hapi (checkChildren_admits layout)).mpr
    ⟨v.1.toSyntax, hstored.unfolds _ fun _ _ _ => rfl, hwithin, ?_⟩
  rw [value_toSyntax v.1 v.2]

namespace PyStr

theorem toNat_lt (c : Char) : c.toNat < 0x110000 := by
  rcases c.valid with h | ⟨-, h⟩
  · exact h.trans (by decide)
  · exact h

def ofString (s : String) : PyStr := s.toList.map fun c => ⟨c.toNat, toNat_lt c⟩

theorem charOf_toNat (c : Char) : charOf ⟨c.toNat, toNat_lt c⟩ = some c := by
  have hvalid : c.toNat.isValidChar := c.valid
  rw [charOf, dif_pos hvalid]
  rfl

theorem text_ofString (s : String) : (ofString s).text = some s := by
  have hall : ∀ cs : List Char,
      (cs.map fun c => (⟨c.toNat, toNat_lt c⟩ : Fin 0x110000)).mapM charOf = some cs := by
    intro cs
    induction cs with
    | nil => rfl
    | cons c cs ih => simp [charOf_toNat, ih]
  rw [text, ofString, hall, Option.map_some, String.ofList_toList]

end PyStr

/-- The conversions of PyO3 into Python; `as_f64` is never asked of an integer. -/
def IntoPyO3.documented : IntoPyO3 where
  ofI64 i := .int i.1
  ofU64 n := .int n
  ofF64 x := .float (.finite x)
  ofStr := PyStr.ofString
  asF64
    | .float x => some x
    | .int _ => none

theorem IntoPyO3.documented_lawful : IntoPyO3.documented.Lawful where
  i64 _ := rfl
  u64 _ := rfl
  f64 _ := rfl
  str := PyStr.text_ofString
  asF64 _ := rfl

/-- An object with a key of every kind of number, in order. -/
def sampleValue : JsonValue :=
  ⟨.object [("float", .number (.float ⟨false, 2 ^ 52, -52, by decide⟩)),
    ("list", .array [.null, .bool true, .string "x"]),
    ("max", .number (.int ⟨2 ^ 64 - 1, by decide⟩)),
    ("min", .number (.int ⟨-2 ^ 63, by decide⟩))], by
    refine ⟨?_, trivial, ⟨trivial, trivial, trivial, trivial⟩, trivial, trivial, trivial⟩
    simp only [Entries.Sorted]
    decide⟩

theorem json_survives_python_sample :
    PyO3.documented.Lawful ∧ IntoPyO3.documented.Lawful ∧
    sampleValue.1.toSyntax.WithinBudgets .lp64 ∧
    ∃ heap root, pyAnyToJsonValue .documented .lp64 heap root = .ok sampleValue.1 := by
  have hwithin : sampleValue.1.toSyntax.WithinBudgets .lp64 :=
    ⟨by decide, by decide, by decide⟩
  exact ⟨PyO3.documented_lawful, IntoPyO3.documented_lawful, hwithin, _, _,
    json_survives_python PyO3.documented_lawful IntoPyO3.documented_lawful .lp64
      ⟨fun _ => .none, 0⟩ sampleValue hwithin⟩

end Python

end Unitree
