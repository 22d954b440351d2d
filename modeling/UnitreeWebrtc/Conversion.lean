/-
What the conversion of Python objects accepts.

A call that succeeds has converted a tree and paid for it (`Sound`), and a tree that
can be paid for is converted (`Complete`): both are shown of one call from the calls
one level down, and from there of all levels.  The second needs that the containers
of the path lead to the one at hand; a container among them would be on a cycle, and
a tree has none.

* `convertScalar_sound`, `Unfolds.scalar_or_container` — the cascade of conversions;
* `convertJson_sound`, `convertJson_complete` — the walk succeeds exactly on the
  trees within the budgets, whatever `check_children` does, as long as it lets
  through what fits;
* `bounded_trees_exact` — what `py_any_to_json_value` accepts.
-/
import UnitreeWebrtc.Python

namespace Unitree

namespace Python

variable {api : PyO3} {layout : Layout} {heap : Heap} {check : Check}
  {text : PyStr → Option String}

/-! ### The budget -/

/-- What was charged. -/
def Spends (budget budget' : JsonBudget) (nodes bytes : ℕ) : Prop :=
  budget'.remainingNodes + nodes = budget.remainingNodes ∧
  budget'.remainingBytes + bytes = budget.remainingBytes

theorem chargeBytes_eq_ok {budget budget' : JsonBudget} {n : ℕ} :
    budget.chargeBytes n = .ok budget' ↔ Spends budget budget' 0 n := by
  obtain ⟨nodes, bytes⟩ := budget
  obtain ⟨nodes', bytes'⟩ := budget'
  rw [JsonBudget.chargeBytes, Spends]
  dsimp only
  split_ifs with hle
  · rw [Except.ok.injEq, JsonBudget.mk.injEq]
    omega
  · simp only [false_iff]
    omega

theorem chargeNode_eq_ok {budget budget' : JsonBudget} :
    budget.chargeNode layout = .ok budget' ↔ Spends budget budget' 1 layout.value := by
  rw [JsonBudget.chargeNode]
  split_ifs with hle
  · rw [chargeBytes_eq_ok, Spends, Spends]
    dsimp only
    omega
  · simp only [false_iff, Spends]
    omega

theorem copyString_eq_ok (hapi : api.Lawful) {object : PyObject} {budget budget' : JsonBudget}
    {t : String} :
    budget.copyString api object = .ok (t, budget') ↔
      ∃ s, object = .str s ∧ PyStr.text s = some t ∧ Spends budget budget' 0 t.utf8ByteSize := by
  cases object with
  | str s =>
    simp only [JsonBudget.copyString, hapi.str, PyObject.str.injEq, exists_eq_left']
    rcases PyStr.text s with _ | t'
    · simp
    · dsimp only
      rcases hcharge : budget.chargeBytes t'.utf8ByteSize with e | b
      · simp only [reduceCtorEq, false_iff, Option.some_inj]
        rintro ⟨rfl, hspends⟩
        rw [chargeBytes_eq_ok.mpr hspends] at hcharge
        exact absurd hcharge (by simp)
      · rw [Except.ok.injEq, Prod.mk.injEq, Option.some_inj]
        refine and_congr_right fun ht => ?_
        rw [← ht, ← chargeBytes_eq_ok, hcharge, Except.ok.injEq]
  | none => simp [JsonBudget.copyString]
  | bool b => simp [JsonBudget.copyString]
  | int i => simp [JsonBudget.copyString]
  | float x => simp [JsonBudget.copyString]
  | list items => simp [JsonBudget.copyString]
  | dict entries => simp [JsonBudget.copyString]
  | other => simp [JsonBudget.copyString]

/-! ### The cascade -/

theorem convertScalar_int (hapi : api.Lawful) (i : ℤ) (budget : JsonBudget) :
    convertScalar api (.int i) budget =
      if h : -2 ^ 63 ≤ i ∧ i < 2 ^ 64 then some (.ok (.number (.int ⟨i, h⟩), budget))
      else some (.error (.valueError "JSON integer must fit signed or unsigned 64-bit range")) := by
  have hbool : api.extractBool (.int i) = none :=
    Option.eq_none_iff_forall_ne_some.mpr fun b hb => by
      simpa using (hapi.bool _ _).mp hb
  rw [convertScalar, if_neg (by simp [PyObject.isNone]), hbool]
  dsimp only
  rw [hapi.i64, hapi.u64]
  simp only [PyObject.index, Option.bind_some, PyObject.isInt, if_true]
  -- an `i64`, a `u64` that is none, and the rest
  by_cases hsigned : -2 ^ 63 ≤ i ∧ i < 2 ^ 63
  · rw [dif_pos hsigned, dif_pos ⟨hsigned.1, by omega⟩]
    rfl
  · rw [dif_neg hsigned]
    by_cases hunsigned : 0 ≤ i ∧ i < 2 ^ 64
    · rw [if_pos hunsigned, dif_pos ⟨by omega, hunsigned.2⟩]
      have hvalue : ((i.toNat % 2 ^ 64 : ℕ) : ℤ) = i := by omega
      simp only [Number.ofU64, hvalue]
    · rw [if_neg hunsigned, dif_neg (by omega)]

/-- The objects that are neither `None`, a `bool` nor an `int`. -/
theorem convertScalar_rest (hapi : api.Lawful) {object : PyObject}
    (hnone : object.isNone = false) (hint : object.isInt = false) (budget : JsonBudget) :
    convertScalar api object budget = convertFloatOrString api object budget := by
  have hindex : object.index = none := by
    cases object with
    | int i => exact absurd hint (by simp [PyObject.isInt])
    | bool b => exact absurd hint (by simp [PyObject.isInt])
    | _ => rfl
  have hbool : api.extractBool object = none :=
    Option.eq_none_iff_forall_ne_some.mpr fun b hb => by
      rw [(hapi.bool _ _).mp hb] at hint
      exact absurd hint (by simp [PyObject.isInt])
  rw [convertScalar, if_neg (by simp [hnone]), hbool]
  dsimp only
  rw [hapi.i64, hapi.u64, hindex]
  dsimp only [Option.bind_none]
  rw [if_neg (by simp [hint])]

theorem convertScalar_bool (hapi : api.Lawful) (b : Bool) (budget : JsonBudget) :
    convertScalar api (.bool b) budget = some (.ok (.bool b, budget)) := by
  rw [convertScalar, if_neg (by simp [PyObject.isNone]), (hapi.bool _ _).mpr rfl]

/-- Containers are left to the walk. -/
theorem convertScalar_container (hapi : api.Lawful) {object : PyObject}
    (h : object.isContainer = true) (budget : JsonBudget) :
    convertScalar api object budget = none := by
  cases object with
  | list items =>
    rw [convertScalar_rest hapi rfl rfl, convertFloatOrString, hapi.f64 _ rfl]
    rfl
  | dict entries =>
    rw [convertScalar_rest hapi rfl rfl, convertFloatOrString, hapi.f64 _ rfl]
    rfl
  | _ => exact absurd h (by simp [PyObject.isContainer])

theorem Spends.refl (budget : JsonBudget) : Spends budget budget 0 0 := ⟨rfl, rfl⟩

theorem Spends.eq {budget budget' : JsonBudget} (h : Spends budget budget' 0 0) :
    budget' = budget := by
  obtain ⟨nodes, bytes⟩ := budget
  obtain ⟨nodes', bytes'⟩ := budget'
  rw [JsonBudget.mk.injEq]
  exact h

theorem Spends.trans {b₁ b₂ b₃ : JsonBudget} {m n k l : ℕ} (h₁ : Spends b₁ b₂ m k)
    (h₂ : Spends b₂ b₃ n l) : Spends b₁ b₃ (m + n) (k + l) := by
  rw [Spends] at *
  omega

/-- A scalar is converted to what it unfolds to. -/
theorem convertScalar_sound (layout : Layout) (hapi : api.Lawful) {a : Address} {v : Value}
    {budget budget' : JsonBudget}
    (h : convertScalar api (heap a) budget = some (.ok (v, budget'))) :
    ∃ t, Unfolds PyStr.text heap a t ∧ t.nesting = 0 ∧ v = t.value ∧ t.nodes = 1 ∧
      ∃ n, t.bytes layout = layout.value + n ∧ Spends budget budget' 0 n := by
  cases hobject : heap a with
  | none =>
    rw [hobject] at h
    obtain ⟨rfl, rfl⟩ : Value.null = v ∧ budget = budget' := by
      simpa [convertScalar, PyObject.isNone] using h
    exact ⟨.null, .none hobject, rfl, rfl, rfl, 0, rfl, .refl _⟩
  | bool b =>
    rw [hobject, convertScalar_bool hapi] at h
    obtain ⟨rfl, rfl⟩ : Value.bool b = v ∧ budget = budget' := by simpa using h
    exact ⟨.bool b, .bool hobject, rfl, rfl, rfl, 0, rfl, .refl _⟩
  | int i =>
    rw [hobject, convertScalar_int hapi] at h
    split_ifs at h with hrange
    · obtain ⟨rfl, rfl⟩ : Value.number (.int ⟨i, hrange⟩) = v ∧ budget = budget' := by
        simpa using h
      exact ⟨.number (.int ⟨i, hrange⟩), .int hobject, rfl, rfl, rfl, 0, rfl, .refl _⟩
    · exact absurd h (by simp)
  | float x =>
    rw [hobject, convertScalar_rest hapi rfl rfl, convertFloatOrString, hapi.f64 _ rfl] at h
    cases x with
    | finite x =>
      obtain ⟨rfl, rfl⟩ : Value.number (.float x) = v ∧ budget = budget' := by
        simpa [PyObject.asFloat, fromF64] using h
      exact ⟨.number (.float x), .float hobject, rfl, rfl, rfl, 0, rfl, .refl _⟩
    | infinite negative => exact absurd h (by simp [PyObject.asFloat, fromF64])
    | nan => exact absurd h (by simp [PyObject.asFloat, fromF64])
  | str s =>
    rw [hobject, convertScalar_rest hapi rfl rfl, convertFloatOrString, hapi.f64 _ rfl] at h
    simp only [PyObject.asFloat, PyObject.isStr, if_true] at h
    rcases hcopy : budget.copyString api (.str s) with e | ⟨t, b⟩
    · rw [hcopy] at h
      exact absurd h (by simp)
    · rw [hcopy] at h
      obtain ⟨rfl, rfl⟩ : Value.string t = v ∧ b = budget' := by simpa using h
      obtain ⟨s', hs, ht, hspends⟩ := (copyString_eq_ok hapi).mp hcopy
      obtain rfl := PyObject.str.inj hs
      exact ⟨.string t, .str hobject ht, rfl, rfl, rfl, _, rfl, hspends⟩
  | list items =>
    rw [hobject, convertScalar_container hapi rfl] at h
    exact absurd h (by simp)
  | dict entries =>
    rw [hobject, convertScalar_container hapi rfl] at h
    exact absurd h (by simp)
  | other =>
    rw [hobject, convertScalar_rest hapi rfl rfl, convertFloatOrString, hapi.f64 _ rfl] at h
    exact absurd h (by simp [PyObject.asFloat, PyObject.isStr])

/-- The scalar trees, and the containers. -/
theorem Unfolds.scalar_or_container {a : Address} {t : Syntax}
    (h : Unfolds PyStr.text heap a t) (layout : Layout) (hapi : api.Lawful) :
    (t.nodes = 1 ∧ t.nesting = 0 ∧ ∃ n, t.bytes layout = layout.value + n ∧
      ∀ budget budget', Spends budget budget' 0 n →
        convertScalar api (heap a) budget = some (.ok (t.value, budget'))) ∨
    (∃ items ts, heap a = .list items ∧ t = .array ts ∧ UnfoldsSeq PyStr.text heap items ts) ∨
    ∃ entries ms, heap a = .dict entries ∧ t = .object ms ∧
      UnfoldsMap PyStr.text heap entries ms := by
  cases h with
  | none ha =>
    refine Or.inl ⟨rfl, rfl, 0, rfl, fun budget budget' hspends => ?_⟩
    rw [ha, hspends.eq]
    simp [convertScalar, PyObject.isNone, Syntax.value]
  | bool ha =>
    refine Or.inl ⟨rfl, rfl, 0, rfl, fun budget budget' hspends => ?_⟩
    rw [ha, convertScalar_bool hapi, hspends.eq, Syntax.value]
  | @int _ i ha =>
    refine Or.inl ⟨rfl, rfl, 0, rfl, fun budget budget' hspends => ?_⟩
    rw [ha, convertScalar_int hapi, dif_pos i.2, hspends.eq, Syntax.value]
  | float ha =>
    refine Or.inl ⟨rfl, rfl, 0, rfl, fun budget budget' hspends => ?_⟩
    rw [ha, convertScalar_rest hapi rfl rfl, convertFloatOrString, hapi.f64 _ rfl, hspends.eq]
    rfl
  | str ha ht =>
    refine Or.inl ⟨rfl, rfl, _, rfl, fun budget budget' hspends => ?_⟩
    rw [ha, convertScalar_rest hapi rfl rfl, convertFloatOrString, hapi.f64 _ rfl]
    simp only [PyObject.asFloat, PyObject.isStr, if_true]
    rw [(copyString_eq_ok hapi).mpr ⟨_, rfl, ht, hspends⟩, Syntax.value]
  | list ha hitems => exact Or.inr (Or.inl ⟨_, _, ha, rfl, hitems⟩)
  | dict ha hentries => exact Or.inr (Or.inr ⟨_, _, ha, rfl, hentries⟩)

/-! ### The walk -/

/-- What a call converts is a tree of so many levels, and was paid for. -/
def Sound (layout : Layout) (heap : Heap) (levels : ℕ) (convert : Convert) : Prop :=
  ∀ {a active budget v active' budget'}, convert a active budget = .ok (v, active', budget') →
    active' = active ∧ ∃ t, Unfolds PyStr.text heap a t ∧ t.nesting ≤ levels ∧ v = t.value ∧
      Spends budget budget' t.nodes (t.bytes layout)

/-- A tree of so many levels that can be paid for is converted, if everything on the
path leads to it. -/
def Complete (layout : Layout) (heap : Heap) (levels : ℕ) (convert : Convert) : Prop :=
  ∀ {a t active budget budget'}, Unfolds PyStr.text heap a t → t.nesting ≤ levels →
    Spends budget budget' t.nodes (t.bytes layout) →
    (∀ c ∈ active, Relation.TransGen (Child heap) c a) →
    convert a active budget = .ok (t.value, active, budget')

/-- A check that lets through as many children as there are nodes and slots for. -/
def Admits (layout : Layout) (check : Check) : Prop :=
  ∀ budget count, count ≤ budget.remainingNodes → count * layout.value ≤ budget.remainingBytes →
    check budget count = .ok ()

theorem checkChildren_admits (layout : Layout) :
    Admits layout fun budget count => budget.checkChildren layout count := by
  intro budget count hnodes hbytes
  have hslots : count ≤ budget.remainingBytes / layout.value :=
    (Nat.le_div_iff_mul_le layout.value_pos).mpr hbytes
  show budget.checkChildren layout count = .ok ()
  rw [JsonBudget.checkChildren, if_neg (by omega), if_neg (by omega)]

variable {levels : ℕ} {convert : Convert}

theorem convertItems_sound (hconvert : Sound layout heap levels convert) {items : List Address}
    {vs vs' : List Value} {active active' : Finset Address} {budget budget' : JsonBudget}
    (h : convertItems convert items vs active budget = .ok (vs', active', budget')) :
    active' = active ∧ ∃ ts, UnfoldsSeq PyStr.text heap items ts ∧ Syntax.nestingSeq ts ≤ levels ∧
      vs' = vs ++ Syntax.valueSeq ts ∧
      Spends budget budget' (Syntax.nodesSeq ts) (Syntax.bytesSeq layout ts) := by
  induction items generalizing vs active budget with
  | nil =>
    simp only [convertItems, Except.ok.injEq, Prod.mk.injEq] at h
    obtain ⟨rfl, rfl, rfl⟩ := h
    exact ⟨rfl, [], .nil, Nat.zero_le _, by simp [Syntax.valueSeq], .refl _⟩
  | cons item rest ih =>
    rw [convertItems] at h
    rcases hitem : convert item active budget with e | ⟨v, active₁, budget₁⟩
    · rw [hitem] at h
      exact absurd h (by simp)
    rw [hitem] at h
    obtain ⟨rfl, t, ht, hnesting, rfl, hspends⟩ := hconvert hitem
    obtain ⟨hactive, ts, hts, hnesting', rfl, hspends'⟩ := ih h
    refine ⟨hactive, t :: ts, .cons ht hts, max_le hnesting hnesting', ?_, hspends.trans hspends'⟩
    rw [Syntax.valueSeq, List.append_assoc, List.singleton_append]

theorem convertEntries_sound (hapi : api.Lawful) (hconvert : Sound layout heap levels convert)
    {entries : List (Address × Address)} {es es' : Entries} {active active' : Finset Address}
    {budget budget' : JsonBudget}
    (h : convertEntries api layout heap convert entries es active budget =
      .ok (es', active', budget')) :
    active' = active ∧ ∃ ms, UnfoldsMap PyStr.text heap entries ms ∧
      Syntax.nestingMap ms ≤ levels ∧
      es' = (Syntax.valueMap ms).foldl (fun es m => Entries.insert m.1 m.2 es) es ∧
      Spends budget budget' (Syntax.nodesMap ms) (Syntax.bytesMap layout ms) := by
  induction entries generalizing es active budget with
  | nil =>
    simp only [convertEntries, Except.ok.injEq, Prod.mk.injEq] at h
    obtain ⟨rfl, rfl, rfl⟩ := h
    exact ⟨rfl, [], .nil, Nat.zero_le _, rfl, .refl _⟩
  | cons entry rest ih =>
    obtain ⟨key, value⟩ := entry
    rw [convertEntries] at h
    rcases hheader : budget.chargeBytes layout.string with e | budget₁
    · rw [hheader] at h
      exact absurd h (by simp)
    rw [hheader] at h
    dsimp only at h
    rcases hkey : budget₁.copyString api (heap key) with e | ⟨k, budget₂⟩
    · rw [hkey] at h
      exact absurd h (by simp)
    rw [hkey] at h
    dsimp only at h
    rcases hvalue : convert value active budget₂ with e | ⟨v, active₃, budget₃⟩
    · rw [hvalue] at h
      exact absurd h (by simp)
    rw [hvalue] at h
    obtain ⟨s, hs, hk, hspends₂⟩ := (copyString_eq_ok hapi).mp hkey
    obtain ⟨rfl, t, ht, hnesting, rfl, hspends₃⟩ := hconvert hvalue
    obtain ⟨hactive, ms, hms, hnesting', rfl, hspends₄⟩ := ih h
    refine ⟨hactive, (k, t) :: ms, .cons hs hk ht hms, max_le hnesting hnesting', rfl, ?_⟩
    have hpaid := (((chargeBytes_eq_ok.mp hheader).trans hspends₂).trans hspends₃).trans hspends₄
    rwa [Nat.zero_add] at hpaid

theorem convertItems_complete (hconvert : Complete layout heap levels convert)
    {items : List Address} {ts : List Syntax} (hts : UnfoldsSeq PyStr.text heap items ts)
    {vs : List Value} {active : Finset Address} {budget budget' : JsonBudget}
    (hnesting : Syntax.nestingSeq ts ≤ levels)
    (hspends : Spends budget budget' (Syntax.nodesSeq ts) (Syntax.bytesSeq layout ts))
    (hactive : ∀ c ∈ active, ∀ b ∈ items, Relation.TransGen (Child heap) c b) :
    convertItems convert items vs active budget =
      .ok (vs ++ Syntax.valueSeq ts, active, budget') := by
  induction items generalizing ts vs budget with
  | nil =>
    cases hts
    rw [convertItems, hspends.eq, Syntax.valueSeq, List.append_nil]
  | cons item rest ih =>
    cases hts with
    | @cons _ t _ ts ht hts =>
      rw [Syntax.nestingSeq] at hnesting
      rw [Syntax.nodesSeq, Syntax.bytesSeq] at hspends
      -- what is left after the first one
      have hfirst : Spends budget ⟨budget.remainingNodes - t.nodes,
          budget.remainingBytes - t.bytes layout⟩ t.nodes (t.bytes layout) := by
        rw [Spends] at hspends ⊢
        dsimp only
        omega
      rw [convertItems, hconvert ht (le_trans (le_max_left _ _) hnesting) hfirst
        fun c hc => hactive c hc _ List.mem_cons_self]
      dsimp only
      rw [ih hts (le_trans (le_max_right _ _) hnesting) ?_
        fun c hc b hb => hactive c hc b (List.mem_cons_of_mem _ hb)]
      · rw [Syntax.valueSeq, List.append_assoc, List.singleton_append]
      · rw [Spends] at hspends ⊢
        dsimp only
        omega

theorem convertEntries_complete (hapi : api.Lawful)
    (hconvert : Complete layout heap levels convert) {entries : List (Address × Address)}
    {ms : List (String × Syntax)} (hms : UnfoldsMap PyStr.text heap entries ms) {es : Entries}
    {active : Finset Address} {budget budget' : JsonBudget}
    (hnesting : Syntax.nestingMap ms ≤ levels)
    (hspends : Spends budget budget' (Syntax.nodesMap ms) (Syntax.bytesMap layout ms))
    (hactive : ∀ c ∈ active, ∀ e ∈ entries, Relation.TransGen (Child heap) c e.2) :
    convertEntries api layout heap convert entries es active budget =
      .ok ((Syntax.valueMap ms).foldl (fun es m => Entries.insert m.1 m.2 es) es, active,
        budget') := by
  induction entries generalizing ms es budget with
  | nil =>
    cases hms
    rw [convertEntries, hspends.eq]
    rfl
  | cons entry rest ih =>
    cases hms with
    | @cons key value s k t _ ms hkey hk ht hms =>
      rw [Syntax.nestingMap] at hnesting
      rw [Syntax.nodesMap, Syntax.bytesMap] at hspends
      -- what is left after the header, the key and the value
      have hheader : Spends budget ⟨budget.remainingNodes,
          budget.remainingBytes - layout.string⟩ 0 layout.string := by
        rw [Spends] at hspends ⊢
        dsimp only
        omega
      have hcopied : Spends ⟨budget.remainingNodes, budget.remainingBytes - layout.string⟩
          ⟨budget.remainingNodes, budget.remainingBytes - layout.string - k.utf8ByteSize⟩
          0 k.utf8ByteSize := by
        rw [Spends] at hspends ⊢
        dsimp only
        omega
      have hfirst : Spends
          ⟨budget.remainingNodes, budget.remainingBytes - layout.string - k.utf8ByteSize⟩
          ⟨budget.remainingNodes - t.nodes,
            budget.remainingBytes - layout.string - k.utf8ByteSize - t.bytes layout⟩
          t.nodes (t.bytes layout) := by
        rw [Spends] at hspends ⊢
        dsimp only
        omega
      rw [convertEntries, chargeBytes_eq_ok.mpr hheader]
      dsimp only
      rw [(copyString_eq_ok hapi).mpr ⟨s, hkey, hk, hcopied⟩]
      dsimp only
      rw [hconvert ht (le_trans (le_max_left _ _) hnesting) hfirst
        fun c hc => hactive c hc (key, value) List.mem_cons_self]
      dsimp only
      rw [ih hms (le_trans (le_max_right _ _) hnesting) ?_
        fun c hc e he => hactive c hc e (List.mem_cons_of_mem _ he)]
      · rfl
      · rw [Spends] at hspends ⊢
        dsimp only
        omega

/-- A container, without its own slot. -/
theorem convertContainer_sound (hapi : api.Lawful) (hconvert : Sound layout heap levels convert)
    {a : Address} {active active' : Finset Address} {budget budget' : JsonBudget} {v : Value}
    (h : convertContainer api layout heap check convert a active budget =
      .ok (v, active', budget')) :
    active' = active ∧ ∃ t, Unfolds PyStr.text heap a t ∧ t.nesting ≤ levels + 1 ∧ v = t.value ∧
      ∃ m n, t.nodes = 1 + m ∧ t.bytes layout = layout.value + n ∧ Spends budget budget' m n := by
  rw [convertContainer] at h
  cases hobject : heap a with
  | list items =>
    rw [hobject] at h
    dsimp only at h
    rcases hcheck : check budget items.length with e | _
    · rw [hcheck] at h
      exact absurd h (by simp)
    rw [hcheck] at h
    dsimp only at h
    rcases hitems : convertItems convert items [] active budget with e | ⟨vs, active₁, budget₁⟩
    · rw [hitems] at h
      exact absurd h (by simp)
    rw [hitems] at h
    simp only [Except.ok.injEq, Prod.mk.injEq] at h
    obtain ⟨rfl, rfl, rfl⟩ := h
    obtain ⟨hactive, ts, hts, hnesting, rfl, hspends⟩ := convertItems_sound hconvert hitems
    refine ⟨hactive, .array ts, .list hobject hts, ?_, rfl, _, _, rfl, rfl, hspends⟩
    rw [Syntax.nesting]
    omega
  | dict entries =>
    rw [hobject] at h
    dsimp only at h
    rcases hcheck : check budget entries.length with e | _
    · rw [hcheck] at h
      exact absurd h (by simp)
    rw [hcheck] at h
    dsimp only at h
    rcases hentries : convertEntries api layout heap convert entries [] active budget with
      e | ⟨vs, active₁, budget₁⟩
    · rw [hentries] at h
      exact absurd h (by simp)
    rw [hentries] at h
    simp only [Except.ok.injEq, Prod.mk.injEq] at h
    obtain ⟨rfl, rfl, rfl⟩ := h
    obtain ⟨hactive, ms, hms, hnesting, rfl, hspends⟩ := convertEntries_sound hapi hconvert hentries
    refine ⟨hactive, .object ms, .dict hobject hms, ?_, rfl, _, _, rfl, rfl, hspends⟩
    rw [Syntax.nesting]
    omega
  | _ =>
    rw [hobject] at h
    exact absurd h (by simp)

/-- One call, from the calls one level down. -/
theorem convertAt_sound (hapi : api.Lawful) {deeper : Option Convert}
    (hdeeper : ∀ convert ∈ deeper, ∃ l, levels = l + 1 ∧ Sound layout heap l convert) :
    Sound layout heap levels (convertAt api layout heap check deeper) := by
  intro a active budget v active' budget' h
  rw [convertAt] at h
  rcases hnode : budget.chargeNode layout with e | budget₁
  · rw [hnode] at h
    exact absurd h (by simp)
  rw [hnode] at h
  dsimp only at h
  rw [chargeNode_eq_ok] at hnode
  rcases hscalar : convertScalar api (heap a) budget₁ with _ | e | ⟨v₂, budget₂⟩
  · rw [hscalar] at h
    dsimp only at h
    by_cases hkind : (heap a).isContainer = true
    · rw [if_neg (by simp [hkind])] at h
      rcases deeper with _ | convert
      · exact absurd h (by simp)
      obtain ⟨l, rfl, hsound⟩ := hdeeper convert rfl
      dsimp only at h
      by_cases hcycle : a ∈ active
      · rw [if_pos hcycle] at h
        exact absurd h (by simp)
      rw [if_neg hcycle] at h
      rcases hinner :
        convertContainer api layout heap check convert a (insert a active) budget₁ with
        e | ⟨v₂, active₂, budget₂⟩
      · rw [hinner] at h
        exact absurd h (by simp)
      rw [hinner] at h
      simp only [Except.ok.injEq, Prod.mk.injEq] at h
      obtain ⟨rfl, rfl, rfl⟩ := h
      obtain ⟨rfl, t, ht, hnesting, rfl, m, n, hm, hn, hspends⟩ :=
        convertContainer_sound hapi hsound hinner
      refine ⟨Finset.erase_insert hcycle, t, ht, hnesting, rfl, ?_⟩
      rw [hm, hn]
      exact hnode.trans hspends
    · rw [if_pos (by simpa using hkind)] at h
      exact absurd h (by simp)
  · rw [hscalar] at h
    exact absurd h (by simp)
  · rw [hscalar] at h
    simp only [Except.ok.injEq, Prod.mk.injEq] at h
    obtain ⟨rfl, rfl, rfl⟩ := h
    obtain ⟨t, ht, hnesting, rfl, hnodes, n, hbytes, hspends⟩ :=
      convertScalar_sound layout hapi hscalar
    refine ⟨rfl, t, ht, by omega, rfl, ?_⟩
    rw [hnodes, hbytes]
    exact hnode.trans hspends

theorem convertJson_sound (hapi : api.Lawful) (check : Check) :
    ∀ levels, Sound layout heap levels (convertJson api layout heap check levels)
  | 0 => convertAt_sound hapi fun _ h => absurd h (by simp)
  | levels + 1 => by
    refine convertAt_sound hapi fun convert h => ⟨levels, rfl, ?_⟩
    rw [Option.mem_some_iff] at h
    rw [← h]
    exact convertJson_sound hapi check levels

theorem length_le_nodesSeq (layout : Layout) {items : List Address} {ts : List Syntax}
    (h : UnfoldsSeq text heap items ts) :
    items.length ≤ Syntax.nodesSeq ts ∧
      items.length * layout.value ≤ Syntax.bytesSeq layout ts := by
  induction items generalizing ts with
  | nil => simp
  | cons item rest ih =>
    cases h with
    | @cons _ t _ ts _ hts =>
      have hnodes := t.nodes_pos
      have hbytes := t.value_le_bytes layout
      have hrest := ih hts
      rw [List.length_cons, Syntax.nodesSeq, Syntax.bytesSeq, Nat.add_mul]
      omega

theorem length_le_nodesMap (layout : Layout) {entries : List (Address × Address)}
    {ms : List (String × Syntax)} (h : UnfoldsMap text heap entries ms) :
    entries.length ≤ Syntax.nodesMap ms ∧
      entries.length * layout.value ≤ Syntax.bytesMap layout ms := by
  induction entries generalizing ms with
  | nil => simp
  | cons entry rest ih =>
    cases h with
    | @cons key value s k t _ ms _ _ _ hms =>
      have hnodes := t.nodes_pos
      have hbytes := t.value_le_bytes layout
      have hrest := ih hms
      rw [List.length_cons, Syntax.nodesMap, Syntax.bytesMap, Nat.add_mul]
      omega

/-- The check at the door rejects nothing that could be paid for. -/
theorem convertContainer_complete (hapi : api.Lawful) (hcheck : Admits layout check)
    (hconvert : Complete layout heap levels convert) {a : Address} {t : Syntax}
    {active : Finset Address} {budget budget' : JsonBudget} {m n : ℕ}
    (ht : Unfolds PyStr.text heap a t) (hkind : (heap a).isContainer = true)
    (hnesting : t.nesting ≤ levels + 1) (hnodes : t.nodes = 1 + m)
    (hbytes : t.bytes layout = layout.value + n) (hspends : Spends budget budget' m n)
    (hactive : ∀ c ∈ active, ∀ b, Child heap a b → Relation.TransGen (Child heap) c b) :
    convertContainer api layout heap check convert a active budget =
      .ok (t.value, active, budget') := by
  rcases ht.scalar_or_container layout hapi with
    ⟨-, hscalar, -⟩ | ⟨items, ts, ha, rfl, hts⟩ | ⟨entries, ms, ha, rfl, hms⟩
  · exact absurd hkind (by cases ht <;> simp_all [PyObject.isContainer, Syntax.nesting])
  · obtain ⟨hlen, hslots⟩ := length_le_nodesSeq layout hts
    have hm : m = Syntax.nodesSeq ts := by rw [Syntax.nodes] at hnodes; omega
    have hn : n = Syntax.bytesSeq layout ts := by rw [Syntax.bytes] at hbytes; omega
    subst hm hn
    rw [Syntax.nesting] at hnesting
    rw [convertContainer, ha]
    dsimp only
    rw [hcheck budget items.length (by rw [Spends] at hspends; omega)
      (by rw [Spends] at hspends; omega)]
    dsimp only
    rw [convertItems_complete hconvert hts (by omega) hspends fun c hc b hb =>
      hactive c hc b (by rw [Child, ha]; exact hb)]
    rfl
  · obtain ⟨hlen, hslots⟩ := length_le_nodesMap layout hms
    have hm : m = Syntax.nodesMap ms := by rw [Syntax.nodes] at hnodes; omega
    have hn : n = Syntax.bytesMap layout ms := by rw [Syntax.bytes] at hbytes; omega
    subst hm hn
    rw [Syntax.nesting] at hnesting
    rw [convertContainer, ha]
    dsimp only
    rw [hcheck budget entries.length (by rw [Spends] at hspends; omega)
      (by rw [Spends] at hspends; omega)]
    dsimp only
    rw [convertEntries_complete hapi hconvert hms (by omega) hspends fun c hc e he =>
      hactive c hc e.2 (by
        rw [Child, ha]
        exact List.mem_flatMap.mpr ⟨e, he, by simp⟩)]
    rfl

theorem convertAt_complete (hapi : api.Lawful) (hcheck : Admits layout check)
    {deeper : Option Convert}
    (hdeeper : levels ≠ 0 → ∃ convert l, deeper = some convert ∧ levels = l + 1 ∧
      Complete layout heap l convert) :
    Complete layout heap levels (convertAt api layout heap check deeper) := by
  intro a t active budget budget' ht hnesting hspends hactive
  have hnode : Spends budget ⟨budget.remainingNodes - 1, budget.remainingBytes - layout.value⟩
      1 layout.value := by
    have hnodes := t.nodes_pos
    have hbytes := t.value_le_bytes layout
    rw [Spends] at hspends ⊢
    dsimp only
    omega
  rw [convertAt, chargeNode_eq_ok.mpr hnode]
  dsimp only
  have hrest : ∀ m n, t.nodes = 1 + m → t.bytes layout = layout.value + n →
      Spends ⟨budget.remainingNodes - 1, budget.remainingBytes - layout.value⟩ budget' m n := by
    intro m n hm hn
    rw [Spends] at hspends hnode ⊢
    dsimp only at hnode ⊢
    omega
  by_cases hkind : (heap a).isContainer = true
  · -- nothing on the path is the container itself, or there would be a cycle
    have hfresh : a ∉ active := fun ha => ht.acyclic (hactive a ha)
    have hlevels : levels ≠ 0 := by
      intro hzero
      cases ht with
      | list _ _ => rw [Syntax.nesting] at hnesting; omega
      | dict _ _ => rw [Syntax.nesting] at hnesting; omega
      | none ha => rw [ha] at hkind; exact absurd hkind (by simp [PyObject.isContainer])
      | bool ha => rw [ha] at hkind; exact absurd hkind (by simp [PyObject.isContainer])
      | int ha => rw [ha] at hkind; exact absurd hkind (by simp [PyObject.isContainer])
      | float ha => rw [ha] at hkind; exact absurd hkind (by simp [PyObject.isContainer])
      | str ha _ => rw [ha] at hkind; exact absurd hkind (by simp [PyObject.isContainer])
    obtain ⟨convert, l, rfl, rfl, hcomplete⟩ := hdeeper hlevels
    obtain ⟨m, hm⟩ := Nat.exists_eq_add_of_le t.nodes_pos
    obtain ⟨n, hn⟩ := Nat.exists_eq_add_of_le (t.value_le_bytes layout)
    rw [convertScalar_container hapi hkind]
    dsimp only
    rw [if_neg (by simp [hkind]), if_neg hfresh, convertContainer_complete hapi hcheck hcomplete ht
      hkind hnesting hm hn (hrest m n hm hn)]
    · dsimp only
      rw [Finset.erase_insert hfresh]
    · intro c hc b hb
      rcases Finset.mem_insert.mp hc with rfl | hc
      · exact .single hb
      · exact (hactive c hc).tail hb
  · rcases ht.scalar_or_container layout hapi with
      ⟨hnodes, -, n, hbytes, hscalar⟩ | ⟨items, ts, ha, -, -⟩ | ⟨entries, ms, ha, -, -⟩
    · rw [hscalar _ _ (hrest 0 n hnodes hbytes)]
    · exact absurd (by rw [ha]; rfl) hkind
    · exact absurd (by rw [ha]; rfl) hkind

theorem convertJson_complete (hapi : api.Lawful) (hcheck : Admits layout check) :
    ∀ levels, Complete layout heap levels (convertJson api layout heap check levels)
  | 0 => convertAt_complete hapi hcheck fun h => absurd rfl h
  | levels + 1 => convertAt_complete hapi hcheck fun _ =>
    ⟨_, levels, rfl, rfl, convertJson_complete hapi hcheck levels⟩

/-! ### What is accepted -/

/-- Conversion accepts exactly the bounded finite trees, whatever the check at the
door lets through, as long as it lets through what fits. -/
theorem pyAnyToJsonValueWith_eq_ok (hapi : api.Lawful) (hcheck : Admits layout check)
    {root : Address} {v : Value} :
    pyAnyToJsonValueWith check api layout heap root = .ok v ↔
      ∃ t, Unfolds PyStr.text heap root t ∧ t.WithinBudgets layout ∧ v = t.value := by
  rw [pyAnyToJsonValueWith]
  constructor
  · intro h
    rcases hrun : convertJson api layout heap check maxJsonDepth root ∅
        { remainingNodes := maxJsonNodes, remainingBytes := maxJsonBytes } with
      e | ⟨v', active, budget⟩
    · rw [hrun] at h
      exact absurd h (by simp)
    rw [hrun] at h
    obtain rfl := Except.ok.inj h
    obtain ⟨-, t, ht, hnesting, rfl, hnodes, hbytes⟩ := convertJson_sound hapi check _ hrun
    exact ⟨t, ht, ⟨hnesting, by dsimp only at hnodes; omega, by dsimp only at hbytes; omega⟩, rfl⟩
  · rintro ⟨t, ht, ⟨hnesting, hnodes, hbytes⟩, rfl⟩
    have hspends : Spends { remainingNodes := maxJsonNodes, remainingBytes := maxJsonBytes }
        { remainingNodes := maxJsonNodes - t.nodes
          remainingBytes := maxJsonBytes - t.bytes layout }
        t.nodes (t.bytes layout) := ⟨Nat.sub_add_cancel hnodes, Nat.sub_add_cancel hbytes⟩
    rw [convertJson_complete hapi hcheck _ ht hnesting hspends fun c hc => absurd hc (by simp)]

/-- What `py_any_to_json_value` accepts.  It returns a value exactly if the graph
unfolds to a tree within the budgets, and then that tree.  So a reachable cycle is
always an error, a finite graph without one is converted if its tree is within the
budgets, and `check_children` rejects nothing that the walk would accept. -/
theorem bounded_trees_exact (hapi : api.Lawful) (layout : Layout) (heap : Heap)
    (root : Address) :
    (∀ v, pyAnyToJsonValue api layout heap root = .ok v ↔
      ∃ t, Unfolds PyStr.text heap root t ∧ t.WithinBudgets layout ∧ v = t.value) ∧
    (∀ t t', Unfolds PyStr.text heap root t → Unfolds PyStr.text heap root t' → t = t') ∧
    ((∃ c, Relation.ReflTransGen (Child heap) root c ∧ Relation.TransGen (Child heap) c c) →
      ∃ e, pyAnyToJsonValue api layout heap root = .error e) ∧
    ({b | Relation.ReflTransGen (Child heap) root b}.Finite →
      (∀ b, Relation.ReflTransGen (Child heap) root b → ¬ Relation.TransGen (Child heap) b b) →
      (∀ b, Relation.ReflTransGen (Child heap) root b → (heap b).Fits PyStr.text heap) →
      ∃ t, Unfolds PyStr.text heap root t ∧
        (t.WithinBudgets layout → pyAnyToJsonValue api layout heap root = .ok t.value)) ∧
    ∀ v, pyAnyToJsonValueWith (fun _ _ => .ok ()) api layout heap root = .ok v →
      pyAnyToJsonValue api layout heap root = .ok v := by
  have hiff : ∀ v, pyAnyToJsonValue api layout heap root = .ok v ↔
      ∃ t, Unfolds PyStr.text heap root t ∧ t.WithinBudgets layout ∧ v = t.value := fun v =>
    pyAnyToJsonValueWith_eq_ok hapi (checkChildren_admits layout)
  refine ⟨hiff, fun t t' ht ht' => ht.unique ht', ?_, ?_, fun v hv => ?_⟩
  · rintro ⟨c, hc, hcycle⟩
    rcases hrun : pyAnyToJsonValue api layout heap root with e | v
    · exact ⟨e, rfl⟩
    · -- a value would be a tree, and so would everything that is reachable
      obtain ⟨t, ht, -, -⟩ := (hiff v).mp hrun
      rcases Relation.reflTransGen_iff_eq_or_transGen.mp hc with rfl | hc
      · exact absurd hcycle ht.acyclic
      · obtain ⟨t', ht', -⟩ := Unfolds.descendant hc ht
        exact absurd hcycle ht'.acyclic
  · intro hfinite hacyclic hfits
    obtain ⟨t, ht⟩ := exists_unfolds hfinite hacyclic hfits
    exact ⟨t, ht, fun hwithin => (hiff t.value).mpr ⟨t, ht, hwithin, rfl⟩⟩
  · exact (hiff v).mpr ((pyAnyToJsonValueWith_eq_ok hapi fun _ _ _ _ => rfl).mp hv)

/-- PyO3 on the objects of the model; an `f64` is never asked of an integer. -/
def PyO3.documented : PyO3 where
  extractBool
    | .bool b => some b
    | _ => none
  extractI64 o :=
    o.index.bind fun i => if h : -2 ^ 63 ≤ i ∧ i < 2 ^ 63 then some ⟨i, h⟩ else none
  extractU64 o := o.index.bind fun i => if 0 ≤ i ∧ i < 2 ^ 64 then some i.toNat else none
  extractF64 o := o.asFloat
  toStr := PyStr.text

theorem PyO3.documented_lawful : PyO3.documented.Lawful where
  bool o b := by cases o <;> simp [documented]
  i64 _ := rfl
  u64 _ := rfl
  f64 _ _ := rfl
  str _ := rfl

/-- The sizes on a 64-bit target. -/
def Layout.lp64 : Layout := ⟨32, 24, by decide⟩

/-- One list of two numbers, held twice by another. -/
def sharedList : Heap
  | 0 => .list [1, 1]
  | 1 => .list [2, 3]
  | 2 => .int 1
  | 3 => .int 2
  | _ => .none

theorem bounded_trees_exact_shared :
    PyO3.documented.Lawful ∧
    ∃ v, pyAnyToJsonValue .documented .lp64 sharedList 0 = .ok (.array [v, v]) := by
  refine ⟨PyO3.documented_lawful,
    .array [.number (.int ⟨1, by decide⟩), .number (.int ⟨2, by decide⟩)],
    ((bounded_trees_exact PyO3.documented_lawful .lp64 sharedList 0).1 _).mpr ?_⟩
  have hone : Unfolds PyStr.text sharedList 2 (.number (.int ⟨1, by decide⟩)) := .int rfl
  have htwo : Unfolds PyStr.text sharedList 3 (.number (.int ⟨2, by decide⟩)) := .int rfl
  have hinner : Unfolds PyStr.text sharedList 1
      (.array [.number (.int ⟨1, by decide⟩), .number (.int ⟨2, by decide⟩)]) :=
    .list rfl (.cons hone (.cons htwo .nil))
  exact ⟨_, .list rfl (.cons hinner (.cons hinner .nil)),
    ⟨by decide, by decide, by decide⟩, rfl⟩

/-- A string is not enough: with a lone surrogate it has no UTF-8, and conversion
fails on a graph of one node. -/
theorem lone_surrogate_rejected :
    ¬ ∀ (heap : Heap) (root : Address),
      (∃ v, pyAnyToJsonValue .documented .lp64 heap root = .ok v) ↔
        ∃ t, Unfolds (fun s => some s.lossy) heap root t ∧ t.WithinBudgets .lp64 := by
  intro h
  let heap : Heap := fun _ => .str [⟨0xD800, by decide⟩]
  have htree : Unfolds (fun s => some s.lossy) heap 0
      (.string (PyStr.lossy [⟨0xD800, by decide⟩])) := .str rfl rfl
  obtain ⟨v, hv⟩ := (h heap 0).mpr ⟨_, htree, ⟨by decide, by decide, by decide⟩⟩
  have herror : pyAnyToJsonValue .documented .lp64 heap 0 = .error .unicodeEncodeError := rfl
  rw [herror] at hv
  exact absurd hv (by simp)

end Python

end Unitree
