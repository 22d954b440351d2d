/-
What ingress admission lets in.

The visitor threads one counter of nodes through values and keys, and a depth
through containers.  Seen from outside it is exact: a document passes when it
has no more visits than the counter and no deeper containers than the limit,
wherever they are.  Binary framing puts the same reader behind two layouts that
share a prefix.

* `Syntax.visits`, `Syntax.nesting`, `Syntax.value` — what a document costs, and
  what it means;
* `deserialize_eq` — the visitor charges exactly that;
* `json_admission_exact` — and so does `parse_json`;
* `Framing.parse_lidar`, `Framing.parse_other` — the two layouts;
* `binary_framing_exact` — they are all that is accepted, and decoding undoes
  encoding.
-/
import UnitreeWebrtc.Ingress

namespace Unitree

/-! ### Entries in key order -/

namespace Entries

/-- Every key once, in the order of a `BTreeMap`. -/
def Sorted (es : Entries) : Prop := es.Pairwise fun e e' => e.1 < e'.1

theorem mem_insert {k : String} {v : Value} {es : Entries} {e : String × Value}
    (h : e ∈ insert k v es) : e = (k, v) ∨ e ∈ es := by
  induction es with
  | nil => exact Or.inl (List.mem_singleton.mp h)
  | cons e' rest ih =>
    obtain ⟨j, w⟩ := e'
    rw [insert] at h
    split at h
    · rcases List.mem_cons.mp h with rfl | h
      · exact Or.inl rfl
      · exact Or.inr (List.mem_cons_of_mem _ h)
    split at h
    · exact List.mem_cons.mp h
    · rcases List.mem_cons.mp h with rfl | h
      · exact Or.inr List.mem_cons_self
      · exact (ih h).imp_right (List.mem_cons_of_mem _)

theorem Sorted.insert {es : Entries} (h : Sorted es) (k : String) (v : Value) :
    Sorted (insert k v es) := by
  induction es with
  | nil => exact List.pairwise_singleton _ _
  | cons e rest ih =>
    obtain ⟨j, w⟩ := e
    obtain ⟨hall, hrest⟩ := List.pairwise_cons.mp h
    rw [Entries.insert]
    split
    next heq =>
      subst heq
      exact List.pairwise_cons.mpr ⟨hall, hrest⟩
    next hne =>
      split
      next hlt =>
        refine List.pairwise_cons.mpr ⟨fun e he => ?_, h⟩
        rcases List.mem_cons.mp he with rfl | he
        · exact hlt
        · exact hlt.trans (hall e he)
      next hge =>
        refine List.pairwise_cons.mpr ⟨fun e he => ?_, ih hrest⟩
        rcases mem_insert he with rfl | he
        · exact lt_of_le_of_ne (not_lt.mp hge) (Ne.symm hne)
        · exact hall e he

end Entries

/-! ### Documents -/

namespace Syntax

mutual

/-- One visit for every value and every key. -/
def visits : Syntax → ℕ
  | .array ts => 1 + visitsSeq ts
  | .object ms => 1 + visitsMap ms
  | _ => 1

def visitsSeq : List Syntax → ℕ
  | [] => 0
  | t :: ts => t.visits + visitsSeq ts

def visitsMap : List (String × Syntax) → ℕ
  | [] => 0
  | (_, t) :: ms => 1 + t.visits + visitsMap ms

end

mutual

/-- How deep the containers go: an empty one counts, a scalar does not. -/
def nesting : Syntax → ℕ
  | .array ts => 1 + nestingSeq ts
  | .object ms => 1 + nestingMap ms
  | _ => 0

def nestingSeq : List Syntax → ℕ
  | [] => 0
  | t :: ts => max t.nesting (nestingSeq ts)

def nestingMap : List (String × Syntax) → ℕ
  | [] => 0
  | (_, t) :: ms => max t.nesting (nestingMap ms)

end

/-- The entries a list of members leaves: the last value of every key. -/
def lastEntries (members : List (String × Value)) : Entries :=
  members.foldl (fun es m => Entries.insert m.1 m.2 es) []

mutual

/-- The value a document spells. -/
def value : Syntax → Value
  | .null => .null
  | .bool b => .bool b
  | .number n => .number n
  | .string s => .string s
  | .array ts => .array (valueSeq ts)
  | .object ms => .object (lastEntries (valueMap ms))

def valueSeq : List Syntax → List Value
  | [] => []
  | t :: ts => t.value :: valueSeq ts

def valueMap : List (String × Syntax) → List (String × Value)
  | [] => []
  | (k, t) :: ms => (k, t.value) :: valueMap ms

end

theorem one_le_visits (t : Syntax) : 1 ≤ t.visits := by
  cases t <;> simp [visits]

theorem lookup_foldl_insert (k : String) (members : List (String × Value)) : ∀ es : Entries,
    List.lookup k (members.foldl (fun es m => Entries.insert m.1 m.2 es) es) =
      (members.reverse.lookup k).or (es.lookup k) := by
  induction members with
  | nil => intro es; rfl
  | cons m rest ih =>
    intro es
    rw [List.foldl_cons, ih, Entries.lookup_insert, List.reverse_cons, List.lookup_append,
      Option.or_assoc]
    congr 1
    rw [Entries.lookup_cons]
    by_cases hk : k = m.1
    · simp [hk]
    · simp [hk]

theorem valueMap_eq (ms : List (String × Syntax)) :
    valueMap ms = ms.map fun m => (m.1, m.2.value) := by
  induction ms with
  | nil => rfl
  | cons m ms ih => rw [valueMap, ih, List.map_cons]

theorem lookup_map_value (k : String) (ms : List (String × Syntax)) :
    (ms.map fun m => (m.1, m.2.value)).lookup k = (ms.lookup k).map value := by
  induction ms with
  | nil => rfl
  | cons m ms ih =>
    rw [List.map_cons, List.lookup_cons, List.lookup_cons, ih]
    by_cases hk : k = m.1
    · simp [hk]
    · have hb : (k == m.1) = false := by simpa using hk
      simp [hb]

theorem lastEntries_sorted (members : List (String × Value)) : (lastEntries members).Sorted := by
  have hfold : ∀ (members : List (String × Value)) (es : Entries), es.Sorted →
      (members.foldl (fun es m => Entries.insert m.1 m.2 es) es).Sorted := by
    intro members
    induction members with
    | nil => intro es hes; exact hes
    | cons m rest ih => intro es hes; exact ih _ (hes.insert m.1 m.2)
  exact hfold members [] List.Pairwise.nil

/-- Of a repeated key the last value is kept. -/
theorem get_value_object (ms : List (String × Syntax)) (k : String) :
    (Syntax.object ms).value.get k = (ms.reverse.lookup k).map value := by
  rw [value, Value.get, lastEntries, lookup_foldl_insert, valueMap_eq, ← List.map_reverse,
    lookup_map_value]
  simp

end Syntax

/-! ### The visitor -/

mutual

/-- The visitor charges what the document costs, and builds what it spells. -/
theorem deserialize_eq : ∀ (t : Syntax) (depth n : ℕ), depth ≤ maxJsonDepth →
    deserialize t depth n =
      if t.visits ≤ n ∧ depth + t.nesting ≤ maxJsonDepth then some (t.value, n - t.visits)
      else none
  | t, depth, 0, hd => by
    rw [if_neg fun h => absurd (t.one_le_visits.trans h.1) (by omega)]
    cases t <;> rfl
  | .null, depth, n + 1, hd => by
    simp [deserialize, Syntax.visits, Syntax.nesting, Syntax.value, hd]
  | .bool b, depth, n + 1, hd => by
    simp [deserialize, Syntax.visits, Syntax.nesting, Syntax.value, hd]
  | .number x, depth, n + 1, hd => by
    simp [deserialize, Syntax.visits, Syntax.nesting, Syntax.value, hd]
  | .string s, depth, n + 1, hd => by
    simp [deserialize, Syntax.visits, Syntax.nesting, Syntax.value, hd]
  | .array ts, depth, n + 1, hd => by
    rw [deserialize, Syntax.visits, Syntax.nesting, Syntax.value]
    by_cases hdepth : depth ≥ maxJsonDepth
    · rw [if_pos hdepth, if_neg (by omega)]
    · rw [if_neg hdepth, visitSeq_eq ts (depth + 1) n (by omega)]
      by_cases hfits : Syntax.visitsSeq ts ≤ n ∧ depth + 1 + Syntax.nestingSeq ts ≤ maxJsonDepth
      · rw [if_pos hfits, if_pos (by omega)]
        simp only [Option.map_some, Option.some_inj, Prod.mk.injEq, true_and]
        omega
      · rw [if_neg hfits, if_neg (by omega)]
        rfl
  | .object ms, depth, n + 1, hd => by
    rw [deserialize, Syntax.visits, Syntax.nesting, Syntax.value]
    by_cases hdepth : depth ≥ maxJsonDepth
    · rw [if_pos hdepth, if_neg (by omega)]
    · rw [if_neg hdepth, visitMap_eq ms [] (depth + 1) n (by omega)]
      by_cases hfits : Syntax.visitsMap ms ≤ n ∧ depth + 1 + Syntax.nestingMap ms ≤ maxJsonDepth
      · rw [if_pos hfits, if_pos (by omega)]
        simp only [Option.map_some, Option.some_inj, Prod.mk.injEq, Syntax.lastEntries, true_and]
        omega
      · rw [if_neg hfits, if_neg (by omega)]
        rfl

theorem visitSeq_eq : ∀ (ts : List Syntax) (depth n : ℕ), depth ≤ maxJsonDepth →
    visitSeq ts depth n =
      if Syntax.visitsSeq ts ≤ n ∧ depth + Syntax.nestingSeq ts ≤ maxJsonDepth then
        some (Syntax.valueSeq ts, n - Syntax.visitsSeq ts)
      else none
  | [], depth, n, hd => by simp [visitSeq, Syntax.visitsSeq, Syntax.nestingSeq, Syntax.valueSeq, hd]
  | t :: ts, depth, n, hd => by
    rw [visitSeq, Syntax.visitsSeq, Syntax.nestingSeq, Syntax.valueSeq,
      deserialize_eq t depth n hd]
    by_cases hfirst : t.visits ≤ n ∧ depth + t.nesting ≤ maxJsonDepth
    · rw [if_pos hfirst, Option.bind_some]
      dsimp only
      rw [visitSeq_eq ts depth _ hd]
      by_cases hrest : Syntax.visitsSeq ts ≤ n - t.visits ∧
          depth + Syntax.nestingSeq ts ≤ maxJsonDepth
      · rw [if_pos hrest, if_pos (by omega)]
        simp only [Option.map_some, Option.some_inj, Prod.mk.injEq, true_and]
        omega
      · rw [if_neg hrest, if_neg (by omega)]
        rfl
    · rw [if_neg hfirst, if_neg (by omega)]
      rfl

theorem visitMap_eq : ∀ (ms : List (String × Syntax)) (acc : Entries) (depth n : ℕ),
    depth ≤ maxJsonDepth →
    visitMap ms acc depth n =
      if Syntax.visitsMap ms ≤ n ∧ depth + Syntax.nestingMap ms ≤ maxJsonDepth then
        some ((Syntax.valueMap ms).foldl (fun es m => Entries.insert m.1 m.2 es) acc,
          n - Syntax.visitsMap ms)
      else none
  | [], acc, depth, n, hd => by
    simp [visitMap, Syntax.visitsMap, Syntax.nestingMap, Syntax.valueMap, hd]
  | (k, t) :: ms, acc, depth, 0, hd => by
    rw [visitMap, Syntax.visitsMap, if_neg (by omega)]
  | (k, t) :: ms, acc, depth, n + 1, hd => by
    rw [visitMap, Syntax.visitsMap, Syntax.nestingMap, Syntax.valueMap,
      deserialize_eq t depth n hd]
    by_cases hfirst : t.visits ≤ n ∧ depth + t.nesting ≤ maxJsonDepth
    · rw [if_pos hfirst, Option.bind_some]
      dsimp only
      rw [visitMap_eq ms _ depth _ hd]
      by_cases hrest : Syntax.visitsMap ms ≤ n - t.visits ∧
          depth + Syntax.nestingMap ms ≤ maxJsonDepth
      · rw [if_pos hrest, if_pos (by omega), List.foldl_cons]
        simp only [Option.some_inj, Prod.mk.injEq, true_and]
        omega
      · rw [if_neg hrest, if_neg (by omega)]
    · rw [if_neg hfirst, if_neg (by omega)]
      rfl

end

/-- What `parse_json` accepts, and what it makes of it. -/
theorem parseJson_ok {serde : Serde} {data : List UInt8} {v : Value} :
    parseJson serde data = .ok v ↔ data.length ≤ maxTextBytes ∧
      ∃ t, serde data = some t ∧ t.visits ≤ maxJsonNodes ∧ t.nesting ≤ maxJsonDepth ∧
        v = t.value := by
  rw [parseJson]
  by_cases hlong : data.length > maxTextBytes
  · rw [if_pos hlong]
    simp [Nat.not_le.mpr hlong]
  rw [if_neg hlong]
  rcases hserde : serde data with _ | t
  · simp
  rw [Option.bind_some, deserialize_eq t 0 maxJsonNodes (Nat.zero_le _), Nat.zero_add]
  by_cases hfits : t.visits ≤ maxJsonNodes ∧ t.nesting ≤ maxJsonDepth
  · rw [if_pos hfits]
    simp only [Except.ok.injEq, Option.some_inj]
    constructor
    · rintro rfl
      exact ⟨Nat.not_lt.mp hlong, t, rfl, hfits.1, hfits.2, rfl⟩
    · rintro ⟨-, t', rfl, -, -, rfl⟩
      rfl
  · rw [if_neg hfits]
    simp only [reduceCtorEq, Option.some_inj, false_iff]
    rintro ⟨-, t', rfl, hv, hn, -⟩
    exact hfits ⟨hv, hn⟩

/-- JSON admission is exact: a byte string is accepted iff it is short enough,
spells one document, and the document's visits and nesting are within the limits,
wherever they are spent; and the value is the document with the last value kept
for each key. -/
theorem json_admission_exact (serde : Serde) :
    (∀ data v, parseJson serde data = .ok v ↔ data.length ≤ 1024 * 1024 ∧
      ∃ t, serde data = some t ∧ t.visits ≤ 65536 ∧ t.nesting ≤ 64 ∧ v = t.value) ∧
    (∀ ms, ∃ es : Entries, (Syntax.object ms).value = .object es ∧ es.Sorted ∧
      ∀ k, es.lookup k = (ms.reverse.lookup k).map Syntax.value) ∧
    ∀ data data' t t', serde data = some t → serde data' = some t' →
      data.length ≤ 1024 * 1024 → data'.length ≤ 1024 * 1024 → t.visits = t'.visits →
      t.nesting = t'.nesting →
      ((∃ v, parseJson serde data = .ok v) ↔ ∃ v, parseJson serde data' = .ok v) := by
  refine ⟨fun data v => parseJson_ok, fun ms => ?_, ?_⟩
  · exact ⟨_, by rw [Syntax.value], Syntax.lastEntries_sorted _, fun k => by
      have hget := Syntax.get_value_object ms k
      rwa [Syntax.value, Value.get] at hget⟩
  · intro data data' t t' ht ht' hshort hshort' hvisits hnesting
    constructor
    · rintro ⟨v, hv⟩
      obtain ⟨-, t₀, ht₀, hv, hn, -⟩ := parseJson_ok.mp hv
      rw [ht, Option.some_inj] at ht₀
      subst ht₀
      exact ⟨_, parseJson_ok.mpr ⟨hshort', t', ht', hvisits ▸ hv, hnesting ▸ hn, rfl⟩⟩
    · rintro ⟨v, hv⟩
      obtain ⟨-, t₀, ht₀, hv, hn, -⟩ := parseJson_ok.mp hv
      rw [ht', Option.some_inj] at ht₀
      subst ht₀
      exact ⟨_, parseJson_ok.mpr ⟨hshort, t, ht, hvisits ▸ hv, hnesting ▸ hn, rfl⟩⟩

/-! ### Binary framing -/

namespace Framing

/-- `u16::to_le_bytes`, `u32::to_le_bytes`: the little-endian bytes of a number. -/
def toLeBytes : ℕ → ℕ → List UInt8
  | 0, _ => []
  | width + 1, n => UInt8.ofNat n :: toLeBytes width (n / 256)

@[simp] theorem length_toLeBytes (width n : ℕ) : (toLeBytes width n).length = width := by
  induction width generalizing n with
  | zero => rfl
  | succ width ih => rw [toLeBytes, List.length_cons, ih]

theorem leBytes_toLeBytes (width n : ℕ) : leBytes (toLeBytes width n) = n % 256 ^ width := by
  induction width generalizing n with
  | zero => simp [toLeBytes, leBytes, Nat.mod_one]
  | succ width ih =>
    rw [toLeBytes, leBytes, ih, UInt8.toNat_ofNat']
    show n % 256 + 256 * (n / 256 % 256 ^ width) = n % 256 ^ (width + 1)
    rw [pow_succ', Nat.mod_mul]

/-- The LiDAR layout: tag, length, four reserved bytes, header and body. -/
def encodeLidar (json reserved body : List UInt8) : List UInt8 :=
  [2, 0, 0, 0] ++ toLeBytes 4 json.length ++ reserved ++ json ++ body

/-- The normal layout: length, two reserved bytes, header and body. -/
def encodeNormal (json : List UInt8) (r₀ r₁ : UInt8) (body : List UInt8) : List UInt8 :=
  toLeBytes 2 json.length ++ [r₀, r₁] ++ json ++ body

variable {serde : Serde} {buffer body : List UInt8} {frame : BinaryFrame} {header : Value}

theorem slice_eq_some {start stop : ℕ} {bytes : List UInt8} :
    slice buffer start stop = some bytes ↔
      start ≤ stop ∧ stop ≤ buffer.length ∧ bytes = (buffer.drop start).take (stop - start) := by
  rw [slice]
  split
  next h => simp [h.1, h.2, eq_comm]
  next h => simp; tauto

/-- Once the header's place is known, the frame is read from there. -/
theorem parse_span {prefix4 : List UInt8} {kind : BinaryFrame} {start n : ℕ}
    (hpre : slice buffer 0 4 = some prefix4)
    (hspan : headerSpan buffer prefix4 = .ok (kind, start, n)) :
    parse serde buffer = .ok (frame, header, body) ↔
      frame = kind ∧ n ≤ maxBinaryHeaderBytes ∧ start + n ≤ buffer.length ∧
        parseJson serde ((buffer.drop start).take n) = .ok header ∧ header.asObject.isSome ∧
        body = buffer.drop (start + n) := by
  simp only [parse, hpre, hspan]
  by_cases hlong : n > maxBinaryHeaderBytes
  · rw [if_pos hlong]
    simp [Nat.not_le.mpr hlong]
  rw [if_neg hlong]
  rcases hjson : slice buffer start (start + n) with _ | json
  · have hshort : ¬ start + n ≤ buffer.length := fun h => by
      rw [slice, if_pos ⟨Nat.le_add_right _ _, h⟩] at hjson
      exact absurd hjson (by simp)
    simp [hshort]
  obtain ⟨-, hfits, rfl⟩ := slice_eq_some.mp hjson
  rw [Nat.add_sub_cancel_left]
  dsimp only
  rcases hparsed : parseJson serde ((buffer.drop start).take n) with e | h
  · simp
  dsimp only
  by_cases hobject : h.asObject.isNone
  · rw [if_pos hobject]
    simp only [reduceCtorEq, Except.ok.injEq, false_iff]
    rintro ⟨-, -, -, rfl, hsome, -⟩
    rw [Option.isNone_iff_eq_none] at hobject
    simp [hobject] at hsome
  · rw [if_neg hobject]
    simp only [Except.ok.injEq, Prod.mk.injEq]
    constructor
    · rintro ⟨rfl, rfl, rfl⟩
      exact ⟨rfl, Nat.not_lt.mp hlong, hfits, rfl,
        Option.isSome_iff_ne_none.mpr (by simpa using hobject), rfl⟩
    · rintro ⟨rfl, -, -, rfl, -, rfl⟩
      exact ⟨rfl, rfl, rfl⟩

theorem slice_zero_four (h : 4 ≤ buffer.length) : slice buffer 0 4 = some (buffer.take 4) := by
  rw [slice, if_pos ⟨Nat.zero_le _, h⟩]
  rfl

theorem parse_short (serde : Serde) (h : ¬ 4 ≤ buffer.length) :
    ∃ e, parse serde buffer = .error e := by
  rw [parse, slice, if_neg (by omega)]
  exact ⟨_, rfl⟩

/-- A frame with the LiDAR tag. -/
theorem parse_lidar (htag : buffer.take 4 = [2, 0, 0, 0]) :
    parse serde buffer = .ok (frame, header, body) ↔
      frame = .lidar ∧ leBytes ((buffer.drop 4).take 4) ≤ 65536 ∧
        12 + leBytes ((buffer.drop 4).take 4) ≤ buffer.length ∧
        parseJson serde ((buffer.drop 12).take (leBytes ((buffer.drop 4).take 4))) = .ok header ∧
        header.asObject.isSome ∧ body = buffer.drop (12 + leBytes ((buffer.drop 4).take 4)) := by
  have hfour : 4 ≤ buffer.length := by
    have hlength := congrArg List.length htag
    rw [List.length_take] at hlength
    simp only [List.length_cons, List.length_nil] at hlength
    omega
  by_cases height : 8 ≤ buffer.length
  · refine parse_span (slice_zero_four hfour) ?_
    rw [headerSpan, if_pos htag, slice, if_pos ⟨by omega, height⟩]
  · have herr : ∃ e, parse serde buffer = .error e := by
      simp only [parse, slice_zero_four hfour, headerSpan, if_pos htag]
      rw [slice, if_neg (by omega)]
      exact ⟨_, rfl⟩
    obtain ⟨e, he⟩ := herr
    rw [he]
    simp only [reduceCtorEq, false_iff]
    rintro ⟨-, -, h, -⟩
    omega

/-- Every other frame. -/
theorem parse_other (htag : buffer.take 4 ≠ [2, 0, 0, 0]) :
    parse serde buffer = .ok (frame, header, body) ↔
      frame = .normal ∧ 4 + leBytes (buffer.take 2) ≤ buffer.length ∧
        parseJson serde ((buffer.drop 4).take (leBytes (buffer.take 2))) = .ok header ∧
        header.asObject.isSome ∧ body = buffer.drop (4 + leBytes (buffer.take 2)) := by
  by_cases hfour : 4 ≤ buffer.length
  · have hspan : headerSpan buffer (buffer.take 4) = .ok (.normal, 4, leBytes (buffer.take 2)) := by
      rw [headerSpan, if_neg htag, List.take_take]
      rfl
    -- a two-byte length is within the limit
    have hword : leBytes (buffer.take 2) ≤ maxBinaryHeaderBytes := by
      rcases buffer with _ | ⟨b₀, _ | ⟨b₁, rest⟩⟩
      · exact Nat.zero_le _
      · exact absurd hfour (by simp)
      · have h₀ : b₀.toNat < 256 := b₀.toNat_lt
        have h₁ : b₁.toNat < 256 := b₁.toNat_lt
        simp only [List.take_succ_cons, List.take_zero, leBytes, maxBinaryHeaderBytes]
        omega
    rw [parse_span (slice_zero_four hfour) hspan]
    constructor
    · rintro ⟨hf, -, h⟩
      exact ⟨hf, h⟩
    · rintro ⟨hf, h⟩
      exact ⟨hf, hword, h⟩
  · obtain ⟨e, he⟩ := parse_short serde hfour
    rw [he]
    simp only [reduceCtorEq, false_iff]
    rintro ⟨-, h, -⟩
    omega

/-- Decoding undoes the LiDAR encoding. -/
theorem parse_encodeLidar {json reserved : List UInt8} (hjson : parseJson serde json = .ok header)
    (hobject : header.asObject.isSome) (hlength : json.length ≤ 65536)
    (hreserved : reserved.length = 4) :
    parse serde (encodeLidar json reserved body) = .ok (.lidar, header, body) := by
  have hn : leBytes (((encodeLidar json reserved body).drop 4).take 4) = json.length := by
    rw [encodeLidar]
    simp only [List.append_assoc]
    rw [List.drop_left' (by rfl), List.take_left' (length_toLeBytes 4 _), leBytes_toLeBytes,
      Nat.mod_eq_of_lt (by omega)]
  have hhead : ([2, 0, 0, 0] ++ toLeBytes 4 json.length ++ reserved).length = 12 := by
    simp [hreserved]
  refine (parse_lidar (by simp [encodeLidar])).mpr ⟨rfl, ?_⟩
  rw [hn]
  refine ⟨hlength, ?_, ?_, hobject, ?_⟩
  · simp only [encodeLidar, List.length_append, List.length_cons, List.length_nil,
      length_toLeBytes, hreserved]
    omega
  · rw [encodeLidar, List.append_assoc, List.drop_left' hhead, List.take_left' rfl]
    exact hjson
  · rw [encodeLidar, List.drop_left']
    rw [List.length_append, hhead]

theorem take_encodeNormal (json body : List UInt8) (r₀ r₁ : UInt8) :
    (encodeNormal json r₀ r₁ body).take 4 = toLeBytes 2 json.length ++ [r₀, r₁] := by
  rw [encodeNormal, List.append_assoc, List.take_left']
  simp

/-- The one frame of the normal layout that carries the LiDAR tag. -/
theorem encodeNormal_tag {json body : List UInt8} {r₀ r₁ : UInt8} (hlength : json.length < 65536) :
    (encodeNormal json r₀ r₁ body).take 4 = [2, 0, 0, 0] ↔
      json.length = 2 ∧ r₀ = 0 ∧ r₁ = 0 := by
  rw [take_encodeNormal]
  constructor
  · intro h
    have hsplit : toLeBytes 2 json.length ++ [r₀, r₁] = [2, 0] ++ [0, 0] := h
    obtain ⟨hlow, hhigh⟩ := List.append_inj hsplit (by simp)
    simp only [List.cons.injEq, and_true] at hhigh
    refine ⟨?_, hhigh⟩
    have hvalue := leBytes_toLeBytes 2 json.length
    rw [hlow, Nat.mod_eq_of_lt (by omega)] at hvalue
    rw [← hvalue]
    rfl
  · rintro ⟨h, rfl, rfl⟩
    rw [h]
    rfl

/-- Decoding undoes the normal encoding of all other frames. -/
theorem parse_encodeNormal {json : List UInt8} {r₀ r₁ : UInt8}
    (hjson : parseJson serde json = .ok header) (hobject : header.asObject.isSome)
    (hlength : json.length < 65536) (hother : ¬ (json.length = 2 ∧ r₀ = 0 ∧ r₁ = 0)) :
    parse serde (encodeNormal json r₀ r₁ body) = .ok (.normal, header, body) := by
  have hn : leBytes ((encodeNormal json r₀ r₁ body).take 2) = json.length := by
    rw [encodeNormal]
    simp only [List.append_assoc]
    rw [List.take_left' (length_toLeBytes 2 _), leBytes_toLeBytes, Nat.mod_eq_of_lt (by omega)]
  have hhead : (toLeBytes 2 json.length ++ [r₀, r₁]).length = 4 := by simp
  refine (parse_other fun h => hother ((encodeNormal_tag hlength).mp h)).mpr ⟨rfl, ?_⟩
  rw [hn]
  refine ⟨?_, ?_, hobject, ?_⟩
  · simp only [encodeNormal, List.length_append, List.length_cons, List.length_nil,
      length_toLeBytes]
    omega
  · rw [encodeNormal, List.append_assoc, List.drop_left' hhead, List.take_left' rfl]
    exact hjson
  · rw [encodeNormal, List.drop_left']
    rw [List.length_append, hhead]

/-- The ambiguous frame is read with the LiDAR layout, whose body starts later. -/
theorem parse_ambiguous {json : List UInt8} {r₀ r₁ : UInt8} (hlength : json.length < 65536)
    (htag : json.length = 2 ∧ r₀ = 0 ∧ r₁ = 0) :
    parse serde (encodeNormal json r₀ r₁ body) ≠ .ok (frame, header, body) := by
  intro h
  obtain ⟨-, -, hfits, -, -, hbody⟩ := (parse_lidar ((encodeNormal_tag hlength).mpr htag)).mp h
  have hshort := congrArg List.length hbody
  rw [List.length_drop] at hshort
  simp only [encodeNormal, List.length_append, List.length_cons, List.length_nil,
    length_toLeBytes, htag.1] at hshort hfits
  omega

end Framing

/-- Binary framing accepts exactly its two layouts, and decoding undoes encoding,
but for the one normal frame that starts with the LiDAR tag. -/
theorem binary_framing_exact (serde : Serde) :
    (∀ buffer frame header body, Framing.parse serde buffer = .ok (frame, header, body) ↔
      if buffer.take 4 = [2, 0, 0, 0] then
        let n := leBytes ((buffer.drop 4).take 4)
        frame = .lidar ∧ n ≤ 65536 ∧ 12 + n ≤ buffer.length ∧
          parseJson serde ((buffer.drop 12).take n) = .ok header ∧ header.asObject.isSome ∧
          body = buffer.drop (12 + n)
      else
        let n := leBytes (buffer.take 2)
        frame = .normal ∧ 4 + n ≤ buffer.length ∧
          parseJson serde ((buffer.drop 4).take n) = .ok header ∧ header.asObject.isSome ∧
          body = buffer.drop (4 + n)) ∧
    ∀ json header, parseJson serde json = .ok header → header.asObject.isSome →
      (json.length ≤ 65536 → ∀ reserved body, reserved.length = 4 →
        Framing.parse serde (Framing.encodeLidar json reserved body) =
          .ok (.lidar, header, body)) ∧
      (json.length < 65536 → ∀ r₀ r₁ body,
        if json.length = 2 ∧ r₀ = 0 ∧ r₁ = 0 then
          ∀ frame header', Framing.parse serde (Framing.encodeNormal json r₀ r₁ body) ≠
            .ok (frame, header', body)
        else
          Framing.parse serde (Framing.encodeNormal json r₀ r₁ body) =
            .ok (.normal, header, body)) := by
  refine ⟨fun buffer frame header body => ?_, fun json header hjson hobject => ⟨?_, ?_⟩⟩
  · split
    next htag => exact Framing.parse_lidar htag
    next htag => exact Framing.parse_other htag
  · intro hlength reserved body hreserved
    exact Framing.parse_encodeLidar hjson hobject hlength hreserved
  · intro hlength r₀ r₁ body
    split
    next htag => exact fun frame header' => Framing.parse_ambiguous hlength htag
    next htag => exact Framing.parse_encodeNormal hjson hobject hlength htag

end Unitree
