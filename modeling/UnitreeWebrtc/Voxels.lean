/-
The two voxel decoders of the LiDAR codec.

A bitmap holds one bit a voxel, 128 by 128 of them a slice, most significant bit
first.  `bits_to_points_optimized` shifts each byte to the left until it is zero;
`bits_to_points`, which it replaced, tests the eight bits of a byte one by one.  They
compute in different float formats, so they are compared before the arithmetic: both
are the list of set bits of the bitmap (`setBits`), each at its place (`locate`).

The float formats are arbitrary: nothing depends on what `*` and `+` are.

* `shiftBits_eq` — the shifting loop visits the set bits of a byte;
* `bitsToPointsOptimized_eq`, `bitsToPoints_eq` — the decoders;
* `locate_injective`, `locate_le_maxIndices` — places are apart, and within the
  bounds whose coordinates were checked;
* `voxel_decoders_agree` — together.
-/
import UnitreeWebrtc.Media
import UnitreeWebrtc.Service

namespace Unitree

def maxBitmapBytes : ℕ := 1024 * 1024

def maxPoints : ℕ := 1000000

def bytesPerRow : ℕ := 16

def bytesPerSlice : ℕ := 2048

structure Xyz (α : Type) where
  x : α
  y : α
  z : α
deriving DecidableEq

namespace Xyz

variable {α β : Type}

def map (f : α → β) (v : Xyz α) : Xyz β := ⟨f v.x, f v.y, f v.z⟩

def toList (v : Xyz α) : List α := [v.x, v.y, v.z]

end Xyz

/-- What the codec uses of a float format. -/
structure FloatFormat (F : Type) where
  /-- `index as f32`, or `as f64`. -/
  ofIndex : ℕ → F
  add : F → F → F
  mul : F → F → F
  isFinite : F → Bool
  /-- `value <= 0.0`. -/
  isNonPositive : F → Bool

/-- `f64` and `f32`, and the cast between them. -/
structure FloatFormats (W F : Type) where
  f64 : FloatFormat W
  f32 : FloatFormat F
  /-- `value as f32`. -/
  toF32 : W → F

variable {W F : Type}

/-! ### The codec -/

/-- The greatest index of each axis in a bitmap of this size. -/
def maxIndices (size : ℕ) : Xyz ℕ :=
  ⟨bytesPerRow * 8 - 1, bytesPerSlice / bytesPerRow - 1, (size - 1) / bytesPerSlice⟩

def validateGeometry (c : FloatFormats W F) (size : ℕ) (origin : Xyz W) (resolution : W) :
    Except String Unit :=
  if size > maxBitmapBytes || !c.f64.isFinite resolution || c.f64.isNonPositive resolution then
    .error "Invalid LiDAR size or resolution"
  else if !c.f32.isFinite (c.toF32 resolution) || c.f32.isNonPositive (c.toF32 resolution) ||
      (origin.toList.zip (maxIndices size).toList).any (fun (value, index) =>
        !c.f64.isFinite value || !c.f32.isFinite (c.toF32 value) ||
          !c.f32.isFinite (c.f32.add (c.toF32 value)
            (c.f32.mul (c.f32.ofIndex index) (c.toF32 resolution)))) then
    .error "LiDAR coordinates exceed finite f32 range"
  else .ok ()

/-- `count_ones`. -/
def countOnes (byte : UInt8) : ℕ := (List.range 8).countP byte.toNat.testBit

/-- The capacity that is reserved for the points. -/
def pointCapacity (buffer : List UInt8) : Except String ℕ :=
  match buffer.foldlM (fun count byte => checkedAdd count (countOnes byte)) 0 with
  | none => .error "LiDAR point count overflow"
  | some pointCount =>
    if pointCount > maxPoints then .error "LiDAR point count exceeds resource budget"
    else
      match checkedMul pointCount 3 with
      | none => .error "LiDAR output size overflow"
      | some capacity => .ok capacity

/-- The bits of a byte that are not shifted out yet, read backwards, get less with
every shift. -/
theorem reverse_shift_lt {bits : UInt8} (h : bits ≠ 0) :
    (bits <<< 1).toBitVec.reverse.toNat < bits.toBitVec.reverse.toNat := by
  have hall : ∀ b : BitVec 8, b ≠ 0#8 → (b <<< 1).reverse.toNat < b.reverse.toNat := by
    decide +kernel
  refine hall bits.toBitVec fun hzero => h ?_
  rw [← UInt8.toBitVec_inj, hzero]
  rfl

/-- `while bits != 0`, where `pointAt` is the point of a bit. -/
def shiftBits {α : Type} (pointAt : ℕ → Xyz α) (bits : UInt8) (bitOffset : ℕ) (points : List α) :
    List α :=
  if bits = 0 then points
  else
    shiftBits pointAt (bits <<< 1) (bitOffset + 1)
      (if bits &&& 0x80 ≠ 0 then points ++ (pointAt bitOffset).toList else points)
termination_by bits.toBitVec.reverse.toNat
decreasing_by exact reverse_shift_lt ‹_›

def bitsToPointsOptimized (c : FloatFormats W F) (buffer : List UInt8) (origin : Xyz W)
    (resolution : W) : Except String (List F) :=
  match validateGeometry c buffer.length origin resolution with
  | .error e => .error e
  | .ok () =>
    match pointCapacity buffer with
    | .error e => .error e
    | .ok _ =>
      let resolution := c.toF32 resolution
      let originX := c.toF32 origin.x
      let originY := c.toF32 origin.y
      let originZ := c.toF32 origin.z
      .ok <| buffer.zipIdx.foldl (fun points (byteValue, byteIndex) =>
        if byteValue = 0 then points
        else
          let z := c.f32.ofIndex (byteIndex / bytesPerSlice)
          let nSlice := byteIndex % bytesPerSlice
          let y := c.f32.ofIndex (nSlice / bytesPerRow)
          let xBase := nSlice % bytesPerRow * 8
          shiftBits (fun bitOffset =>
            let x := c.f32.ofIndex (xBase + bitOffset)
            ⟨c.f32.add (c.f32.mul x resolution) originX, c.f32.add (c.f32.mul y resolution) originY,
              c.f32.add (c.f32.mul z resolution) originZ⟩) byteValue 0 points) []

/-- `for bit_offset in 0..8`. -/
def testBits {α : Type} (pointAt : ℕ → Xyz α) (byteValue : UInt8) (points : List α) : List α :=
  (List.range 8).foldl (fun points bitOffset =>
    if byteValue &&& (1 <<< (7 - UInt8.ofNat bitOffset)) ≠ 0 then
      points ++ (pointAt bitOffset).toList
    else points) points

def bitsToPoints (f64 : FloatFormat W) (buffer : List UInt8) (origin : Xyz W) (resolution : W) :
    List W :=
  buffer.zipIdx.foldl (fun points (byteValue, byteIndex) =>
    if byteValue = 0 then points
    else
      let z := f64.ofIndex (byteIndex / bytesPerSlice)
      let nSlice := byteIndex % bytesPerSlice
      let y := f64.ofIndex (nSlice / bytesPerRow)
      let xBase := nSlice % bytesPerRow * 8
      testBits (fun bitOffset =>
        let x := f64.ofIndex (xBase + bitOffset)
        ⟨f64.add (f64.mul x resolution) origin.x, f64.add (f64.mul y resolution) origin.y,
          f64.add (f64.mul z resolution) origin.z⟩) byteValue points) []

/-! ### What they decode -/

/-- The bits of a byte, the most significant one first. -/
def bitSet (byte : UInt8) (j : ℕ) : Bool := byte.toNat.testBit (7 - j)

def setOffsets (byte : UInt8) : List ℕ := (List.range 8).filter (bitSet byte)

/-- The set bits of a bitmap, as byte and bit. -/
def setBits (buffer : List UInt8) : List (ℕ × ℕ) :=
  buffer.zipIdx.flatMap fun (byte, i) => (setOffsets byte).map fun j => (i, j)

/-- Where the voxel of a bit is. -/
def locate (bit : ℕ × ℕ) : Xyz ℕ :=
  ⟨bit.1 % 16 * 8 + bit.2, bit.1 % 2048 / 16, bit.1 / 2048⟩

/-- `index * resolution + origin` on each axis. -/
def FloatFormat.point (f : FloatFormat F) (origin : Xyz F) (resolution : F) (v : Xyz ℕ) : Xyz F :=
  ⟨f.add (f.mul (f.ofIndex v.x) resolution) origin.x,
    f.add (f.mul (f.ofIndex v.y) resolution) origin.y,
    f.add (f.mul (f.ofIndex v.z) resolution) origin.z⟩

/-! ### One byte -/

theorem bitSet_shift (bits : UInt8) {j : ℕ} (h : j < 7) :
    bitSet (bits <<< 1) j = bitSet bits (j + 1) := by
  have hlow : 7 - j < 8 := by omega
  have hhigh : 7 - j ≥ 1 := by omega
  have hnext : 7 - j - 1 = 7 - (j + 1) := by omega
  rw [bitSet, bitSet, UInt8.toNat_shiftLeft, show (1 : UInt8).toNat % 8 = 1 from rfl,
    Nat.testBit_mod_two_pow, Nat.testBit_shiftLeft]
  simp [hlow, hhigh, hnext]

theorem bitSet_shift_last (bits : UInt8) : bitSet (bits <<< 1) 7 = false := by
  rw [bitSet, UInt8.toNat_shiftLeft, show (1 : UInt8).toNat % 8 = 1 from rfl,
    Nat.testBit_mod_two_pow, Nat.testBit_shiftLeft]
  rfl

theorem bitSet_zero_iff (bits : UInt8) : bitSet bits 0 = true ↔ bits &&& 0x80 ≠ 0 := by
  have hall : ∀ b : BitVec 8, b.toNat.testBit 7 = true ↔ b &&& 0x80#8 ≠ 0#8 := by decide +kernel
  refine (hall bits.toBitVec).trans (not_congr ?_)
  rw [← UInt8.toBitVec_inj]
  rfl

/-- The bit a shift brings to the front, and those it leaves. -/
theorem setOffsets_shift (bits : UInt8) :
    setOffsets bits =
      (if bits &&& 0x80 ≠ 0 then [0] else []) ++ (setOffsets (bits <<< 1)).map (· + 1) := by
  have hrest : setOffsets (bits <<< 1) = (List.range 7).filter (bitSet (bits <<< 1)) := by
    rw [setOffsets, List.range_succ, List.filter_append]
    simp [bitSet_shift_last]
  have hshift : (List.range 7).filter (bitSet (bits <<< 1)) =
      (List.range 7).filter (bitSet bits ∘ Nat.succ) := by
    refine List.filter_congr fun j hj => bitSet_shift bits (List.mem_range.mp hj)
  rw [hrest, hshift, setOffsets, List.range_succ_eq_map, List.filter_cons, List.filter_map]
  by_cases hfirst : bits &&& 0x80 ≠ 0
  · rw [if_pos ((bitSet_zero_iff bits).mpr hfirst), if_pos hfirst]
    rfl
  · rw [if_neg (mt (bitSet_zero_iff bits).mp hfirst), if_neg hfirst]
    rfl

theorem setOffsets_zero : setOffsets 0 = [] := by decide

/-- The shifting loop visits the set bits of a byte. -/
theorem shiftBits_eq {α : Type} (pointAt : ℕ → Xyz α) (bits : UInt8) (offset : ℕ)
    (points : List α) :
    shiftBits pointAt bits offset points =
      points ++ (setOffsets bits).flatMap fun j => (pointAt (offset + j)).toList := by
  induction bits, offset, points using shiftBits.induct pointAt with
  | case1 offset points =>
    rw [shiftBits, if_pos rfl, setOffsets_zero, List.flatMap_nil, List.append_nil]
  | case2 bits offset points hzero ih =>
    rw [dite_eq_ite] at ih
    rw [shiftBits, if_neg hzero, ih, setOffsets_shift bits, List.flatMap_append, List.flatMap_map,
      ← List.append_assoc]
    congr 1
    · split <;> simp
    · simp only [Nat.add_assoc, Nat.add_comm 1]

theorem testBit_and_iff (byte : UInt8) {j : ℕ} (h : j < 8) :
    byte &&& (1 <<< (7 - UInt8.ofNat j)) ≠ 0 ↔ bitSet byte j = true := by
  have hall : ∀ (b : BitVec 8) (j : Fin 8),
      b &&& (1#8 <<< (7 - j.val)) ≠ 0#8 ↔ b.toNat.testBit (7 - j.val) = true := by
    decide +kernel
  refine Iff.trans (not_congr ?_) (hall byte.toBitVec ⟨j, h⟩)
  rw [← UInt8.toBitVec_inj]
  interval_cases j <;> rfl

/-- And so does the loop that tests every bit. -/
theorem testBits_eq {α : Type} (pointAt : ℕ → Xyz α) (byte : UInt8) (points : List α) :
    testBits pointAt byte points =
      points ++ (setOffsets byte).flatMap fun j => (pointAt j).toList := by
  have hfold : ∀ (offsets : List ℕ) (points : List α), (∀ j ∈ offsets, j < 8) →
      offsets.foldl (fun points j =>
        if byte &&& (1 <<< (7 - UInt8.ofNat j)) ≠ 0 then points ++ (pointAt j).toList
        else points) points =
      points ++ (offsets.filter (bitSet byte)).flatMap fun j => (pointAt j).toList := by
    intro offsets
    induction offsets with
    | nil => intro points _; simp
    | cons j rest ih =>
      intro points hlt
      have hj := testBit_and_iff byte (hlt j List.mem_cons_self)
      rw [List.foldl_cons, ih _ fun k hk => hlt k (List.mem_cons_of_mem _ hk), List.filter_cons]
      by_cases hset : bitSet byte j = true
      · rw [if_pos hset, if_pos (hj.mpr hset), List.flatMap_cons, List.append_assoc]
      · rw [if_neg hset, if_neg (mt hj.mp hset)]
  exact hfold _ _ fun j hj => List.mem_range.mp hj

/-! ### The bitmap -/

/-- The number of set bits. -/
def popcount (buffer : List UInt8) : ℕ := (buffer.map countOnes).sum

theorem length_setOffsets (byte : UInt8) : (setOffsets byte).length = countOnes byte := by
  have hmirror : (List.range 8).map (7 - ·) = (List.range 8).reverse := by decide
  calc (setOffsets byte).length
      = (List.range 8).countP (byte.toNat.testBit ∘ (7 - ·)) := List.countP_eq_length_filter.symm
    _ = ((List.range 8).map (7 - ·)).countP byte.toNat.testBit := List.countP_map.symm
    _ = countOnes byte := by rw [hmirror, List.countP_reverse, countOnes]

theorem length_setBits (buffer : List UInt8) : (setBits buffer).length = popcount buffer := by
  have hbyte : (fun a : UInt8 × ℕ => ((setOffsets a.1).map fun j => (a.2, j)).length) =
      countOnes ∘ Prod.fst := by
    funext a
    rw [List.length_map, length_setOffsets, Function.comp_apply]
  rw [setBits, List.length_flatMap]
  rw [hbyte, ← List.map_map, List.zipIdx_map_fst, popcount]

theorem mem_setBits {buffer : List UInt8} {i j : ℕ} :
    (i, j) ∈ setBits buffer ↔ j < 8 ∧ ∃ byte, buffer[i]? = some byte ∧ bitSet byte j = true := by
  simp only [setBits, List.mem_flatMap, List.mem_map, setOffsets, List.mem_filter, List.mem_range]
  constructor
  · rintro ⟨⟨byte, k⟩, hmem, j', ⟨hlt, hset⟩, heq⟩
    obtain ⟨rfl, rfl⟩ := Prod.mk.inj heq
    exact ⟨hlt, byte, List.mk_mem_zipIdx_iff_getElem?.mp hmem, hset⟩
  · rintro ⟨hlt, byte, hbyte, hset⟩
    exact ⟨(byte, i), List.mk_mem_zipIdx_iff_getElem?.mpr hbyte, j, ⟨hlt, hset⟩, rfl⟩

/-- In increasing byte order, and within a byte by increasing offset. -/
theorem pairwise_setBits (buffer : List UInt8) :
    (setBits buffer).Pairwise fun a b => a.1 < b.1 ∨ a.1 = b.1 ∧ a.2 < b.2 := by
  rw [setBits, List.pairwise_flatMap]
  constructor
  · intro a _
    rw [List.pairwise_map]
    exact ((List.pairwise_lt_range (n := 8)).filter _).imp fun h => Or.inr ⟨rfl, h⟩
  · have hbytes : (buffer.zipIdx.map Prod.snd).Pairwise (· < ·) := by
      rw [List.zipIdx_map_snd]
      exact List.pairwise_lt_range'
    refine (List.pairwise_map.mp hbytes).imp fun {a b} hlt => ?_
    intro x hx y hy
    obtain ⟨_, _, rfl⟩ := List.mem_map.mp hx
    obtain ⟨_, _, rfl⟩ := List.mem_map.mp hy
    exact Or.inl hlt

theorem locate_injective {i i' j j' : ℕ} (hj : j < 8) (hj' : j' < 8)
    (h : locate (i, j) = locate (i', j')) : (i, j) = (i', j') := by
  simp only [locate, Xyz.mk.injEq] at h
  obtain ⟨hx, hy, hz⟩ := h
  have hi : i = i' := by omega
  have hbit : j = j' := by omega
  rw [hi, hbit]

/-- Every index is within the bounds whose coordinates were checked. -/
theorem locate_le_maxIndices {buffer : List UInt8} {bit : ℕ × ℕ} (h : bit ∈ setBits buffer) :
    (locate bit).x ≤ (maxIndices buffer.length).x ∧
    (locate bit).y ≤ (maxIndices buffer.length).y ∧
    (locate bit).z ≤ (maxIndices buffer.length).z := by
  obtain ⟨i, j⟩ := bit
  obtain ⟨hj, byte, hbyte, -⟩ := mem_setBits.mp h
  obtain ⟨hi, -⟩ := List.getElem?_eq_some_iff.mp hbyte
  simp only [locate, maxIndices, bytesPerRow, bytesPerSlice]
  refine ⟨by omega, by omega, ?_⟩
  exact Nat.div_le_div_right (by omega)

/-! ### The decoders -/

theorem foldlM_countOnes (buffer : List UInt8) : ∀ count,
    count ≤ usizeMax →
    buffer.foldlM (fun count byte => checkedAdd count (countOnes byte)) count =
      if count + popcount buffer ≤ usizeMax then some (count + popcount buffer) else none := by
  induction buffer with
  | nil =>
    intro count hcount
    rw [show popcount [] = 0 from rfl, Nat.add_zero, if_pos hcount]
    rfl
  | cons byte rest ih =>
    intro count hcount
    have hsum : popcount (byte :: rest) = countOnes byte + popcount rest := by
      rw [popcount, List.map_cons, List.sum_cons, popcount]
    rw [List.foldlM_cons, checkedAdd, hsum]
    by_cases hfits : count + countOnes byte ≤ usizeMax
    · rw [if_pos hfits]
      exact (ih _ hfits).trans (by rw [Nat.add_assoc])
    · rw [if_neg hfits, if_neg (by omega)]
      rfl

/-- The capacity is three floats a set bit, unless there are too many. -/
theorem pointCapacity_ok {buffer : List UInt8} (h : popcount buffer ≤ maxPoints) :
    pointCapacity buffer = .ok (3 * popcount buffer) := by
  have hmax : 3 * maxPoints ≤ usizeMax := by decide
  have hcount : 0 + popcount buffer ≤ usizeMax := by omega
  rw [pointCapacity, foldlM_countOnes buffer 0 (Nat.zero_le _), if_pos hcount]
  dsimp only
  rw [if_neg (by omega), checkedMul, if_pos (by omega), Nat.zero_add, Nat.mul_comm]

theorem pointCapacity_error {buffer : List UInt8} (h : maxPoints < popcount buffer) :
    ∃ e, pointCapacity buffer = .error e := by
  rw [pointCapacity, foldlM_countOnes buffer 0 (Nat.zero_le _), Nat.zero_add]
  split_ifs with hcount
  · dsimp only
    rw [if_pos h]
    exact ⟨_, rfl⟩
  · exact ⟨_, rfl⟩

/-- The loop over the bytes, whatever is done with one. -/
theorem foldl_bytes {α : Type} (f : UInt8 × ℕ → List α → List α) (g : UInt8 × ℕ → List α)
    (hf : ∀ a points, f a points = points ++ g a) (hg : ∀ i, g (0, i) = [])
    (bytes : List (UInt8 × ℕ)) : ∀ points,
    bytes.foldl (fun points a => if a.1 = 0 then points else f a points) points =
      points ++ bytes.flatMap g := by
  induction bytes with
  | nil => intro points; simp
  | cons a rest ih =>
    intro points
    obtain ⟨byte, i⟩ := a
    rw [List.foldl_cons, ih, List.flatMap_cons, ← List.append_assoc]
    by_cases hzero : byte = 0
    · rw [if_pos hzero, hzero, hg, List.append_nil]
    · rw [if_neg hzero, hf]

/-- The point of a bit of a byte, put together as the loops do. -/
theorem flatMap_setOffsets {α : Type} (f : Xyz ℕ → Xyz α) (buffer : List UInt8) :
    (buffer.zipIdx.flatMap fun a => (setOffsets a.1).flatMap fun j => (f
      ⟨a.2 % bytesPerSlice % bytesPerRow * 8 + j, a.2 % bytesPerSlice / bytesPerRow,
        a.2 / bytesPerSlice⟩).toList) =
      (setBits buffer).flatMap fun bit => (f (locate bit)).toList := by
  have hrow : ∀ i, i % bytesPerSlice % bytesPerRow = i % 16 := by
    intro i
    rw [bytesPerSlice, bytesPerRow]
    omega
  rw [setBits, List.flatMap_assoc]
  simp only [List.flatMap_map, hrow]
  rfl

theorem bitsToPointsOptimized_eq {c : FloatFormats W F} {buffer : List UInt8} {origin : Xyz W}
    {resolution : W} (hvalid : validateGeometry c buffer.length origin resolution = .ok ())
    (hpoints : popcount buffer ≤ maxPoints) :
    bitsToPointsOptimized c buffer origin resolution =
      .ok ((setBits buffer).flatMap fun bit =>
        (c.f32.point (origin.map c.toF32) (c.toF32 resolution) (locate bit)).toList) := by
  rw [bitsToPointsOptimized, hvalid]
  dsimp only
  rw [pointCapacity_ok hpoints]
  dsimp only
  rw [foldl_bytes _ _ (fun a points => shiftBits_eq _ _ _ _) fun i => by rw [setOffsets_zero]; rfl,
    List.nil_append, ← flatMap_setOffsets]
  simp only [Nat.zero_add]
  rfl

theorem bitsToPoints_eq (f64 : FloatFormat W) (buffer : List UInt8) (origin : Xyz W)
    (resolution : W) :
    bitsToPoints f64 buffer origin resolution =
      (setBits buffer).flatMap fun bit => (f64.point origin resolution (locate bit)).toList := by
  rw [bitsToPoints]
  dsimp only
  rw [foldl_bytes _ _ (fun a points => testBits_eq _ _ _) fun i => by rw [setOffsets_zero]; rfl,
    List.nil_append, ← flatMap_setOffsets]
  rfl

theorem length_flatMap_toList {α : Type} (f : ℕ × ℕ → Xyz α) (bits : List (ℕ × ℕ)) :
    (bits.flatMap fun bit => (f bit).toList).length = 3 * bits.length := by
  induction bits with
  | nil => rfl
  | cons bit rest ih =>
    rw [List.flatMap_cons, List.length_append, ih, List.length_cons]
    show 3 + 3 * rest.length = 3 * (rest.length + 1)
    omega

/-- The optimised decoder and the plain one.  For every bitmap and geometry, both
decode the same set bits at the same places; the places are apart and within the
bounds that were checked, the capacity is exact, and too many points are an error. -/
theorem voxel_decoders_agree (c : FloatFormats W F) (buffer : List UInt8) (origin : Xyz W)
    (resolution : W) :
    -- the same sequence of places, with the coordinates of each format
    (validateGeometry c buffer.length origin resolution = .ok () → popcount buffer ≤ maxPoints →
      ∃ points, bitsToPointsOptimized c buffer origin resolution = .ok points ∧
        points = (((setBits buffer).map locate).flatMap fun v =>
          (c.f32.point (origin.map c.toF32) (c.toF32 resolution) v).toList) ∧
        points.length = 3 * popcount buffer ∧ pointCapacity buffer = .ok points.length) ∧
    bitsToPoints c.f64 buffer origin resolution =
      (((setBits buffer).map locate).flatMap fun v =>
        (c.f64.point origin resolution v).toList) ∧
    -- one place a set bit, by byte and then from the most significant bit on
    (∀ i j, (i, j) ∈ setBits buffer ↔
      j < 8 ∧ ∃ byte, buffer[i]? = some byte ∧ byte.toNat.testBit (7 - j) = true) ∧
    ((setBits buffer).Pairwise fun a b => a.1 < b.1 ∨ a.1 = b.1 ∧ a.2 < b.2) ∧
    (setBits buffer).length = popcount buffer ∧
    (∀ a ∈ setBits buffer, ∀ b ∈ setBits buffer, locate a = locate b → a = b) ∧
    -- a byte is shifted out after eight steps
    (∀ byte : UInt8, (fun bits : UInt8 => bits <<< 1)^[8] byte = 0) ∧
    (∀ v ∈ (setBits buffer).map locate, v.x ≤ (maxIndices buffer.length).x ∧
      v.y ≤ (maxIndices buffer.length).y ∧ v.z ≤ (maxIndices buffer.length).z) ∧
    (maxPoints < popcount buffer →
      ∃ e, bitsToPointsOptimized c buffer origin resolution = .error e) := by
  refine ⟨?_, ?_, fun _ _ => mem_setBits, pairwise_setBits buffer, length_setBits buffer, ?_, ?_,
    ?_, ?_⟩
  · intro hvalid hpoints
    refine ⟨_, bitsToPointsOptimized_eq hvalid hpoints, ?_, ?_, ?_⟩
    · rw [List.flatMap_map]
    · rw [length_flatMap_toList, length_setBits]
    · rw [pointCapacity_ok hpoints, length_flatMap_toList, length_setBits]
  · rw [bitsToPoints_eq, List.flatMap_map]
  · rintro ⟨i, j⟩ ha ⟨i', j'⟩ hb h
    exact locate_injective (mem_setBits.mp ha).1 (mem_setBits.mp hb).1 h
  · intro byte
    have hall : ∀ b : BitVec 8, (fun bits : BitVec 8 => bits <<< 1)^[8] b = 0#8 := by decide +kernel
    rw [← UInt8.toBitVec_inj]
    exact hall byte.toBitVec
  · intro v hv
    obtain ⟨bit, hbit, rfl⟩ := List.mem_map.mp hv
    exact locate_le_maxIndices hbit
  · intro hmany
    obtain ⟨e, he⟩ := pointCapacity_error hmany
    rw [bitsToPointsOptimized]
    rcases validateGeometry c buffer.length origin resolution with e' | _
    · exact ⟨e', rfl⟩
    · dsimp only
      rw [he]
      exact ⟨e, rfl⟩

/-! ### The worker -/

/-- `decompress_lz4`, where `decompress` is the library's. -/
def decompressLz4 (decompress : List UInt8 → ℕ → Except String (List UInt8))
    (compressed : List UInt8) (decompressedSize : ℕ) : Except String (List UInt8) :=
  if decompressedSize > maxBitmapBytes || compressed.length > maxCompressedBytes then
    .error "LiDAR compressed/decompressed size exceeds resource budget"
  else
    match decompress compressed decompressedSize with
    | .error e => .error ("lz4 decompress failed: " ++ e)
    | .ok buffer => .ok buffer

def decodeLidar (c : FloatFormats W F) (decompress : List UInt8 → ℕ → Except String (List UInt8))
    (compressed : List UInt8) (srcSize : ℕ) (origin : Xyz W) (resolution : W) :
    Except String (List F) :=
  match validateGeometry c srcSize origin resolution with
  | .error e => .error e
  | .ok () =>
    match decompressLz4 decompress compressed srcSize with
    | .error e => .error e
    | .ok decompressed =>
      if decompressed.length ≠ srcSize then
        .error s!"Decompressed size {decompressed.length} != expected {srcSize}"
      else bitsToPointsOptimized c decompressed origin resolution

end Unitree
