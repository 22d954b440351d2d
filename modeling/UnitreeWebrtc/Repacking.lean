/-
Rows of a video plane, without their padding.

`packed_bgr_frame` checks the geometry with checked arithmetic and then walks the
plane with operations that panic: `chunks_exact` of a zero size, a slice past the
end of a row.  Here the walk is written with those panics, and with the capacity
it reserves, and the checks are shown to exclude them for every buffer.

* `packedBgrFrameOrPanic` — the walk with its panics;
* `getElem_packRows` — byte by byte, what the rows are packed to;
* `bgr_repacking_exact` — no panic, no more than 64 MiB, and the right bytes.
-/
import UnitreeWebrtc.Media

namespace Unitree

/-- Where the walk could leave its bounds. -/
inductive Panic where
  | zeroChunkSize
  | sliceOutOfRange
deriving DecidableEq

/-- `row[..n]`. -/
def sliceTo (n : ℕ) (row : List UInt8) : Except Panic (List UInt8) :=
  if n ≤ row.length then .ok (row.take n) else .error .sliceOutOfRange

/-- `data.extend_from_slice(&row[..row_bytes])` for every row. -/
def extendRows (rowBytes : ℕ) : List (List UInt8) → List UInt8 → Except Panic (List UInt8)
  | [], data => .ok data
  | row :: rows, data =>
    match sliceTo rowBytes row with
    | .error e => .error e
    | .ok bytes => extendRows rowBytes rows (data ++ bytes)

def packRowsOrPanic (plane : List UInt8) (stride rowBytes height : ℕ) :
    Except Panic (List UInt8) :=
  if stride = 0 then .error .zeroChunkSize
  else extendRows rowBytes ((chunksExact stride plane).take height) []

/-- `packed_bgr_frame` with its panics: the frame and the capacity that was
reserved for it, where `none` is `FlowError::Error`. -/
def packedBgrFrameOrPanic (buffer : BufferRef) (info : VideoInfo) :
    Except Panic (Option (DecodedFrame × ℕ)) :=
  if ¬ info.isBgr then .ok none
  else
    match bgrOutputSize info.width info.height, buffer.mapped with
    | some _, some frame =>
      match bgrOutputSize frame.width frame.height, usizeOf frame.planeStride with
      | some (rowBytes, outputBytes), some stride =>
        match checkedMul stride frame.height.toNat with
        | none => .ok none
        | some planeBytes =>
          if stride < rowBytes ∨ planeBytes > maxVideoBufferBytes ∨
              (checkedAdd frame.planeOffset planeBytes).all (· > buffer.size) then .ok none
          else
            match frame.planeData with
            | none => .ok none
            | some plane =>
              if plane.length < planeBytes then .ok none
              else
                match packRowsOrPanic plane stride rowBytes frame.height.toNat with
                | .error e => .error e
                | .ok data =>
                  .ok (some ({ data, width := frame.width, height := frame.height }, outputBytes))
      | _, _ => .ok none
    | _, _ => .ok none

/-! ### The walk -/

/-- Rows that are long enough are packed without a panic. -/
theorem extendRows_eq {rowBytes : ℕ} {rows : List (List UInt8)}
    (h : ∀ row ∈ rows, rowBytes ≤ row.length) : ∀ data,
    extendRows rowBytes rows data = .ok (data ++ rows.flatMap (List.take rowBytes)) := by
  induction rows with
  | nil => intro data; simp [extendRows]
  | cons row rows ih =>
    intro data
    rw [extendRows, sliceTo, if_pos (h row List.mem_cons_self)]
    dsimp only
    rw [ih (fun r hr => h r (List.mem_cons_of_mem _ hr)), List.flatMap_cons, List.append_assoc]

theorem packRowsOrPanic_eq {plane : List UInt8} {stride rowBytes height : ℕ} (hpos : 0 < rowBytes)
    (hstride : rowBytes ≤ stride) :
    packRowsOrPanic plane stride rowBytes height = .ok (packRows plane stride rowBytes height) := by
  rw [packRowsOrPanic, if_neg (by omega), extendRows_eq]
  · rw [List.nil_append, packRows]
  · intro row hrow
    rw [length_of_mem_chunksExact (List.mem_of_mem_take hrow)]
    exact hstride

/-- A place in rows of one length, put one after another. -/
theorem getElem_flatten {α : Type} {rows : List (List α)} {m : ℕ}
    (h : ∀ row ∈ rows, row.length = m) {c : ℕ} (hc : c < m) : ∀ r,
    rows.flatten[r * m + c]? = rows[r]?.bind fun row => row[c]? := by
  induction rows with
  | nil => intro r; simp
  | cons row rows ih =>
    intro r
    have hrow : row.length = m := h row List.mem_cons_self
    cases r with
    | zero =>
      rw [List.flatten_cons, Nat.zero_mul, Nat.zero_add, List.getElem?_append_left (by omega)]
      rfl
    | succ r =>
      have hnext : (r + 1) * m + c - row.length = r * m + c := by
        rw [Nat.add_mul, hrow]
        omega
      rw [List.flatten_cons, List.getElem?_append_right (by rw [Nat.add_mul, hrow]; omega), hnext,
        ih (fun r hr => h r (List.mem_cons_of_mem _ hr)), List.getElem?_cons_succ]

/-- Byte `c` of row `r` is where the stride puts it. -/
theorem getElem_packRows {plane : List UInt8} {stride rowBytes height r c : ℕ}
    (hstride : rowBytes ≤ stride) (hplane : stride * height ≤ plane.length) (hr : r < height)
    (hc : c < rowBytes) :
    (packRows plane stride rowBytes height)[r * rowBytes + c]? = plane[r * stride + c]? := by
  have hcount : height ≤ plane.length / stride :=
    (Nat.le_div_iff_mul_le (by omega)).mpr (by rw [Nat.mul_comm]; exact hplane)
  have hrows : ∀ row ∈ ((chunksExact stride plane).take height).map (List.take rowBytes),
      row.length = rowBytes := by
    intro row hrow
    obtain ⟨chunk, hchunk, rfl⟩ := List.mem_map.mp hrow
    rw [List.length_take, length_of_mem_chunksExact (List.mem_of_mem_take hchunk)]
    omega
  have hchunk : ((chunksExact stride plane).take height)[r]? =
      some ((plane.drop (r * stride)).take stride) := by
    rw [List.getElem?_take_of_lt hr, chunksExact, List.getElem?_map,
      List.getElem?_range (by omega)]
    rfl
  rw [packRows, List.flatMap_def, getElem_flatten hrows hc, List.getElem?_map, hchunk]
  show ((plane.drop (r * stride)).take stride |>.take rowBytes)[c]? = _
  rw [List.getElem?_take_of_lt hc, List.getElem?_take_of_lt (by omega), List.getElem?_drop]

/-! ### The frame -/

/-- What an accepted buffer has passed. -/
structure Packed (buffer : BufferRef) (frame : DecodedFrame) (ref : VideoFrameRef)
    (plane : List UInt8) (stride : ℕ) : Prop where
  mapped : buffer.mapped = some ref
  stride_eq : usizeOf ref.planeStride = some stride
  plane_eq : ref.planeData = some plane
  row_pos : 0 < 3 * ref.width.toNat
  row_le : 3 * ref.width.toNat ≤ stride
  output_le : 3 * ref.width.toNat * ref.height.toNat ≤ maxVideoBufferBytes
  plane_le : stride * ref.height.toNat ≤ plane.length
  frame_eq : frame =
    { data := packRows plane stride (3 * ref.width.toNat) ref.height.toNat
      width := ref.width
      height := ref.height }

theorem packedBgrFrame_packed {buffer : BufferRef} {info : VideoInfo} {frame : DecodedFrame}
    (h : packedBgrFrame buffer info = some frame) :
    ∃ ref plane stride, Packed buffer frame ref plane stride := by
  rw [packedBgrFrame] at h
  split at h
  · exact absurd h (by simp)
  obtain ⟨-, -, h⟩ := Option.bind_eq_some_iff.mp h
  obtain ⟨ref, hmapped, h⟩ := Option.bind_eq_some_iff.mp h
  obtain ⟨⟨rowBytes, outputBytes⟩, hsize, h⟩ := Option.bind_eq_some_iff.mp h
  obtain ⟨stride, hstride, h⟩ := Option.bind_eq_some_iff.mp h
  obtain ⟨planeBytes, hbytes, h⟩ := Option.bind_eq_some_iff.mp h
  obtain ⟨hrow, hout, hpos, hmax⟩ := bgrOutputSize_eq hsize
  split at h
  · exact absurd h (by simp)
  next hbounds =>
    obtain ⟨plane, hplane, h⟩ := Option.bind_eq_some_iff.mp h
    split at h
    · exact absurd h (by simp)
    next hlong =>
      rw [not_or, not_lt] at hbounds
      rw [← (checkedMul_eq_some.mp hbytes).1, not_lt] at hlong
      rw [hrow] at hpos hbounds h
      rw [hout, hrow] at hmax
      exact ⟨ref, plane, stride, hmapped, hstride, hplane, hpos, hbounds.1, hmax, hlong,
        (Option.some_inj.mp h).symm⟩

/-- The checks exclude every panic of the walk. -/
theorem packedBgrFrameOrPanic_eq (buffer : BufferRef) (info : VideoInfo) :
    packedBgrFrameOrPanic buffer info = .ok ((packedBgrFrame buffer info).map fun frame =>
      (frame, 3 * frame.width.toNat * frame.height.toNat)) := by
  rw [packedBgrFrameOrPanic, packedBgrFrame]
  split
  · rfl
  rcases bgrOutputSize info.width info.height with _ | caps
  · rfl
  rcases buffer.mapped with _ | ref
  · rfl
  dsimp only [Option.bind_some]
  rcases hsize : bgrOutputSize ref.width ref.height with _ | ⟨rowBytes, outputBytes⟩
  · rfl
  obtain ⟨rfl, rfl, hpos, -⟩ := bgrOutputSize_eq hsize
  rcases usizeOf ref.planeStride with _ | stride
  · rfl
  dsimp only [Option.bind_some]
  rcases checkedMul stride ref.height.toNat with _ | planeBytes
  · rfl
  dsimp only [Option.bind_some]
  split
  · rfl
  next hbounds =>
    rw [not_or, not_lt] at hbounds
    rcases ref.planeData with _ | plane
    · rfl
    dsimp only [Option.bind_some]
    split
    · rfl
    · rw [packRowsOrPanic_eq hpos hbounds.1]
      rfl

/-- BGR repacking is exact.  For every buffer the function returns, without a
panic; a frame it returns took at most 64 MiB, which it fills, and every byte of it
is the byte of the plane in its row and column, at the plane's own stride. -/
theorem bgr_repacking_exact (buffer : BufferRef) (info : VideoInfo) :
    ∃ result, packedBgrFrameOrPanic buffer info = .ok result ∧
      result.map Prod.fst = packedBgrFrame buffer info ∧
      ∀ frame capacity, result = some (frame, capacity) →
        capacity ≤ 64 * 1024 * 1024 ∧ frame.data.length = capacity ∧
        frame.data.length = 3 * frame.width.toNat * frame.height.toNat ∧
        ∃ ref plane, ∃ stride : ℕ, buffer.mapped = some ref ∧ ref.planeData = some plane ∧
          ref.planeStride.toInt = stride ∧ frame.width = ref.width ∧ frame.height = ref.height ∧
          ∀ r < frame.height.toNat, ∀ c < 3 * frame.width.toNat,
            r * stride + c < plane.length ∧
            frame.data[r * (3 * frame.width.toNat) + c]? = plane[r * stride + c]? ∧
            ∀ bytes : List UInt8, plane = bytes.drop ref.planeOffset →
              frame.data[r * (3 * frame.width.toNat) + c]? =
                bytes[ref.planeOffset + (r * stride + c)]? := by
  refine ⟨_, packedBgrFrameOrPanic_eq buffer info, ?_, fun frame capacity h => ?_⟩
  · rw [Option.map_map]
    exact Option.map_id'
  obtain ⟨frame', hframe, hpair⟩ := Option.map_eq_some_iff.mp h
  simp only [Prod.mk.injEq] at hpair
  obtain ⟨rfl, rfl⟩ := hpair
  obtain ⟨ref, plane, stride, hp⟩ := packedBgrFrame_packed hframe
  have hlength : frame'.data.length = 3 * frame'.width.toNat * frame'.height.toNat := by
    rw [hp.frame_eq]
    exact length_packRows hp.row_le hp.row_pos hp.plane_le
  have hint : ref.planeStride.toInt = stride := by
    have hstride := hp.stride_eq
    rw [usizeOf] at hstride
    split at hstride
    · rw [← Option.some_inj.mp hstride]
      omega
    · exact absurd hstride (by simp)
  refine ⟨?_, hlength, hlength, ref, plane, stride, hp.mapped, hp.plane_eq, hint, ?_, ?_, ?_⟩
  · rw [hp.frame_eq]
    exact hp.output_le
  · rw [hp.frame_eq]
  · rw [hp.frame_eq]
  · intro r hr c hc
    rw [hp.frame_eq] at hr hc ⊢
    have hbyte := getElem_packRows hp.row_le hp.plane_le hr hc
    have hinside : r * stride + c < plane.length := by
      have hrow : (r + 1) * stride ≤ stride * ref.height.toNat := by
        rw [Nat.mul_comm stride]
        exact Nat.mul_le_mul_right stride hr
      rw [Nat.add_mul] at hrow
      have hle := hp.row_le
      have hplane := hp.plane_le
      dsimp only at hc
      omega
    refine ⟨hinside, hbyte, fun bytes hbytes => ?_⟩
    refine hbyte.trans ?_
    rw [hbytes, List.getElem?_drop]

end Unitree
