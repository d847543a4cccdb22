import Controlis.Codec.Hostile

/-!
# Unpacking PipeWire buffers

The compositor chooses the size, the pixel format, the stride and the length of
what it maps. Arithmetic wraps as in a release build: a negative stride becomes
a number close to `2 ^ 64`, whose product with the height exceeds every length.
-/

namespace Controlis.Portal
open Checked Strided Codec

inductive VideoFormat
  | rgba
  | bgra
  | rgbx
  | bgrx
  | other (raw : UInt32)
deriving DecidableEq, Repr

structure VideoInfo where
  format : VideoFormat
  width : UInt32
  height : UInt32

/-- A plane with its chunk; a mapped slice holds at most `isize::MAX` bytes. -/
structure Plane where
  stride : Int32
  data : Option (List UInt8)
  data_lt : ∀ bytes, data = some bytes → bytes.length < 2 ^ 63

structure FrameSlot where
  poisoned : Bool
  value : Option RgbaFrame
deriving DecidableEq, Repr

def FrameSlot.store (slot : FrameSlot) (frame : RgbaFrame) : FrameSlot :=
  if slot.poisoned then slot else { slot with value := some frame }

structure StreamData where
  frame : FrameSlot
  format : VideoInfo

def usize (n : Int32) : UInt64 := n.toInt64.toUInt64

def zeroed (n : UInt64) : Result (List UInt8) :=
  if n.toNat < 2 ^ 63 then .ok (List.replicate n.toNat 0) else .error (.fault .overflow)

def newWrapping (width height : UInt32) (data : List UInt8) : Result RgbaFrame :=
  if data.length ≠ (width.toUInt64 * height.toUInt64 * 4).toNat then
    fail (.dimensionMismatch width height data.length)
  else .ok ⟨width, height, data⟩

def VideoFormat.swapRb (format : VideoFormat) : Bool := format == .bgra || format == .bgrx

def convertPixel (format : VideoFormat) (s0 s1 s2 s3 : UInt8) : List UInt8 :=
  (if format.swapRb then [s2, s1, s0] else [s0, s1, s2]) ++
    [match format with
      | .rgba | .bgra => s3
      | _ => 255]

def convertRow (format : VideoFormat) : List UInt8 → List UInt8 → List UInt8
  | s0 :: s1 :: s2 :: s3 :: src, _ :: _ :: _ :: _ :: dst =>
    convertPixel format s0 s1 s2 s3 ++ convertRow format src dst
  | _, dst => dst

def convertRows (format : VideoFormat) (bytes : List UInt8) (stride width : UInt64) :
    List UInt8 → List ℕ → Result (List UInt8)
  | rgba, [] => .ok rgba
  | rgba, row :: rows => do
    let y := UInt64.ofNat row
    let src ← index bytes (y * stride).toNat (y * stride + width * 4).toNat
    let dst ← index rgba (y * width * 4).toNat ((y + 1) * width * 4).toNat
    convertRows format bytes stride width
      (overwrite rgba (y * width * 4).toNat (convertRow format src dst)) rows

def publishFrame (data : StreamData) : List Plane → Result StreamData
  | [] => .ok data
  | plane :: _ =>
    let stride := usize plane.stride
    let width := data.format.width.toUInt64
    let height := data.format.height.toUInt64
    if width = 0 ∨ height = 0 ∨ stride < width * 4 then .ok data
    else
      match plane.data with
      | none => .ok data
      | some bytes =>
        if bytes.length < (stride * height).toNat then .ok data
        else do
          let rgba ← zeroed (width * height * 4)
          let rgba ← convertRows data.format.format bytes stride width rgba
            (List.range height.toNat)
          match newWrapping width.toUInt32 height.toUInt32 rgba with
          | .error _ => .ok data
          | .ok frame => .ok { data with frame := data.frame.store frame }

/-- The callbacks of the stream: `param_changed` with a parsed format, and `process`. -/
inductive StreamEvent
  | paramChanged (format : VideoInfo)
  | process (buffer : Option (List Plane))

def streamStep (data : StreamData) : StreamEvent → Result StreamData
  | .paramChanged format => .ok { data with format := format }
  | .process none => .ok data
  | .process (some buffer) => publishFrame data buffer

def StreamData.start (format : VideoInfo) : StreamData := ⟨⟨false, none⟩, format⟩

def streamRun (data : StreamData) : List StreamEvent → Result StreamData
  | [] => .ok data
  | event :: events => do
    let data ← streamStep data event
    streamRun data events

structure HoldsFrame (info : VideoInfo) (stride : Int32) (bytes : List UInt8) : Prop where
  width : 0 < info.width.toNat
  height : 0 < info.height.toNat
  row : (4 * info.width.toNat : ℤ) ≤ stride.toInt
  length : stride.toInt * info.height.toNat ≤ bytes.length

structure Unpacked (info : VideoInfo) (stride : Int32) (bytes : List UInt8) (frame : RgbaFrame) :
    Prop where
  width : frame.width = info.width
  height : frame.height = info.height
  valid : frame.Valid
  pixel : ∀ x y, x < info.width.toNat → y < info.height.toNat → ∃ s0 s1 s2 s3,
    slice bytes (y * stride.toInt.toNat + 4 * x) 4 = [s0, s1, s2, s3] ∧
    frame.pixel x y =
      [if info.format = .bgra ∨ info.format = .bgrx then s2 else s0, s1,
        if info.format = .bgra ∨ info.format = .bgrx then s0 else s2,
        if info.format = .rgba ∨ info.format = .bgra then s3 else 255]

theorem usize_cases (n : Int32) :
    (0 ≤ n.toInt ∧ n.toInt < 2 ^ 31 ∧ ((usize n).toNat : ℤ) = n.toInt) ∨
      (n.toInt < 0 ∧ -2 ^ 31 ≤ n.toInt ∧ ((usize n).toNat : ℤ) = n.toInt + 2 ^ 64) := by
  have hlo := n.le_toInt
  have hhi := n.toInt_lt
  have hbits : (usize n).toNat = n.toInt64.toBitVec.toNat := rfl
  have hcond : n.toInt = n.toInt64.toBitVec.toInt := (Int32.toInt_toInt64 n).symm
  rw [BitVec.toInt_eq_toNat_cond] at hcond
  split_ifs at hcond <;> omega

theorem mul_toNat {a b : UInt64} (h : a.toNat * b.toNat < 2 ^ 64) :
    (a * b).toNat = a.toNat * b.toNat := by
  rw [UInt64.toNat_mul, Nat.mod_eq_of_lt h]

theorem mul_four_toNat {a : UInt64} (h : a.toNat * 4 < 2 ^ 64) : (a * 4).toNat = a.toNat * 4 :=
  mul_toNat h

theorem add_toNat {a b : UInt64} (h : a.toNat + b.toNat < 2 ^ 64) :
    (a + b).toNat = a.toNat + b.toNat := by
  rw [UInt64.toNat_add, Nat.mod_eq_of_lt h]

/-- The product of a negative stride and a height is longer than any buffer. -/
theorem negative_stride {n : Int32} {height : UInt32} (hn : n.toInt < 0) (hh : 0 < height.toNat) :
    2 ^ 63 ≤ (usize n * height.toUInt64).toNat := by
  have hlt := height.toNat_lt
  obtain ⟨hpos, -, -⟩ | ⟨-, hlo, hword⟩ := usize_cases n
  · omega
  · obtain ⟨k, hk⟩ : ∃ k : ℕ, n.toInt = -(k : ℤ) := ⟨(-n.toInt).toNat, by omega⟩
    have hk31 : k ≤ 2 ^ 31 := by omega
    have hk1 : 1 ≤ k := by omega
    have hprod : k * height.toNat ≤ 2 ^ 31 * (2 ^ 32 - 1) := Nat.mul_le_mul hk31 (by omega)
    have hprod1 : 1 ≤ k * height.toNat := Nat.mul_pos hk1 hh
    have hstride : (usize n).toNat = 2 ^ 64 - k := by omega
    have hwrap : (2 ^ 64 - k) * height.toNat =
        2 ^ 64 - k * height.toNat + 2 ^ 64 * (height.toNat - 1) := by
      rw [Nat.sub_mul]
      omega
    rw [UInt64.toNat_mul, hstride, UInt32.toNat_toUInt64, hwrap, Nat.add_mul_mod_self_left,
      Nat.mod_eq_of_lt (by omega)]
    omega

variable {format : VideoFormat} {bytes : List UInt8}

theorem convertPixel_eq (format : VideoFormat) (s0 s1 s2 s3 : UInt8) :
    convertPixel format s0 s1 s2 s3 =
      [if format = .bgra ∨ format = .bgrx then s2 else s0, s1,
        if format = .bgra ∨ format = .bgrx then s0 else s2,
        if format = .rgba ∨ format = .bgra then s3 else 255] := by
  cases format <;> rfl

theorem length_convertPixel (format : VideoFormat) (s0 s1 s2 s3 : UInt8) :
    (convertPixel format s0 s1 s2 s3).length = 4 := by
  rw [convertPixel_eq]
  rfl

theorem length_convertRow (format : VideoFormat) (src dst : List UInt8) :
    (convertRow format src dst).length = dst.length := by
  fun_induction convertRow format src dst with
  | case1 s0 s1 s2 s3 src d0 d1 d2 d3 dst ih =>
    rw [List.length_append, length_convertPixel, ih]
    simp only [List.length_cons]
    omega
  | case2 => rfl

theorem exists_pixel {xs : List UInt8} (h : 4 ≤ xs.length) :
    ∃ s0 s1 s2 s3 rest, xs = s0 :: s1 :: s2 :: s3 :: rest := by
  match xs, h with
  | s0 :: s1 :: s2 :: s3 :: rest, _ => exact ⟨s0, s1, s2, s3, rest, rfl⟩

theorem convertRow_pixel (format : VideoFormat) {w x : ℕ} {src dst : List UInt8}
    (hsrc : src.length = w * 4) (hdst : dst.length = w * 4) (hx : x < w) :
    ∃ s0 s1 s2 s3, slice src (x * 4) 4 = [s0, s1, s2, s3] ∧
      slice (convertRow format src dst) (x * 4) 4 = convertPixel format s0 s1 s2 s3 := by
  induction w generalizing x src dst with
  | zero => omega
  | succ w ih =>
    obtain ⟨s0, s1, s2, s3, src, rfl⟩ := exists_pixel (by omega : 4 ≤ src.length)
    obtain ⟨d0, d1, d2, d3, dst, rfl⟩ := exists_pixel (by omega : 4 ≤ dst.length)
    rw [convertRow]
    have hfour := length_convertPixel format s0 s1 s2 s3
    rcases x with _ | x
    · refine ⟨s0, s1, s2, s3, rfl, ?_⟩
      rw [Nat.zero_mul, slice, List.drop_zero, List.take_left' hfour]
    · simp only [List.length_cons] at hsrc hdst
      have hsrc' : src.length = w * 4 := by omega
      have hdst' : dst.length = w * 4 := by omega
      obtain ⟨t0, t1, t2, t3, hs, hd⟩ := ih hsrc' hdst' (Nat.lt_of_succ_lt_succ hx)
      refine ⟨t0, t1, t2, t3, ?_, ?_⟩
      · rw [← hs, Nat.succ_mul]
        rfl
      · rw [← hd, slice_append_right (by omega), hfour, Nat.succ_mul, Nat.add_sub_cancel]

section Rows
variable {stride width : UInt64} {height : ℕ}

theorem row_offsets {row : ℕ} (hwidth : width.toNat * 4 ≤ stride.toNat)
    (hfit : stride.toNat * height < 2 ^ 63) (hheight : height < 2 ^ 32) (hrow : row < height) :
    (UInt64.ofNat row * stride).toNat = row * stride.toNat ∧
      (UInt64.ofNat row * stride + width * 4).toNat = row * stride.toNat + width.toNat * 4 ∧
      (UInt64.ofNat row * width * 4).toNat = row * (width.toNat * 4) ∧
      ((UInt64.ofNat row + 1) * width * 4).toNat =
        row * (width.toNat * 4) + width.toNat * 4 := by
  have hlast : row * stride.toNat + stride.toNat ≤ height * stride.toNat := by
    rw [← Nat.succ_mul]
    exact Nat.mul_le_mul_right _ hrow
  have hword := stride.toNat_lt
  have hshort : row * (width.toNat * 4) ≤ row * stride.toNat := Nat.mul_le_mul_left _ hwidth
  have hy : (UInt64.ofNat row).toNat = row := by
    rw [UInt64.toNat_ofNat', Nat.mod_eq_of_lt (by omega)]
  have hy1 : (UInt64.ofNat row + 1).toNat = row + 1 := by
    rw [add_toNat (by rw [hy, UInt64.toNat_one]; omega), hy, UInt64.toNat_one]
  have hwidth4 : (width * 4).toNat = width.toNat * 4 := mul_four_toNat (by omega)
  rw [Nat.mul_comm] at hfit
  have hstart : (UInt64.ofNat row * stride).toNat = row * stride.toNat := by
    rw [mul_toNat (by rw [hy]; omega), hy]
  have hnext : (row + 1) * width.toNat * 4 = row * (width.toNat * 4) + width.toNat * 4 := by ring
  have hrows : row * width.toNat * 4 = row * (width.toNat * 4) := Nat.mul_assoc _ _ _
  have htotal (y : UInt64) (hsmall : y.toNat * width.toNat * 4 < 2 ^ 64) :
      (y * width * 4).toNat = y.toNat * width.toNat * 4 := by
    have hinner : (y * width).toNat = y.toNat * width.toNat := mul_toNat (by omega)
    rw [mul_four_toNat (by rw [hinner]; exact hsmall), hinner]
  refine ⟨hstart, ?_, ?_, ?_⟩
  · rw [add_toNat (by rw [hstart, hwidth4]; omega), hstart, hwidth4]
  · rw [htotal _ (by rw [hy]; omega), hy, hrows]
  · rw [htotal _ (by rw [hy1]; omega), hy1, hnext]

def rowOut (format : VideoFormat) (bytes : List UInt8) (stride width y : ℕ) : List UInt8 :=
  convertRow format (slice bytes (y * stride) (width * 4)) (List.replicate (width * 4) 0)

theorem convertRows_ok (format : VideoFormat) (hwidth : width.toNat * 4 ≤ stride.toNat)
    (hlen : stride.toNat * height ≤ bytes.length) (hbytes : bytes.length < 2 ^ 63)
    (hheight : height < 2 ^ 32) {row rows : ℕ} (hrows : row + rows = height) {done : List UInt8}
    (hdone : done.length = row * (width.toNat * 4)) :
    convertRows format bytes stride width
        (done ++ List.replicate (rows * (width.toNat * 4)) 0) (List.range' row rows) =
      .ok (done ++ (List.range' row rows).flatMap
        (rowOut format bytes stride.toNat width.toNat)) := by
  induction rows generalizing row done with
  | zero => simp [convertRows]
  | succ rows ih =>
    obtain ⟨hsrc, hsrcEnd, hdst, hdstEnd⟩ := row_offsets hwidth (by omega) hheight
      (by omega : row < height)
    have hlast : row * stride.toNat + stride.toNat ≤ bytes.length := by
      rw [← Nat.succ_mul, Nat.mul_comm]
      exact (Nat.mul_le_mul_left _ (by omega)).trans hlen
    have hsplit : List.replicate ((rows + 1) * (width.toNat * 4)) (0 : UInt8) =
        List.replicate (width.toNat * 4) 0 ++ List.replicate (rows * (width.toNat * 4)) 0 := by
      rw [List.replicate_append_replicate, Nat.succ_mul, Nat.add_comm]
    have hout := length_convertRow format (slice bytes (row * stride.toNat) (width.toNat * 4))
      (List.replicate (width.toNat * 4) 0)
    have hmiddle := slice_middle done (List.replicate (width.toNat * 4) (0 : UInt8))
      (List.replicate (rows * (width.toNat * 4)) 0)
    have hwrite := overwrite_middle done (List.replicate (width.toNat * 4) (0 : UInt8))
      (List.replicate (rows * (width.toNat * 4)) 0) hout
    rw [List.length_replicate, hdone] at hmiddle
    rw [hdone] at hwrite
    have hfits : row * (width.toNat * 4) + width.toNat * 4 ≤
        (done ++ (List.replicate (width.toNat * 4) (0 : UInt8) ++
          List.replicate (rows * (width.toNat * 4)) 0)).length := by
      simp only [List.length_append, List.length_replicate, hdone]
      omega
    have hdone' : (done ++ rowOut format bytes stride.toNat width.toNat row).length =
        (row + 1) * (width.toNat * 4) := by
      rw [List.length_append, rowOut, hout, hdone, List.length_replicate, Nat.succ_mul]
    rw [hsplit, List.range'_succ, convertRows, hsrc, hsrcEnd, index_ok (by omega), ok_bind, hdst,
      hdstEnd, index_ok hfits, ok_bind, hmiddle, hwrite, List.flatMap_cons, ← List.append_assoc]
    exact ih (by omega) hdone'

end Rows

variable {info : VideoInfo} {stride : Int32}

theorem width_four (width : UInt32) : (width.toUInt64 * 4).toNat = width.toNat * 4 := by
  have hlt := width.toNat_lt
  have hword := width.toNat_toUInt64
  rw [mul_four_toNat (by omega), hword]

theorem HoldsFrame.words (h : HoldsFrame info stride bytes) (hlen : bytes.length < 2 ^ 63) :
    (usize stride).toNat = stride.toInt.toNat ∧
      info.width.toNat * 4 ≤ (usize stride).toNat ∧
      (usize stride).toNat * info.height.toNat ≤ bytes.length ∧
      (usize stride * info.height.toUInt64).toNat =
        (usize stride).toNat * info.height.toNat := by
  have hwidth := h.width
  have hrow := h.row
  obtain ⟨hpos, -, hword⟩ | ⟨hneg, -, -⟩ := usize_cases stride
  · have hfit : ((usize stride).toNat * info.height.toNat : ℤ) ≤ bytes.length := by
      rw [hword]
      exact h.length
    have hfit' : (usize stride).toNat * info.height.toNat ≤ bytes.length := by exact_mod_cast hfit
    refine ⟨by omega, by omega, hfit', ?_⟩
    rw [mul_toNat (by rw [UInt32.toNat_toUInt64]; omega), UInt32.toNat_toUInt64]
  · omega

/-- The two guards let through exactly the buffers with room for the frame. -/
theorem holdsFrame_iff (hlen : bytes.length < 2 ^ 63) : HoldsFrame info stride bytes ↔
    ¬(info.width.toUInt64 = 0 ∨ info.height.toUInt64 = 0 ∨
        usize stride < info.width.toUInt64 * 4) ∧
      ¬bytes.length < (usize stride * info.height.toUInt64).toNat := by
  rw [← UInt64.toNat_inj, ← UInt64.toNat_inj, UInt64.lt_iff_toNat_lt, width_four,
    UInt32.toNat_toUInt64, UInt32.toNat_toUInt64, UInt64.toNat_zero]
  constructor
  · intro h
    obtain ⟨-, hrow, hfit, hprod⟩ := h.words hlen
    have hwidth := h.width
    have hheight := h.height
    rw [hprod]
    omega
  · rintro ⟨hguard, hfit⟩
    obtain ⟨hpos, hlt, hword⟩ | ⟨hneg, -, -⟩ := usize_cases stride
    · have hheight := info.height.toNat_lt
      have hprod : (usize stride * info.height.toUInt64).toNat =
          (usize stride).toNat * info.height.toNat := by
        have hsmall : (usize stride).toNat * info.height.toNat ≤ 2 ^ 31 * 2 ^ 32 :=
          Nat.mul_le_mul (by omega) (by omega)
        rw [mul_toNat (by rw [UInt32.toNat_toUInt64]; omega), UInt32.toNat_toUInt64]
      rw [hprod] at hfit
      refine ⟨by omega, by omega, by omega, ?_⟩
      rw [← hword]
      exact_mod_cast not_lt.mp hfit
    · have hheight : 0 < info.height.toNat := by omega
      have hlong := negative_stride hneg hheight
      omega

theorem size_toNat {width height : UInt32} (h : 4 * width.toNat * height.toNat < 2 ^ 64) :
    (width.toUInt64 * height.toUInt64 * 4).toNat = 4 * width.toNat * height.toNat := by
  have harea : 4 * width.toNat * height.toNat = width.toNat * height.toNat * 4 := by ring
  have hinner : (width.toUInt64 * height.toUInt64).toNat = width.toNat * height.toNat := by
    rw [mul_toNat (by rw [UInt32.toNat_toUInt64, UInt32.toNat_toUInt64]; omega),
      UInt32.toNat_toUInt64, UInt32.toNat_toUInt64]
  rw [mul_four_toNat (by rw [hinner]; omega), hinner, harea]

theorem newWrapping_ok {width height : UInt32} {data : List UInt8}
    (h : data.length = 4 * width.toNat * height.toNat)
    (hlt : 4 * width.toNat * height.toNat < 2 ^ 64) :
    newWrapping width height data = .ok ⟨width, height, data⟩ := by
  rw [newWrapping, size_toNat hlt, if_neg (not_not.mpr h)]

def unpack (info : VideoInfo) (stride : Int32) (bytes : List UInt8) : RgbaFrame where
  width := info.width
  height := info.height
  data := (List.range info.height.toNat).flatMap
    (rowOut info.format bytes stride.toInt.toNat info.width.toNat)

theorem length_rowOut (format : VideoFormat) (bytes : List UInt8) (stride width y : ℕ) :
    (rowOut format bytes stride width y).length = width * 4 := by
  rw [rowOut, length_convertRow, List.length_replicate]

theorem unpack_valid (info : VideoInfo) (stride : Int32) (bytes : List UInt8) :
    (unpack info stride bytes).Valid := by
  rw [RgbaFrame.Valid, unpack]
  dsimp only
  rw [length_flatMap_rows fun _ _ => length_rowOut _ _ _ _ _]
  ring

theorem unpack_unpacked (h : HoldsFrame info stride bytes) (hlen : bytes.length < 2 ^ 63) :
    Unpacked info stride bytes (unpack info stride bytes) := by
  refine ⟨rfl, rfl, unpack_valid _ _ _, ?_⟩
  intro x y hx hy
  obtain ⟨hword, hrow, hfit, -⟩ := h.words hlen
  rw [hword] at hrow hfit
  have hcell : x * 4 + 4 ≤ info.width.toNat * 4 := by omega
  have hlast : y * stride.toInt.toNat + stride.toInt.toNat ≤ bytes.length := by
    rw [← Nat.succ_mul, Nat.mul_comm]
    exact (Nat.mul_le_mul_left _ hy).trans hfit
  have hsrc : (slice bytes (y * stride.toInt.toNat) (info.width.toNat * 4)).length =
      info.width.toNat * 4 := length_slice (by omega)
  obtain ⟨s0, s1, s2, s3, hs, hd⟩ := convertRow_pixel info.format hsrc List.length_replicate hx
  rw [slice_slice _ _ hcell, Nat.mul_comm x] at hs
  refine ⟨s0, s1, s2, s3, hs, ?_⟩
  have hpixel : (unpack info stride bytes).pixel x y = slice
      (rowOut info.format bytes stride.toInt.toNat info.width.toNat y) (x * 4) 4 := by
    have hline := slice_flatMap (f := rowOut info.format bytes stride.toInt.toNat info.width.toNat)
      (fun r _ => length_rowOut _ _ _ _ r) hy
    rw [← hline, slice_slice _ _ hcell, RgbaFrame.pixel, unpack]
    dsimp only
    congr 1
    ring
  rw [hpixel, rowOut, hd, convertPixel_eq]

theorem publishFrame_stores {data : StreamData} {plane : Plane} (rest : List Plane)
    (hdata : plane.data = some bytes) (h : HoldsFrame data.format plane.stride bytes) :
    publishFrame data (plane :: rest) = .ok { data with
      frame := data.frame.store (unpack data.format plane.stride bytes) } := by
  have hlen := plane.data_lt bytes hdata
  obtain ⟨hguard, hlong⟩ := (holdsFrame_iff hlen).mp h
  obtain ⟨hword, hrow, hfit, hprod⟩ := h.words hlen
  have hheight := data.format.height.toNat_lt
  have hsize : 4 * data.format.width.toNat * data.format.height.toNat ≤ bytes.length := by
    rw [Nat.mul_comm 4]
    exact (Nat.mul_le_mul_right _ hrow).trans hfit
  have hzeroed : zeroed (data.format.width.toUInt64 * data.format.height.toUInt64 * 4) =
      .ok (List.replicate (4 * data.format.width.toNat * data.format.height.toNat) 0) := by
    rw [zeroed, size_toNat (by omega), if_pos (by omega)]
  have hword' : data.format.width.toUInt64.toNat * 4 ≤ (usize plane.stride).toNat := by
    rwa [UInt32.toNat_toUInt64]
  have hnone : ([] : List UInt8).length = 0 * (data.format.width.toUInt64.toNat * 4) := by
    rw [Nat.zero_mul, List.length_nil]
  have hrows := convertRows_ok data.format.format hword' hfit hlen hheight (Nat.zero_add _) hnone
  have hcount : data.format.height.toNat * (data.format.width.toNat * 4) =
      4 * data.format.width.toNat * data.format.height.toNat := by ring
  rw [UInt32.toNat_toUInt64, hcount, List.nil_append, List.nil_append,
    ← List.range_eq_range', hword] at hrows
  have hnew : newWrapping data.format.width data.format.height
      ((List.range data.format.height.toNat).flatMap
        (rowOut data.format.format bytes plane.stride.toInt.toNat data.format.width.toNat)) =
      .ok (unpack data.format plane.stride bytes) :=
    newWrapping_ok (unpack_valid data.format plane.stride bytes) (by omega)
  rw [publishFrame, if_neg hguard, hdata]
  dsimp only
  rw [if_neg hlong, hzeroed, ok_bind, UInt32.toNat_toUInt64, hrows, ok_bind,
    UInt32.toUInt32_toUInt64, UInt32.toUInt32_toUInt64, hnew]

theorem publishFrame_keeps {data : StreamData} {plane : Plane} (rest : List Plane)
    (h : ∀ bytes, plane.data = some bytes → ¬HoldsFrame data.format plane.stride bytes) :
    publishFrame data (plane :: rest) = .ok data := by
  rw [publishFrame]
  split_ifs with hguard
  · rfl
  · cases hdata : plane.data with
    | none => rfl
    | some bytes =>
      have hnot := h bytes hdata
      rw [holdsFrame_iff (plane.data_lt bytes hdata), not_and_not_right] at hnot
      dsimp only
      rw [if_pos (hnot hguard)]

theorem publishFrame_cases (data : StreamData) (buffer : List Plane) :
    (∃ plane rest bytes, buffer = plane :: rest ∧ plane.data = some bytes ∧
        HoldsFrame data.format plane.stride bytes ∧ publishFrame data buffer = .ok { data with
          frame := data.frame.store (unpack data.format plane.stride bytes) }) ∨
      (publishFrame data buffer = .ok data ∧ ∀ plane rest bytes, buffer = plane :: rest →
        plane.data = some bytes → ¬HoldsFrame data.format plane.stride bytes) := by
  cases buffer with
  | nil => exact Or.inr ⟨rfl, fun _ _ _ h => by cases h⟩
  | cons plane rest =>
    by_cases hroom : ∃ bytes, plane.data = some bytes ∧
        HoldsFrame data.format plane.stride bytes
    · obtain ⟨bytes, hdata, hholds⟩ := hroom
      exact Or.inl ⟨plane, rest, bytes, rfl, hdata, hholds, publishFrame_stores rest hdata hholds⟩
    · push Not at hroom
      refine Or.inr ⟨publishFrame_keeps rest hroom, ?_⟩
      intro plane' rest' bytes hbuffer hdata
      cases hbuffer
      exact hroom bytes hdata

theorem streamStep_ok {data : StreamData} (h : data.frame.poisoned = false) (event : StreamEvent) :
    ∃ next, streamStep data event = .ok next ∧ next.frame.poisoned = false := by
  cases event with
  | paramChanged format => exact ⟨_, rfl, h⟩
  | process buffer =>
    cases buffer with
    | none => exact ⟨data, rfl, h⟩
    | some buffer =>
      rcases publishFrame_cases data buffer with ⟨plane, _, bytes, -, -, -, hstep⟩ | ⟨hstep, -⟩
      · refine ⟨_, hstep, ?_⟩
        simp [FrameSlot.store, h]
      · exact ⟨data, hstep, h⟩

theorem streamRun_ok (events : List StreamEvent) {data : StreamData}
    (h : data.frame.poisoned = false) :
    ∃ next, streamRun data events = .ok next ∧ next.frame.poisoned = false := by
  induction events generalizing data with
  | nil => exact ⟨data, rfl, h⟩
  | cons event events ih =>
    obtain ⟨next, hstep, hnext⟩ := streamStep_ok h event
    obtain ⟨last, hrun, hlast⟩ := ih hnext
    exact ⟨last, by rw [streamRun, hstep, ok_bind, hrun], hlast⟩

/-- No buffer of any run is read out of range, and what is stored is the picture in the buffer. -/
theorem frames_unpacked_exactly (format : VideoInfo) (events : List StreamEvent) :
    ∃ data, streamRun (.start format) events = .ok data ∧
      ∀ buffer, ∃ next, publishFrame data buffer = .ok next ∧
        (next.frame = data.frame ∨ ∃ plane rest bytes frame, buffer = plane :: rest ∧
          plane.data = some bytes ∧ next.frame.value = some frame ∧
          Unpacked data.format plane.stride bytes frame) ∧
        ∀ plane rest bytes, buffer = plane :: rest → plane.data = some bytes →
          HoldsFrame data.format plane.stride bytes →
          ∃ frame, next.frame.value = some frame ∧
            Unpacked data.format plane.stride bytes frame := by
  have hstart : (StreamData.start format).frame.poisoned = false := rfl
  obtain ⟨data, hrun, hpoisoned⟩ := streamRun_ok events hstart
  refine ⟨data, hrun, ?_⟩
  intro buffer
  rcases publishFrame_cases data buffer with
    ⟨plane, rest, bytes, rfl, hdata, hholds, hstep⟩ | ⟨hstep, hnone⟩
  · have hunpacked := unpack_unpacked hholds (plane.data_lt bytes hdata)
    have hvalue : (data.frame.store (unpack data.format plane.stride bytes)).value =
        some (unpack data.format plane.stride bytes) := by
      simp [FrameSlot.store, hpoisoned]
    refine ⟨_, hstep, Or.inr ⟨plane, rest, bytes, _, rfl, hdata, hvalue, hunpacked⟩, ?_⟩
    intro plane' rest' bytes' hbuffer hdata' _
    cases hbuffer
    rw [hdata] at hdata'
    cases hdata'
    exact ⟨_, hvalue, hunpacked⟩
  · refine ⟨data, hstep, Or.inl rfl, ?_⟩
    intro plane rest bytes hbuffer hdata hholds
    exact absurd hholds (hnone plane rest bytes hbuffer hdata)

end Controlis.Portal
