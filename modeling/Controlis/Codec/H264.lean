import Controlis.Codec.Hostile
import Controlis.Codec.Stream

/-!
# H.264

OpenH264 is code of another library and enters as a parameter; what it asserts
about its arguments is checked here. Frames are cropped to even sides before
they are encoded. The decoder writes every picture over the same canvas, which
is replaced when the sides change.
-/

namespace Controlis.Codec
open Checked Strided Protocol

inductive VideoError
  | codec (e : CodecError)
  | h264 (message : String)
deriving DecidableEq, Repr

structure YuvPicture where
  width : ℕ
  height : ℕ
  rgba : List UInt8
deriving DecidableEq, Repr

/-- The library: an encoder is told the rate limit once, and a picture with its sides each time. -/
structure OpenH264 where
  Encoder : Type
  Decoder : Type
  newEncoder : UInt32 → Except String Encoder
  forceIntraFrame : Encoder → Encoder
  encode : Encoder → List UInt8 → ℕ → ℕ → Encoder × Except String (List UInt8)
  newDecoder : Except String Decoder
  decode : Decoder → List UInt8 → Decoder × Except String (Option YuvPicture)

def evenDown (n : UInt32) : UInt32 := n &&& ~~~1

def cropRows (frame : RgbaFrame) (srcStride rowBytes : ℕ) :
    List UInt8 → List ℕ → Outcome VideoError (List UInt8)
  | out, [] => .ok out
  | out, row :: rows => do
    let start ← mul usizeBits row srcStride
    let stop ← add usizeBits start rowBytes
    let bytes ← index frame.data start stop
    cropRows frame srcStride rowBytes (out ++ bytes) rows

def crop (frame : RgbaFrame) (width height : UInt32) : Outcome VideoError (List UInt8) := do
  let srcStride ← mul usizeBits frame.width.toNat 4
  let rowBytes ← mul usizeBits width.toNat 4
  let _capacity ← mul usizeBits rowBytes height.toNat
  cropRows frame srcStride rowBytes [] (List.range height.toNat)

/-- `RgbaSliceU8::new` asserts the length of the data, and even sides. -/
def rgbaSlice (data : List UInt8) (width height : UInt32) : Outcome VideoError Unit := do
  let area ← mul usizeBits width.toNat height.toNat
  let len ← mul usizeBits area 4
  if data.length = len ∧ width.toNat % 2 = 0 ∧ height.toNat % 2 = 0 then .ok ()
  else .error (.fault .expectation)

def evenPicture (frame : RgbaFrame) : Outcome VideoError (List UInt8) := do
  let width := evenDown frame.width
  let height := evenDown frame.height
  let data ← if width = frame.width ∧ height = frame.height then .ok frame.data
    else crop frame width height
  rgbaSlice data width height
  .ok data

def h264Message (monitorId : UInt32) (frameId : UInt64) (frame : RgbaFrame)
    (payload : List UInt8) : ScreenFrame :=
  ⟨monitorId, frameId, .h264, .full, evenDown frame.width, evenDown frame.height, [], payload⟩

/-- `H264Encoder::encode`; an empty bitstream is a frame the rate control skipped. -/
def OpenH264.encodeFrame (lib : OpenH264) (enc : lib.Encoder) (monitorId : UInt32)
    (frameId : UInt64) (frame : RgbaFrame) :
    lib.Encoder × Outcome VideoError (Option ScreenFrame) :=
  match evenPicture frame with
  | .error stop => (enc, .error stop)
  | .ok data =>
    match lib.encode enc data (evenDown frame.width).toNat (evenDown frame.height).toNat with
    | (enc, .error e) => (enc, fail (.h264 e))
    | (enc, .ok payload) =>
      (enc, .ok (if payload.isEmpty then none
        else some (h264Message monitorId frameId frame payload)))

def opaqueBlack (n : ℕ) : List UInt8 := (List.replicate n [0, 0, 0, 255]).flatten

def RgbaFrame.black (width height : UInt32) : Outcome VideoError RgbaFrame := do
  let area ← mul usizeBits width.toNat height.toNat
  let _len ← mul usizeBits area 4
  .ok ⟨width, height, opaqueBlack area⟩

structure H264Decoder (lib : OpenH264) where
  decoder : lib.Decoder
  canvas : Option RgbaFrame

def YuvPicture.writeRgba8 (yuv : YuvPicture) (target : List UInt8) :
    Outcome VideoError (List UInt8) := do
  let area ← mul usizeBits yuv.width yuv.height
  let wanted ← mul usizeBits area 4
  if target.length = wanted then .ok yuv.rgba else .error (.fault .expectation)

def getOrBlack : Option RgbaFrame → Outcome VideoError RgbaFrame
  | some canvas => .ok canvas
  | none => RgbaFrame.black 0 0

def canvasFor (canvas : Option RgbaFrame) (yuv : YuvPicture) : Outcome VideoError RgbaFrame := do
  let old ← getOrBlack canvas
  if old.width.toNat ≠ yuv.width ∨ old.height.toNat ≠ yuv.height then
    RgbaFrame.black (.ofNat yuv.width) (.ofNat yuv.height)
  else .ok old

def paint (canvas : Option RgbaFrame) (yuv : YuvPicture) : Outcome VideoError RgbaFrame := do
  let canvas ← canvasFor canvas yuv
  let data ← yuv.writeRgba8 canvas.data
  .ok { canvas with data := data }

def H264Decoder.decode {lib : OpenH264} (dec : H264Decoder lib) (payload : List UInt8) :
    H264Decoder lib × Outcome VideoError (Option RgbaFrame) :=
  match lib.decode dec.decoder payload with
  | (decoder, .error e) => (⟨decoder, dec.canvas⟩, fail (.h264 e))
  | (decoder, .ok none) => (⟨decoder, dec.canvas⟩, .ok none)
  | (decoder, .ok (some yuv)) =>
    match paint dec.canvas yuv with
    | .error stop => (⟨decoder, dec.canvas⟩, .error stop)
    | .ok canvas => (⟨decoder, some canvas⟩, .ok (some canvas))

variable {frame : RgbaFrame} {width height : UInt32}

theorem evenDown_toNat (n : UInt32) : (evenDown n).toNat = n.toNat - n.toNat % 2 := by
  have hmask : (~~~1 : UInt32).toNat = 2 * (2 ^ 31 - 1) := by decide
  have hn := n.toNat_lt
  have hhalf : (evenDown n).toNat / 2 = n.toNat / 2 := by
    rw [evenDown, UInt32.toNat_and, hmask, Nat.and_div_two, Nat.mul_div_cancel_left _ (by omega),
      Nat.and_two_pow_sub_one_eq_mod]
    exact Nat.mod_eq_of_lt (by omega)
  -- the mask keeps every bit but the last
  have heven : (evenDown n).toNat % 2 = 0 := by
    rw [evenDown, UInt32.toNat_and, hmask]
    have hmod := Nat.and_mod_two_pow (a := n.toNat) (b := 2 * (2 ^ 31 - 1)) (n := 1)
    simpa using hmod
  omega

theorem evenDown_even (n : UInt32) : (evenDown n).toNat % 2 = 0 := by
  rw [evenDown_toNat]
  omega

theorem evenDown_le (n : UInt32) : (evenDown n).toNat ≤ n.toNat := by
  rw [evenDown_toNat]
  omega

def corner (width height : UInt32) : Window := ⟨0, 0, height.toNat, 4 * width.toNat⟩

theorem corner_within (hw : width.toNat ≤ frame.width.toNat)
    (hh : height.toNat ≤ frame.height.toNat) :
    (corner width height).Within frame.stride frame.height.toNat := by
  constructor
  · simp only [corner, RgbaFrame.stride]
    omega
  · simpa [corner] using hh

theorem cropRows_eq (hv : frame.Valid) (hlt : frame.data.length < 2 ^ 63)
    (hwithin : (corner width height).Within frame.stride frame.height.toNat) (out : List UInt8)
    {rows : List ℕ} (hrows : ∀ row ∈ rows, row < height.toNat) :
    cropRows frame frame.stride (4 * width.toNat) out rows =
      .ok (out ++ rows.flatMap ((corner width height).row frame.stride frame.data)) := by
  induction rows generalizing out with
  | nil => rw [cropRows, List.flatMap_nil, List.append_nil]
  | cons row rows ih =>
    have hrow : row < (corner width height).rows := hrows row (List.mem_cons_self ..)
    have hend := hwithin.row_le hv.length hrow
    have hstart : (corner width height).start frame.stride row = row * frame.stride := by
      simp [Window.start, corner]
    have hcols : (corner width height).cols = 4 * width.toNat := rfl
    rw [hstart, hcols] at hend
    rw [cropRows, mul_ok (by rw [usizeBits]; omega), ok_bind, add_ok (by rw [usizeBits]; omega),
      ok_bind, index_ok hend, ok_bind, ih _ fun r hr => hrows r (List.mem_cons_of_mem _ hr),
      List.flatMap_cons, ← List.append_assoc, Window.row, hstart, hcols]

theorem crop_eq (hv : frame.Valid) (hlt : frame.data.length < 2 ^ 63)
    (hw : width.toNat ≤ frame.width.toNat) (hh : height.toNat ≤ frame.height.toNat) :
    crop frame width height = .ok ((corner width height).extract frame.stride frame.data) := by
  have hwidth := width.toNat_lt
  have hframe := frame.width.toNat_lt
  have hstride : (mul usizeBits frame.width.toNat 4 : Outcome VideoError ℕ) = .ok frame.stride := by
    rw [mul_ok (by rw [usizeBits]; omega), RgbaFrame.stride, Nat.mul_comm]
  have hbytes : (mul usizeBits width.toNat 4 : Outcome VideoError ℕ) = .ok (4 * width.toNat) := by
    rw [mul_ok (by rw [usizeBits]; omega), Nat.mul_comm]
  have hcapacity : 4 * width.toNat * height.toNat ≤ frame.data.length := by
    rw [hv]
    exact Nat.mul_le_mul (by omega) hh
  rw [crop, hstride, ok_bind, hbytes, ok_bind, mul_ok (by rw [usizeBits]; omega), ok_bind,
    cropRows_eq hv hlt (corner_within hw hh) [] fun row hrow => List.mem_range.mp hrow,
    List.nil_append]
  rfl

theorem length_corner (hv : frame.Valid) (hw : width.toNat ≤ frame.width.toNat)
    (hh : height.toNat ≤ frame.height.toNat) :
    ((corner width height).extract frame.stride frame.data).length =
      4 * width.toNat * height.toNat := by
  rw [Window.length_extract (corner_within hw hh) hv.length]
  exact Nat.mul_comm ..

theorem corner_whole (hv : frame.Valid) :
    (corner frame.width frame.height).extract frame.stride frame.data = frame.data := by
  have hrow : (corner frame.width frame.height).row frame.stride frame.data =
      fun r => slice frame.data (r * frame.stride) frame.stride := by
    funext r
    rw [Window.row, Window.start]
    simp only [corner, Nat.zero_add, Nat.add_zero]
    rfl
  rw [Window.extract, hrow, flatMap_rows]
  apply List.take_of_length_le
  rw [hv.length, Nat.mul_comm]
  exact le_rfl

theorem corner_pixel (hv : frame.Valid) (hw : width.toNat ≤ frame.width.toNat)
    (hh : height.toNat ≤ frame.height.toNat) {x y : ℕ} (hx : x < width.toNat)
    (hy : y < height.toNat) :
    RgbaFrame.pixel ⟨width, height, (corner width height).extract frame.stride frame.data⟩ x y =
      frame.pixel x y := by
  have hrows (r : ℕ) (hr : r < (corner width height).rows) :
      ((corner width height).row frame.stride frame.data r).length = 4 * width.toNat :=
    (corner_within hw hh).length_row hv.length hr
  have hline := slice_flatMap hrows hy
  have hin : 4 * x + 4 ≤ 4 * width.toNat := by omega
  have hleft : (y * width.toNat + x) * 4 = y * (4 * width.toNat) + 4 * x := by ring
  have hright : (y * frame.width.toNat + x) * 4 = y * frame.stride + 4 * x := by
    rw [RgbaFrame.stride]
    ring
  rw [RgbaFrame.pixel, RgbaFrame.pixel, hleft, hright, ← slice_slice _ _ hin]
  rw [Window.extract, hline, Window.row, Window.start]
  simp only [corner, Nat.zero_add, Nat.add_zero]
  rw [slice_slice _ _ hin]

theorem rgbaSlice_ok {data : List UInt8} (hlen : data.length = 4 * width.toNat * height.toNat)
    (hlt : data.length < 2 ^ 63) (hw : width.toNat % 2 = 0) (hh : height.toNat % 2 = 0) :
    rgbaSlice data width height = .ok () := by
  have harea : width.toNat * height.toNat * 4 = data.length := by
    rw [hlen]
    ring
  rw [rgbaSlice, mul_ok (by rw [usizeBits]; omega), ok_bind, mul_ok (by rw [usizeBits]; omega),
    ok_bind, if_pos ⟨harea.symm, hw, hh⟩]

theorem evenPicture_eq (shot : Screenshot) :
    evenPicture shot.toRgbaFrame = .ok
      ((corner (evenDown shot.width) (evenDown shot.height)).extract shot.stride shot.data) := by
  have hw := evenDown_le shot.width
  have hh := evenDown_le shot.height
  have hlen := length_corner shot.valid hw hh
  have hlt : 4 * (evenDown shot.width).toNat * (evenDown shot.height).toNat ≤
      shot.data.length := by
    rw [shot.valid]
    exact Nat.mul_le_mul (by omega) hh
  have hslice := rgbaSlice_ok hlen (by have := shot.allocated; omega) (evenDown_even shot.width)
    (evenDown_even shot.height)
  rw [evenPicture]
  dsimp only
  -- even sides: the frame goes on uncopied, which is the corner all the same
  split_ifs with hsame
  · rw [ok_bind]
    rw [hsame.1, hsame.2, corner_whole shot.valid] at hslice ⊢
    rw [hslice, ok_bind]
  · rw [crop_eq shot.valid shot.allocated hw hh, ok_bind, hslice, ok_bind]

/-- Whatever the sides of a captured frame and whatever was encoded before, the encoder does not
fault: the library gets the frame's pixels but for an odd last column or row, and the message says
so much. -/
theorem h264_encode_exact (lib : OpenH264) (enc : lib.Encoder) (monitorId : UInt32)
    (frameId : UInt64) (shot : Screenshot) :
    let width := evenDown shot.width
    let height := evenDown shot.height
    (width.toNat = shot.width.toNat - shot.width.toNat % 2 ∧
      height.toNat = shot.height.toNat - shot.height.toNat % 2) ∧
    ∃ picture : List UInt8, picture.length = 4 * width.toNat * height.toNat ∧
      (∀ x y, x < width.toNat → y < height.toNat →
        RgbaFrame.pixel ⟨width, height, picture⟩ x y = shot.pixel x y) ∧
      (lib.encodeFrame enc monitorId frameId shot.toRgbaFrame).1 =
        (lib.encode enc picture width.toNat height.toNat).1 ∧
      (lib.encodeFrame enc monitorId frameId shot.toRgbaFrame).2 =
        match (lib.encode enc picture width.toNat height.toNat).2 with
        | .error e => fail (.h264 e)
        | .ok [] => .ok none
        | .ok (byte :: payload) =>
          .ok (some ⟨monitorId, frameId, .h264, .full, width, height, [], byte :: payload⟩) := by
  intro width height
  have hw : width.toNat ≤ shot.width.toNat := evenDown_le shot.width
  have hh : height.toNat ≤ shot.height.toNat := evenDown_le shot.height
  refine ⟨⟨evenDown_toNat _, evenDown_toNat _⟩,
    (corner width height).extract shot.stride shot.data, length_corner shot.valid hw hh,
    fun x y hx hy => corner_pixel shot.valid hw hh hx hy, ?_⟩
  rw [OpenH264.encodeFrame, evenPicture_eq]
  dsimp only
  cases hencode : lib.encode enc ((corner width height).extract shot.stride shot.data)
      width.toNat height.toNat with
  | mk enc' result =>
    rcases result with e | payload
    · exact ⟨rfl, rfl⟩
    · cases payload with
      | nil => exact ⟨rfl, rfl⟩
      | cons byte payload => exact ⟨rfl, rfl⟩

structure YuvPicture.WellFormed (yuv : YuvPicture) : Prop where
  width : yuv.width < 2 ^ 32
  height : yuv.height < 2 ^ 32
  pixels : yuv.rgba.length = 4 * yuv.width * yuv.height
  allocated : yuv.rgba.length < 2 ^ 63

def YuvPicture.asFrame (yuv : YuvPicture) : RgbaFrame :=
  ⟨.ofNat yuv.width, .ofNat yuv.height, yuv.rgba⟩

variable {yuv : YuvPicture} {canvas : Option RgbaFrame}

theorem YuvPicture.WellFormed.sides (h : yuv.WellFormed) :
    yuv.asFrame.width.toNat = yuv.width ∧ yuv.asFrame.height.toNat = yuv.height :=
  ⟨UInt32.toNat_ofNat_of_lt' h.width, UInt32.toNat_ofNat_of_lt' h.height⟩

theorem YuvPicture.WellFormed.sound (h : yuv.WellFormed) : Sound yuv.asFrame := by
  obtain ⟨hw, hh⟩ := h.sides
  have hlen := h.pixels
  have hlt := h.allocated
  constructor
  · rw [RgbaFrame.Valid, hw, hh]
    exact hlen
  · rw [hw, hh]
    omega

theorem length_opaqueBlack (n : ℕ) : (opaqueBlack n).length = 4 * n := by
  simp [opaqueBlack, Nat.mul_comm]

theorem black_ok (hlt : 4 * width.toNat * height.toNat < 2 ^ 64) :
    ∃ data, RgbaFrame.black width height = .ok ⟨width, height, data⟩ ∧
      data.length = 4 * width.toNat * height.toNat := by
  have harea : 4 * width.toNat * height.toNat = width.toNat * height.toNat * 4 := by ring
  refine ⟨opaqueBlack (width.toNat * height.toNat), ?_, ?_⟩
  · rw [RgbaFrame.black, mul_ok (by rw [usizeBits]; omega), ok_bind,
      mul_ok (by rw [usizeBits]; omega), ok_bind]
  · rw [length_opaqueBlack, harea, Nat.mul_comm]

theorem canvasFor_ok (hyuv : yuv.WellFormed) (hcanvas : ∀ c, canvas = some c → Sound c) :
    ∃ data, canvasFor canvas yuv = .ok ⟨.ofNat yuv.width, .ofNat yuv.height, data⟩ ∧
      data.length = yuv.rgba.length := by
  obtain ⟨hw, hh⟩ := hyuv.sides
  obtain ⟨old, hold, hsound⟩ : ∃ old, getOrBlack canvas = .ok old ∧ Sound old := by
    cases canvas with
    | some c => exact ⟨c, rfl, hcanvas c rfl⟩
    | none => exact ⟨⟨0, 0, []⟩, rfl, rfl, by decide⟩
  rw [canvasFor, hold, ok_bind]
  -- a new canvas, or one of an earlier picture with the same sides
  split_ifs with hsides
  · have hlt : 4 * (UInt32.ofNat yuv.width).toNat * (UInt32.ofNat yuv.height).toNat < 2 ^ 64 :=
      hyuv.sound.lt64
    obtain ⟨data, hdata, hlen⟩ := black_ok hlt
    refine ⟨data, hdata, hlen.trans ?_⟩
    exact hyuv.sound.valid.symm
  · rw [not_or, not_not, not_not] at hsides
    have hwidth : UInt32.ofNat yuv.width = old.width := by
      rw [← hsides.1, UInt32.ofNat_toNat]
    have hheight : UInt32.ofNat yuv.height = old.height := by
      rw [← hsides.2, UInt32.ofNat_toNat]
    refine ⟨old.data, by rw [hwidth, hheight], ?_⟩
    rw [hsound.valid, hyuv.pixels, hsides.1, hsides.2]

theorem paint_eq (hyuv : yuv.WellFormed) (hcanvas : ∀ c, canvas = some c → Sound c) :
    paint canvas yuv = .ok yuv.asFrame := by
  obtain ⟨data, hdata, hlen⟩ := canvasFor_ok hyuv hcanvas
  have hpixels := hyuv.pixels
  have hlt := hyuv.allocated
  have harea : yuv.width * yuv.height * 4 = yuv.rgba.length := by
    rw [hpixels]
    ring
  rw [paint, hdata, ok_bind, YuvPicture.writeRgba8, mul_ok (by rw [usizeBits]; omega), ok_bind,
    mul_ok (by rw [usizeBits]; omega), ok_bind, if_pos (by rw [hlen, harea]), ok_bind]
  rfl

def OpenH264.WellBehaved (lib : OpenH264) : Prop :=
  ∀ dec payload yuv, (lib.decode dec payload).2 = .ok (some yuv) → yuv.WellFormed

def outcome (result : Except String (Option YuvPicture)) :
    Outcome VideoError (Option RgbaFrame) :=
  match result with
  | .error e => fail (.h264 e)
  | .ok none => .ok none
  | .ok (some yuv) => .ok (some yuv.asFrame)

/-- One payload: the canvas of earlier pictures leaves no trace in the result. -/
theorem h264_decode_eq {lib : OpenH264} (hlib : lib.WellBehaved) {dec : H264Decoder lib}
    (hcanvas : ∀ c, dec.canvas = some c → Sound c) (payload : List UInt8) :
    (dec.decode payload).2 = outcome (lib.decode dec.decoder payload).2 ∧
      (dec.decode payload).1.decoder = (lib.decode dec.decoder payload).1 ∧
      ∀ c, (dec.decode payload).1.canvas = some c → Sound c := by
  have hyuv := hlib dec.decoder payload
  rw [H264Decoder.decode]
  cases hdecode : lib.decode dec.decoder payload with
  | mk decoder result =>
    rw [hdecode] at hyuv
    rcases result with e | _ | yuv
    · exact ⟨rfl, rfl, hcanvas⟩
    · exact ⟨rfl, rfl, hcanvas⟩
    · have hwell := hyuv yuv rfl
      dsimp only
      rw [paint_eq hwell hcanvas]
      refine ⟨rfl, rfl, fun c hc => ?_⟩
      cases hc
      exact hwell.sound

end Controlis.Codec
