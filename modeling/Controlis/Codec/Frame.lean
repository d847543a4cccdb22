import Controlis.Foundation.Checked
import Controlis.Foundation.Numeral
import Controlis.Protocol.Message

/-!
# Screen frames and their messages

The picture type shared by encoder and decoder, the message that carries a
picture or its changed tiles, and the JPEG codec, which is code of another
library and enters as a parameter.
-/

namespace Controlis.Codec
open Checked Numeral Strided Protocol

inductive ScreenEncoding
  | full
  | tileDelta
deriving DecidableEq, Repr

structure TileRect where
  x : UInt32
  y : UInt32
  w : UInt32
  h : UInt32
deriving DecidableEq, Repr

structure ScreenFrame where
  monitorId : UInt32
  frameId : UInt64
  codec : VideoCodec
  encoding : ScreenEncoding
  widthPx : UInt32
  heightPx : UInt32
  tiles : List TileRect
  payload : List UInt8
deriving DecidableEq, Repr

inductive CodecError
  | dimensionMismatch (width height : UInt32) (len : ℕ)
  | unexpectedResize
  | jpegEncode (message : String)
  | jpegDecode (message : String)
  | unsupportedCodec (codec : VideoCodec)
  | malformedPayload
deriving DecidableEq, Repr

abbrev Result (α : Type) := Outcome CodecError α

structure RgbaFrame where
  width : UInt32
  height : UInt32
  data : List UInt8
deriving DecidableEq, Repr

def usizeBits : ℕ := 64

def u32Bits : ℕ := 32

def byteLen (width height : UInt32) : Result ℕ := do
  let area ← mul usizeBits width.toNat height.toNat
  mul usizeBits area 4

def RgbaFrame.new (width height : UInt32) (data : List UInt8) : Result RgbaFrame := do
  let expected ← byteLen width height
  if data.length ≠ expected then fail (.dimensionMismatch width height data.length)
  else .ok ⟨width, height, data⟩

def RgbaFrame.sameSize (f g : RgbaFrame) : Bool := f.width == g.width && f.height == g.height

/-- The JPEG library: an encoder that is told the size and a decoder. -/
structure Jpeg where
  encode : List UInt8 → UInt16 → UInt16 → Except String (List UInt8)
  decode : List UInt8 → Except String (List UInt8)

def encodeJpeg (jpeg : Jpeg) (rgba : List UInt8) (width height : UInt32) : Result (List UInt8) :=
  lift .jpegEncode (jpeg.encode rgba width.toUInt16 height.toUInt16)

def decodeJpeg (jpeg : Jpeg) (bytes : List UInt8) (width height : UInt32) :
    Result (List UInt8) := do
  let pixels ← lift .jpegDecode (jpeg.decode bytes)
  let expected ← byteLen width height
  if pixels.length ≠ expected then
    fail (.jpegDecode s!"decoded {pixels.length} bytes, expected {expected}")
  else .ok pixels

def block (bytes : List UInt8) : List UInt8 := toLeBytes (.ofNat bytes.length) ++ bytes

/-- Offset of a rectangle's row: `(y + row) * stride + x * 4`. -/
def rowStart (stride : ℕ) (rect : TileRect) (row : ℕ) : Result ℕ := do
  let y ← add usizeBits rect.y.toNat row
  let rowOffset ← mul usizeBits y stride
  let xOffset ← mul usizeBits rect.x.toNat 4
  add usizeBits rowOffset xOffset

def RgbaFrame.Valid (f : RgbaFrame) : Prop := f.data.length = 4 * f.width.toNat * f.height.toNat

def RgbaFrame.stride (f : RgbaFrame) : ℕ := 4 * f.width.toNat

def TileRect.window (rect : TileRect) : Window where
  top := rect.y.toNat
  left := 4 * rect.x.toNat
  rows := rect.h.toNat
  cols := 4 * rect.w.toNat

def RgbaFrame.region (f : RgbaFrame) (rect : TileRect) : List UInt8 :=
  rect.window.extract f.stride f.data

theorem RgbaFrame.sameSize_iff {f g : RgbaFrame} :
    f.sameSize g = true ↔ f.width = g.width ∧ f.height = g.height := by
  simp [RgbaFrame.sameSize]

theorem byteLen_ok {width height : UInt32} (h : 4 * width.toNat * height.toNat < 2 ^ 64) :
    byteLen width height = .ok (4 * width.toNat * height.toNat) := by
  have harea : 4 * width.toNat * height.toNat = width.toNat * height.toNat * 4 := by ring
  rw [byteLen, mul_ok (by rw [usizeBits]; omega), ok_bind, mul_ok (by rw [usizeBits]; omega), harea]

theorem new_ok {width height : UInt32} {data : List UInt8}
    (h : data.length = 4 * width.toNat * height.toNat)
    (hlt : 4 * width.toNat * height.toNat < 2 ^ 64) :
    RgbaFrame.new width height data = .ok ⟨width, height, data⟩ := by
  rw [RgbaFrame.new, byteLen_ok hlt, ok_bind, if_neg (not_not.mpr h)]

theorem rowStart_ok {stride row : ℕ} {rect : TileRect} (hrow : row < rect.h.toNat)
    (h : rect.window.start stride row < 2 ^ 64) :
    rowStart stride rect row = .ok (rect.window.start stride row) := by
  have hy := rect.y.toNat_lt
  have hh := rect.h.toNat_lt
  have hx := rect.x.toNat_lt
  have hstart : rect.window.start stride row = (rect.y.toNat + row) * stride + 4 * rect.x.toNat :=
    rfl
  rw [hstart] at h
  rw [rowStart, usizeBits, add_ok (by omega), ok_bind, mul_ok (by omega), ok_bind,
    mul_ok (by omega), ok_bind, add_ok (by omega), hstart, Nat.mul_comm rect.x.toNat]

theorem mul_four_ok (n : UInt32) : (mul usizeBits n.toNat 4 : Result ℕ) = .ok (4 * n.toNat) := by
  have hn := n.toNat_lt
  rw [usizeBits, mul_ok (by omega), Nat.mul_comm]

def TileRect.Inside (rect : TileRect) (width height : UInt32) : Prop :=
  rect.x.toNat + rect.w.toNat ≤ width.toNat ∧ rect.y.toNat + rect.h.toNat ≤ height.toNat

theorem TileRect.Inside.within {rect : TileRect} {f : RgbaFrame}
    (h : rect.Inside f.width f.height) : rect.window.Within f.stride f.height.toNat := by
  refine ⟨?_, h.2⟩
  have hcols := h.1
  simp only [TileRect.window, RgbaFrame.stride]
  omega

theorem RgbaFrame.Valid.length {f : RgbaFrame} (h : f.Valid) :
    f.data.length = f.stride * f.height.toNat := h

end Controlis.Codec
