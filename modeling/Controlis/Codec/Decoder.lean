import Controlis.Codec.Frame

/-!
# The tile decoder

The decoder keeps a canvas. A full message replaces it and a delta message
patches the listed rectangles, walking a payload of length-prefixed JPEG blocks
with a cursor. A delta that fails part of the way leaves the tiles before the
failure on the canvas, so `decode` returns the canvas beside its result.
-/

namespace Controlis.Codec
open Checked Numeral Strided Protocol

structure TileDecoder where
  canvas : Option RgbaFrame
deriving DecidableEq, Repr

def TileDecoder.new : TileDecoder := ⟨none⟩

def readU32 (buf : List UInt8) (cursor : ℕ) : Result (UInt32 × ℕ) := do
  let stop ← add usizeBits cursor 4
  let bytes ← orFail .malformedPayload (get? buf cursor stop)
  .ok (.ofNat (fromLeBytes bytes), stop)

def blitRows (rect : TileRect) (pixels : List UInt8) (stride rowBytes : ℕ) :
    List UInt8 → List ℕ → Result (List UInt8)
  | data, [] => .ok data
  | data, row :: rows => do
    let dst ← rowStart stride rect row
    let src ← mul usizeBits row rowBytes
    let dstEnd ← add usizeBits dst rowBytes
    let srcEnd ← add usizeBits src rowBytes
    let bytes ← index pixels src srcEnd
    let data ← copyFromSlice data dst dstEnd bytes
    blitRows rect pixels stride rowBytes data rows

def blit (canvas : RgbaFrame) (rect : TileRect) (pixels : List UInt8) : Result RgbaFrame := do
  let stride ← mul usizeBits canvas.width.toNat 4
  let rowBytes ← mul usizeBits rect.w.toNat 4
  let data ← blitRows rect pixels stride rowBytes canvas.data (List.range rect.h.toNat)
  .ok { canvas with data := data }

def nextTile (jpeg : Jpeg) (payload : List UInt8) (cursor : ℕ) (rect : TileRect) :
    Result (List UInt8 × ℕ) := do
  let (len, cursor) ← readU32 payload cursor
  let stop ← add usizeBits cursor len.toNat
  let bytes ← orFail .malformedPayload (get? payload cursor stop)
  let pixels ← decodeJpeg jpeg bytes rect.w rect.h
  .ok (pixels, stop)

def patchTiles (jpeg : Jpeg) (payload : List UInt8) :
    RgbaFrame → ℕ → List TileRect → RgbaFrame × Result Unit
  | canvas, _, [] => (canvas, .ok ())
  | canvas, cursor, rect :: rects =>
    match nextTile jpeg payload cursor rect with
    | .error stop => (canvas, .error stop)
    | .ok (pixels, cursor) =>
      match blit canvas rect pixels with
      | .error stop => (canvas, .error stop)
      | .ok canvas => patchTiles jpeg payload canvas cursor rects

def TileDecoder.applyDelta (jpeg : Jpeg) (dec : TileDecoder) (width height : UInt32)
    (tiles : List TileRect) (payload : List UInt8) : TileDecoder × Result Unit :=
  match dec.canvas with
  | none => (dec, fail .unexpectedResize)
  | some canvas =>
    if canvas.width ≠ width ∨ canvas.height ≠ height then (dec, fail .unexpectedResize)
    else
      let (canvas, result) := patchTiles jpeg payload canvas 0 tiles
      (⟨some canvas⟩, result)

def fullFrame (jpeg : Jpeg) (message : ScreenFrame) : Result RgbaFrame := do
  let data ← match message.codec with
    | .rawRgba => .ok message.payload
    | .jpegTiles => decodeJpeg jpeg message.payload message.widthPx message.heightPx
    | .h264 => fail (.unsupportedCodec message.codec)
  RgbaFrame.new message.widthPx message.heightPx data

def TileDecoder.accept (jpeg : Jpeg) (dec : TileDecoder) (message : ScreenFrame) :
    TileDecoder × Result Unit :=
  match message.encoding with
  | .full =>
    match fullFrame jpeg message with
    | .error stop => (dec, .error stop)
    | .ok frame => (⟨some frame⟩, .ok ())
  | .tileDelta => dec.applyDelta jpeg message.widthPx message.heightPx message.tiles message.payload

def TileDecoder.decode (jpeg : Jpeg) (dec : TileDecoder) (message : ScreenFrame) :
    TileDecoder × Result RgbaFrame :=
  match dec.accept jpeg message with
  | (dec, .error stop) => (dec, .error stop)
  | (dec, .ok ()) =>
    match dec.canvas with
    | none => (dec, .error (.fault .expectation))
    | some canvas => (dec, .ok canvas)

variable {jpeg : Jpeg} {canvas : RgbaFrame} {rect : TileRect} {pixels payload : List UInt8}

/-- Every row of the rectangle, taken as a run of bytes, ends inside the canvas. -/
def RowsFit (canvas : RgbaFrame) (rect : TileRect) : Prop :=
  ∀ row < rect.h.toNat,
    rect.window.start canvas.stride row + 4 * rect.w.toNat ≤ canvas.data.length

theorem rowsFit_inside (hv : canvas.Valid) (h : rect.Inside canvas.width canvas.height) :
    RowsFit canvas rect :=
  fun _ hrow => h.within.row_le hv.length hrow

theorem blitRows_ok (stride : ℕ) {data : List UInt8} (rows : List ℕ)
    (hpixels : pixels.length = 4 * rect.w.toNat * rect.h.toNat)
    (hpixels64 : pixels.length < 2 ^ 64) (hdata64 : data.length < 2 ^ 64)
    (hrows : ∀ row ∈ rows, row < rect.h.toNat ∧
      rect.window.start stride row + 4 * rect.w.toNat ≤ data.length) :
    blitRows rect pixels stride (4 * rect.w.toNat) data rows =
      .ok (rows.foldl (fun xs r => overwrite xs (rect.window.start stride r)
        (slice pixels (r * (4 * rect.w.toNat)) (4 * rect.w.toNat))) data) := by
  induction rows generalizing data with
  | nil => rfl
  | cons row rows ih =>
    obtain ⟨hrow, hfits⟩ := hrows row (by simp)
    have hsrc : row * (4 * rect.w.toNat) + 4 * rect.w.toNat ≤ pixels.length := by
      rw [hpixels, Nat.mul_comm (4 * rect.w.toNat), ← Nat.succ_mul]
      exact Nat.mul_le_mul_right _ hrow
    have hbytes := length_slice hsrc
    have hlen : (overwrite data (rect.window.start stride row)
        (slice pixels (row * (4 * rect.w.toNat)) (4 * rect.w.toNat))).length = data.length :=
      length_overwrite (by rwa [hbytes])
    rw [blitRows, rowStart_ok hrow (by omega), ok_bind, usizeBits, mul_ok (by omega), ok_bind,
      add_ok (by omega), ok_bind, add_ok (by omega), ok_bind, index_ok hsrc, ok_bind,
      copyFromSlice_ok hfits hbytes, ok_bind, List.foldl_cons]
    refine ih (by rwa [hlen]) fun r hr => ?_
    rw [hlen]
    exact hrows r (List.mem_cons_of_mem _ hr)

theorem blit_ok (hdata64 : canvas.data.length < 2 ^ 64)
    (hpixels : pixels.length = 4 * rect.w.toNat * rect.h.toNat)
    (hpixels64 : pixels.length < 2 ^ 64) (hfit : RowsFit canvas rect) :
    blit canvas rect pixels =
      .ok { canvas with data := rect.window.patch canvas.stride pixels canvas.data } := by
  have hrows := blitRows_ok canvas.stride (List.range rect.h.toNat)
    hpixels hpixels64 hdata64
    fun row hrow => ⟨List.mem_range.mp hrow, hfit row (List.mem_range.mp hrow)⟩
  rw [blit, mul_four_ok, ok_bind, mul_four_ok, ok_bind]
  exact congrArg (· >>= fun data => Except.ok { canvas with data := data }) hrows

theorem readU32_toLeBytes {pre post : List UInt8} {v : UInt32}
    (h64 : (pre ++ (toLeBytes v ++ post)).length < 2 ^ 64) :
    readU32 (pre ++ (toLeBytes v ++ post)) pre.length = .ok (v, pre.length + 4) := by
  have hlen : pre.length + 4 ≤ (pre ++ (toLeBytes v ++ post)).length := by
    simp only [List.length_append, length_toLeBytes]
    omega
  have hbytes : slice (pre ++ (toLeBytes v ++ post)) pre.length 4 = toLeBytes v := by
    rw [slice, List.drop_left, List.take_left' (length_toLeBytes v)]
  rw [readU32, usizeBits, add_ok (by omega), ok_bind, get?_some hlen, hbytes, orFail, ok_bind,
    fromLeBytes_toLeBytes, UInt32.ofNat_toNat]

def readBlock (payload : List UInt8) (cursor : ℕ) : Result (List UInt8 × ℕ) := do
  let (len, cursor) ← readU32 payload cursor
  let stop ← add usizeBits cursor len.toNat
  let bytes ← orFail .malformedPayload (get? payload cursor stop)
  .ok (bytes, stop)

theorem nextTile_eq (jpeg : Jpeg) (payload : List UInt8) (cursor : ℕ) (rect : TileRect) :
    nextTile jpeg payload cursor rect = (readBlock payload cursor >>= fun found =>
      decodeJpeg jpeg found.1 rect.w rect.h >>= fun pixels => .ok (pixels, found.2)) := by
  simp only [nextTile, readBlock, bind_assoc, ok_bind]

theorem readBlock_block {pre post bytes : List UInt8} (hlen : bytes.length < 2 ^ 32)
    (h64 : (pre ++ (block bytes ++ post)).length < 2 ^ 64) :
    readBlock (pre ++ (block bytes ++ post)) pre.length =
      .ok (bytes, (pre ++ block bytes).length) := by
  have hsplit : pre ++ (block bytes ++ post) =
      pre ++ (toLeBytes (.ofNat bytes.length) ++ (bytes ++ post)) := by
    rw [block, List.append_assoc]
  have hcount : (UInt32.ofNat bytes.length).toNat = bytes.length := by
    rw [UInt32.toNat_ofNat']
    omega
  have hend : pre.length + 4 + bytes.length = (pre ++ block bytes).length := by
    simp only [block, List.length_append, length_toLeBytes]
    omega
  have hfits : pre.length + 4 + bytes.length ≤ (pre ++ (block bytes ++ post)).length := by
    simp only [List.length_append] at hend ⊢
    omega
  have hslice : slice (pre ++ (block bytes ++ post)) (pre.length + 4) bytes.length = bytes := by
    rw [slice, ← List.drop_drop, List.drop_left, block, List.append_assoc,
      List.drop_left' (length_toLeBytes _), List.take_left]
  have hread := readU32_toLeBytes (v := .ofNat bytes.length) (hsplit ▸ h64)
  rw [← hsplit] at hread
  rw [readBlock, hread, ok_bind]
  dsimp only
  rw [hcount, usizeBits, add_ok (by omega), ok_bind, get?_some hfits, hslice, orFail, ok_bind, hend]

theorem nextTile_block {pre post bytes : List UInt8} (hlen : bytes.length < 2 ^ 32)
    (hpixels : decodeJpeg jpeg bytes rect.w rect.h = .ok pixels)
    (h64 : (pre ++ (block bytes ++ post)).length < 2 ^ 64) :
    nextTile jpeg (pre ++ (block bytes ++ post)) pre.length rect =
      .ok (pixels, (pre ++ block bytes).length) := by
  rw [nextTile_eq, readBlock_block hlen h64, ok_bind, hpixels, ok_bind]

/-- The tile loop over blocks an encoder laid out patches every listed rectangle. -/
theorem patchTiles_blocks {bytes pixels : TileRect → List UInt8} {tiles : List TileRect}
    (hv : canvas.Valid) (h64 : 4 * canvas.width.toNat * canvas.height.toNat < 2 ^ 64)
    (hin : ∀ rect ∈ tiles, rect.Inside canvas.width canvas.height)
    (hbytes : ∀ rect ∈ tiles, (bytes rect).length < 2 ^ 32)
    (hpixels : ∀ rect ∈ tiles, decodeJpeg jpeg (bytes rect) rect.w rect.h = .ok (pixels rect) ∧
      (pixels rect).length = 4 * rect.w.toNat * rect.h.toNat)
    (pre : List UInt8)
    (hlen : (pre ++ tiles.flatMap fun rect => block (bytes rect)).length < 2 ^ 64) :
    patchTiles jpeg (pre ++ tiles.flatMap fun rect => block (bytes rect)) canvas pre.length tiles =
      (⟨canvas.width, canvas.height, patchAll canvas.stride
        (tiles.map fun rect => (rect.window, pixels rect)) canvas.data⟩, .ok ()) := by
  induction tiles generalizing canvas pre with
  | nil => rfl
  | cons rect tiles ih =>
    obtain ⟨hjpeg, hcount⟩ := hpixels rect (by simp)
    have hrect := hin rect (by simp)
    have hpixels64 : (pixels rect).length < 2 ^ 64 := by
      rw [hcount]
      refine lt_of_le_of_lt (Nat.mul_le_mul (Nat.mul_le_mul_left 4 ?_) ?_) h64
      · exact (Nat.le_add_left _ _).trans hrect.1
      · exact (Nat.le_add_left _ _).trans hrect.2
    have hrows : (pixels rect).length = rect.window.rows * rect.window.cols := by
      rw [hcount, Nat.mul_comm]
      rfl
    rw [List.flatMap_cons] at hlen ⊢
    rw [patchTiles, nextTile_block (hbytes rect (by simp)) hjpeg hlen]
    dsimp only
    rw [blit_ok (by rwa [hv]) hcount hpixels64 (rowsFit_inside hv hrect)]
    dsimp only
    rw [← List.append_assoc] at hlen ⊢
    have hpatched : RgbaFrame.Valid ⟨canvas.width, canvas.height,
        rect.window.patch canvas.stride (pixels rect) canvas.data⟩ :=
      (length_patch hrect.within hv.length hrows).trans hv
    exact ih hpatched h64 (fun r hr => hin r (List.mem_cons_of_mem _ hr))
      (fun r hr => hbytes r (List.mem_cons_of_mem _ hr))
      (fun r hr => hpixels r (List.mem_cons_of_mem _ hr)) _ hlen

end Controlis.Codec
