import Mathlib.Data.List.Pairwise
import Controlis.Codec.Decoder
import Controlis.Codec.Encoder

/-!
# Encoder and decoder in step

One encoder feeds every message it produces to one decoder. The JPEG library is
lossy, so the canvas is compared with the round trip of the source: a tile
shows either the round trip of the tile itself or, while it has not changed
since the last full message, its part of the round trip of that whole frame.
-/

namespace Controlis.Codec
open Checked Numeral Strided Protocol

/-- What the encoder relies on: pictures of every size encode and decode to the
same size, and the block of one tile has a length of 32 bits. -/
structure Jpeg.RoundTrips (jpeg : Jpeg) : Prop where
  total : ∀ rgba (w h : UInt16), 0 < w.toNat → 0 < h.toNat →
    rgba.length = 4 * w.toNat * h.toNat → ∃ bytes pixels, jpeg.encode rgba w h = .ok bytes ∧
      jpeg.decode bytes = .ok pixels ∧ pixels.length = 4 * w.toNat * h.toNat
  block : ∀ rgba (w h : UInt16) bytes, w.toNat ≤ tileSize → h.toNat ≤ tileSize →
    jpeg.encode rgba w h = .ok bytes → bytes.length < 2 ^ 32

structure Jpeg.RoundTripsTo (jpeg : Jpeg) (side : ℕ) : Prop where
  total : ∀ rgba (w h : UInt16), 0 < w.toNat → w.toNat ≤ side → 0 < h.toNat → h.toNat ≤ side →
    rgba.length = 4 * w.toNat * h.toNat → ∃ bytes pixels, jpeg.encode rgba w h = .ok bytes ∧
      jpeg.decode bytes = .ok pixels ∧ pixels.length = 4 * w.toNat * h.toNat
  block : ∀ rgba (w h : UInt16) bytes, w.toNat ≤ tileSize → h.toNat ≤ tileSize →
    jpeg.encode rgba w h = .ok bytes → bytes.length < 2 ^ 32

theorem Jpeg.RoundTrips.upTo {jpeg : Jpeg} (hj : jpeg.RoundTrips) (side : ℕ) :
    jpeg.RoundTripsTo side :=
  ⟨fun rgba w h hw _ hh _ => hj.total rgba w h hw hh, hj.block⟩

def Jpeg.roundTrip (jpeg : Jpeg) (rgba : List UInt8) (width height : UInt32) :
    Except String (List UInt8) :=
  jpeg.encode rgba width.toUInt16 height.toUInt16 >>= jpeg.decode

structure Picture extends RgbaFrame where
  width_pos : 0 < width.toNat
  width_le : width.toNat ≤ 65535
  height_pos : 0 < height.toNat
  height_le : height.toNat ≤ 65535
  valid : toRgbaFrame.Valid

def Picture.Within (p : Picture) (side : ℕ) : Prop := p.width.toNat ≤ side ∧ p.height.toNat ≤ side

inductive Input
  | frame (monitorId : UInt32) (frameId : UInt64) (picture : Picture)
  | forceKeyframe

def Input.pictures : List Input → List RgbaFrame
  | [] => []
  | .frame _ _ picture :: inputs => picture.toRgbaFrame :: pictures inputs
  | .forceKeyframe :: inputs => pictures inputs

structure Shown where
  source : RgbaFrame
  message : ScreenFrame
  canvas : RgbaFrame

structure Link where
  encoder : TileEncoder
  decoder : TileDecoder

def Link.new (codec : VideoCodec) : Link := ⟨.new codec, .new⟩

def Link.feed (jpeg : Jpeg) (link : Link) : Input → Result (Link × List Shown)
  | .forceKeyframe => .ok ({ link with encoder := link.encoder.forceKeyframe }, [])
  | .frame monitorId frameId picture => do
    let (message, encoder) ← link.encoder.encode jpeg monitorId frameId picture.toRgbaFrame
    match link.decoder.decode jpeg message with
    | (decoder, result) => do
      let canvas ← result
      .ok (⟨encoder, decoder⟩, [⟨picture.toRgbaFrame, message, canvas⟩])

def Link.play (jpeg : Jpeg) (link : Link) (shown : List Shown) :
    List Input → Result (Link × List Shown)
  | [] => .ok (link, shown)
  | input :: inputs => do
    let (link, new) ← link.feed jpeg input
    link.play jpeg (shown ++ new) inputs

/-- The tile has stayed as it was in the last full message, whose round trip it shows. -/
def SinceFull (jpeg : Jpeg) (shown : List Shown) (canvas : RgbaFrame) (rect : TileRect) : Prop :=
  ∃ early full mid decoded, shown = early ++ full :: mid ∧ full.message.encoding = .full ∧
    (∀ s ∈ mid, s.message.encoding = .tileDelta ∧ s.source.sameSize full.source = true ∧
      s.source.region rect = full.source.region rect) ∧
    jpeg.roundTrip full.source.data full.source.width full.source.height = .ok decoded ∧
    canvas.region rect = RgbaFrame.region ⟨full.source.width, full.source.height, decoded⟩ rect

structure Tracks (jpeg : Jpeg) (pre : List Shown) (s : Shown) : Prop where
  size : s.canvas.sameSize s.source = true
  valid : s.canvas.Valid
  tile : ∀ rect ∈ grid s.source.width.toNat s.source.height.toNat,
    jpeg.roundTrip (s.source.region rect) rect.w rect.h = .ok (s.canvas.region rect) ∨
      SinceFull jpeg (pre ++ [s]) s.canvas rect

variable {jpeg : Jpeg} {link : Link} {shown : List Shown} {picture : Picture} {side : ℕ}

theorem toUInt16_toNat {n : UInt32} (h : n.toNat ≤ 65535) : n.toUInt16.toNat = n.toNat := by
  rw [UInt32.toNat_toUInt16]
  omega

theorem jpeg_ok (hj : jpeg.RoundTripsTo side) {rgba : List UInt8} {width height : UInt32}
    (hw : 0 < width.toNat) (hw' : width.toNat ≤ 65535) (hh : 0 < height.toNat)
    (hh' : height.toNat ≤ 65535) (hside : width.toNat ≤ side ∧ height.toNat ≤ side)
    (hlen : rgba.length = 4 * width.toNat * height.toNat) :
    ∃ bytes pixels, encodeJpeg jpeg rgba width height = .ok bytes ∧
      decodeJpeg jpeg bytes width height = .ok pixels ∧
      jpeg.roundTrip rgba width height = .ok pixels ∧
      pixels.length = 4 * width.toNat * height.toNat ∧
      (width.toNat ≤ tileSize → height.toNat ≤ tileSize → bytes.length < 2 ^ 32) := by
  have hwn := toUInt16_toNat hw'
  have hhn := toUInt16_toNat hh'
  obtain ⟨bytes, pixels, henc, hdec, hpix⟩ := hj.total rgba width.toUInt16 height.toUInt16
    (by omega) (by omega) (by omega) (by omega) (by rw [hwn, hhn, hlen])
  rw [hwn, hhn] at hpix
  have h64 : 4 * width.toNat * height.toNat < 2 ^ 64 := by
    calc 4 * width.toNat * height.toNat ≤ 4 * 65535 * 65535 :=
          Nat.mul_le_mul (Nat.mul_le_mul_left 4 hw') hh'
      _ < 2 ^ 64 := by decide
  refine ⟨bytes, pixels, ?_, ?_, ?_, hpix, fun hwt hht => ?_⟩
  · rw [encodeJpeg, henc, lift]
  · rw [decodeJpeg, hdec, lift, ok_bind, byteLen_ok h64, ok_bind, if_neg (not_not.mpr hpix)]
  · rw [Jpeg.roundTrip, henc]
    exact hdec
  · exact hj.block rgba _ _ bytes (by rwa [hwn]) (by rwa [hhn]) henc

theorem Picture.lt64 (p : Picture) : 4 * p.width.toNat * p.height.toNat < 2 ^ 64 := by
  calc 4 * p.width.toNat * p.height.toNat ≤ 4 * 65535 * 65535 :=
        Nat.mul_le_mul (Nat.mul_le_mul_left 4 p.width_le) p.height_le
    _ < 2 ^ 64 := by decide

theorem Picture.grid_inside (p : Picture) {rect : TileRect}
    (h : rect ∈ grid p.width.toNat p.height.toNat) : rect.Inside p.width p.height ∧
      0 < rect.w.toNat ∧ rect.w.toNat ≤ tileSize ∧ 0 < rect.h.toNat ∧ rect.h.toNat ≤ tileSize := by
  have hw := p.width_le
  have hh := p.height_le
  exact Codec.grid_inside (by rw [tileSize]; omega) (by rw [tileSize]; omega) h

theorem RgbaFrame.length_region {f : RgbaFrame} {rect : TileRect} (hv : f.Valid)
    (hin : rect.Inside f.width f.height) :
    (f.region rect).length = 4 * rect.w.toNat * rect.h.toNat := by
  rw [RgbaFrame.region, Window.length_extract hin.within hv.length, Nat.mul_comm]
  rfl

def Link.showing (codec : VideoCodec) (s : Shown) : Link :=
  ⟨⟨codec, some s.source⟩, ⟨some s.canvas⟩⟩

theorem feed_full {monitorId : UInt32} {frameId : UInt64} {message : ScreenFrame}
    {canvas : RgbaFrame}
    (hfull : (link.encoder.sendFull picture.toRgbaFrame ||
      link.encoder.codec == .rawRgba) = true)
    (henc : link.encoder.encodeFull jpeg monitorId frameId picture.toRgbaFrame = .ok message)
    (hmessage : message.encoding = .full) (hdec : fullFrame jpeg message = .ok canvas) :
    link.feed jpeg (.frame monitorId frameId picture) =
      .ok (.showing link.encoder.codec ⟨picture.toRgbaFrame, message, canvas⟩,
        [⟨picture.toRgbaFrame, message, canvas⟩]) := by
  rw [Link.feed, TileEncoder.encode, if_pos hfull, henc, ok_bind, ok_bind]
  dsimp only
  rw [TileDecoder.decode, TileDecoder.accept, hmessage]
  dsimp only
  rw [hdec]
  dsimp only
  rw [ok_bind, Link.showing]

theorem feed_full_jpeg (shown : List Shown) (hj : jpeg.RoundTripsTo side)
    (hside : picture.Within side)
    (hcodec : link.encoder.codec = .jpegTiles)
    (hfull : link.encoder.sendFull picture.toRgbaFrame = true)
    (monitorId : UInt32) (frameId : UInt64) :
    ∃ s, s.source = picture.toRgbaFrame ∧ Tracks jpeg shown s ∧
      link.feed jpeg (.frame monitorId frameId picture) = .ok (.showing .jpegTiles s, [s]) := by
  obtain ⟨bytes, pixels, henc, hdec, htrip, hlen, -⟩ := jpeg_ok hj picture.width_pos
    picture.width_le picture.height_pos picture.height_le hside picture.valid
  let message : ScreenFrame :=
    ⟨monitorId, frameId, .jpegTiles, .full, picture.width, picture.height, [], bytes⟩
  have henc' : link.encoder.encodeFull jpeg monitorId frameId picture.toRgbaFrame =
      .ok message := by
    rw [TileEncoder.encodeFull, hcodec]
    dsimp only
    rw [henc, ok_bind]
  have hdec' : fullFrame jpeg message = .ok ⟨picture.width, picture.height, pixels⟩ := by
    rw [fullFrame]
    dsimp only [message]
    rw [hdec, ok_bind, new_ok hlen picture.lt64]
  have hfeed := feed_full (by rw [hfull, Bool.true_or]) henc' rfl hdec'
  rw [hcodec] at hfeed
  refine ⟨⟨picture.toRgbaFrame, message, ⟨picture.width, picture.height, pixels⟩⟩, rfl,
    ⟨?_, hlen, fun rect _ => Or.inr ?_⟩, hfeed⟩
  · exact RgbaFrame.sameSize_iff.mpr ⟨rfl, rfl⟩
  · exact ⟨shown, _, [], pixels, rfl, rfl, by simp, htrip, rfl⟩

theorem feed_raw (jpeg : Jpeg) (picture : Picture) (hcodec : link.encoder.codec = .rawRgba)
    (monitorId : UInt32)
    (frameId : UInt64) :
    ∃ s, s.source = picture.toRgbaFrame ∧ s.canvas = s.source ∧
      link.feed jpeg (.frame monitorId frameId picture) = .ok (.showing .rawRgba s, [s]) := by
  let message : ScreenFrame := ⟨monitorId, frameId, .rawRgba, .full, picture.width,
    picture.height, [], picture.data⟩
  have henc : link.encoder.encodeFull jpeg monitorId frameId picture.toRgbaFrame =
      .ok message := by
    rw [TileEncoder.encodeFull, hcodec]
    rfl
  have hdec : fullFrame jpeg message = .ok picture.toRgbaFrame := new_ok picture.valid picture.lt64
  have hfeed := feed_full (by rw [hcodec]; simp) henc rfl hdec
  rw [hcodec] at hfeed
  exact ⟨_, rfl, rfl, hfeed⟩

theorem length_flatMap_le {α β : Type} {f : α → List β} {xs : List α} {k : ℕ}
    (h : ∀ x ∈ xs, (f x).length ≤ k) : (xs.flatMap f).length ≤ xs.length * k := by
  induction xs with
  | nil => simp
  | cons x xs ih =>
    have hx := h x (by simp)
    have hxs := ih fun y hy => h y (List.mem_cons_of_mem _ hy)
    rw [List.flatMap_cons, List.length_append, List.length_cons, Nat.succ_mul]
    omega

theorem Picture.length_grid_le (p : Picture) :
    (grid p.width.toNat p.height.toNat).length ≤ 1024 * 1024 := by
  have hw := p.width_le
  have hh := p.height_le
  rw [length_grid]
  exact Nat.mul_le_mul (by rw [tileCount, tileSize]; omega) (by rw [tileCount, tileSize]; omega)

theorem length_blocks_lt {blocks : List (List UInt8)} (hcount : blocks.length ≤ 1024 * 1024)
    (hlen : ∀ bytes ∈ blocks, bytes.length < 2 ^ 32) : (blocks.flatMap block).length < 2 ^ 64 := by
  have hblock : ∀ bytes ∈ blocks, (block bytes).length ≤ 2 ^ 33 := by
    intro bytes hbytes
    have hlt := hlen bytes hbytes
    simp only [block, List.length_append, length_toLeBytes]
    omega
  calc (blocks.flatMap block).length
      ≤ blocks.length * 2 ^ 33 := length_flatMap_le hblock
    _ ≤ 1024 * 1024 * 2 ^ 33 := Nat.mul_le_mul_right _ hcount
    _ < 2 ^ 64 := by decide

theorem payload_lt {bytes : TileRect → List UInt8} {tiles : List TileRect}
    (hsub : tiles.length ≤ (grid picture.width.toNat picture.height.toNat).length)
    (hbytes : ∀ rect ∈ tiles, (bytes rect).length < 2 ^ 32) :
    (tiles.flatMap fun rect => block (bytes rect)).length < 2 ^ 64 := by
  have hcount : (tiles.map bytes).length ≤ 1024 * 1024 := by
    rw [List.length_map]
    exact hsub.trans picture.length_grid_le
  have hlen := length_blocks_lt hcount (List.forall_mem_map.mpr hbytes)
  rwa [List.flatMap_map] at hlen

theorem Picture.grid_eq_or_apart (p : Picture) {a b : TileRect}
    (ha : a ∈ grid p.width.toNat p.height.toNat) (hb : b ∈ grid p.width.toNat p.height.toNat) :
    a = b ∨ a.window.Apart b.window := by
  have hw := p.width_le
  have hh := p.height_le
  have hsymm : Std.Symm fun a b : TileRect => a.window.Apart b.window := ⟨fun _ _ h => h.symm⟩
  have hpair := grid_apart p.width.toNat p.height.toNat
    (by rw [tileSize]; omega) (by rw [tileSize]; omega)
  by_cases hab : a = b
  · exact Or.inl hab
  · exact Or.inr (hpair.forall ha hb hab)

structure TileCodes (jpeg : Jpeg) (picture : Picture) where
  bytes : TileRect → List UInt8
  pixels : TileRect → List UInt8
  encodes : ∀ rect ∈ grid picture.width.toNat picture.height.toNat,
    encodeJpeg jpeg (picture.region rect) rect.w rect.h = .ok (bytes rect)
  decodes : ∀ rect ∈ grid picture.width.toNat picture.height.toNat,
    decodeJpeg jpeg (bytes rect) rect.w rect.h = .ok (pixels rect)
  roundTrip : ∀ rect ∈ grid picture.width.toNat picture.height.toNat,
    jpeg.roundTrip (picture.region rect) rect.w rect.h = .ok (pixels rect)
  length : ∀ rect ∈ grid picture.width.toNat picture.height.toNat,
    (pixels rect).length = 4 * rect.w.toNat * rect.h.toNat
  short : ∀ rect ∈ grid picture.width.toNat picture.height.toNat, (bytes rect).length < 2 ^ 32

theorem exists_tileCodes (hj : jpeg.RoundTripsTo side) (picture : Picture)
    (hside : picture.Within side) : Nonempty (TileCodes jpeg picture) := by
  have hjpeg : ∀ rect, rect ∈ grid picture.width.toNat picture.height.toNat →
      ∃ bytes pixels, encodeJpeg jpeg (picture.region rect) rect.w rect.h = .ok bytes ∧
        decodeJpeg jpeg bytes rect.w rect.h = .ok pixels ∧
        jpeg.roundTrip (picture.region rect) rect.w rect.h = .ok pixels ∧
        pixels.length = 4 * rect.w.toNat * rect.h.toNat ∧ bytes.length < 2 ^ 32 := by
    intro rect hrect
    obtain ⟨hin, hw0, hw1, hh0, hh1⟩ := picture.grid_inside hrect
    simp only [tileSize] at hw1 hh1
    have hwhole := hside
    have hpart : rect.w.toNat ≤ side ∧ rect.h.toNat ≤ side := by
      simp only [Picture.Within, TileRect.Inside] at hwhole hin
      omega
    obtain ⟨bytes, pixels, henc, hdec, htrip, hlen, hblock⟩ := jpeg_ok hj hw0 (by omega) hh0
      (by omega) hpart (RgbaFrame.length_region picture.valid hin)
    exact ⟨bytes, pixels, henc, hdec, htrip, hlen,
      hblock (by rwa [tileSize]) (by rwa [tileSize])⟩
  choose! bytes pixels henc hdec htrip hlen hblock using hjpeg
  exact ⟨⟨bytes, pixels, henc, hdec, htrip, hlen, hblock⟩⟩

def changedTiles (prev frame : RgbaFrame) : List TileRect :=
  (grid frame.width.toNat frame.height.toNat).filter
    fun rect => prev.region rect ≠ frame.region rect

theorem mem_changedTiles {prev frame : RgbaFrame} {rect : TileRect} :
    rect ∈ changedTiles prev frame ↔ rect ∈ grid frame.width.toNat frame.height.toNat ∧
      prev.region rect ≠ frame.region rect := by
  rw [changedTiles, List.mem_filter, decide_eq_true_iff]

def TileCodes.deltaMessage (c : TileCodes jpeg picture) (prev : RgbaFrame) (monitorId : UInt32)
    (frameId : UInt64) : ScreenFrame where
  monitorId := monitorId
  frameId := frameId
  codec := .jpegTiles
  encoding := .tileDelta
  widthPx := picture.width
  heightPx := picture.height
  tiles := changedTiles prev picture.toRgbaFrame
  payload := (changedTiles prev picture.toRgbaFrame).flatMap fun rect => block (c.bytes rect)

def TileCodes.blocks (c : TileCodes jpeg picture) (prev : RgbaFrame) :
    List (Window × List UInt8) :=
  (changedTiles prev picture.toRgbaFrame).map fun rect => (rect.window, c.pixels rect)

def TileCodes.patched (c : TileCodes jpeg picture) (prev canvas : RgbaFrame) : RgbaFrame :=
  ⟨canvas.width, canvas.height, patchAll canvas.stride (c.blocks prev) canvas.data⟩

variable {prev canvas : RgbaFrame}

theorem TileCodes.encode_delta (c : TileCodes jpeg picture) (enc : TileEncoder)
    (hcodec : enc.codec = .jpegTiles) (hprev : enc.previous = some prev) (hpv : prev.Valid)
    (hsize : prev.sameSize picture.toRgbaFrame = true) (monitorId : UInt32) (frameId : UInt64) :
    enc.encode jpeg monitorId frameId picture.toRgbaFrame =
      .ok (c.deltaMessage prev monitorId frameId, ⟨.jpegTiles, some picture.toRgbaFrame⟩) := by
  obtain ⟨hpw, hph⟩ := RgbaFrame.sameSize_iff.mp hsize
  have hw := picture.width_le
  have hh := picture.height_le
  have hgrid : tileRects picture.width picture.height = .ok (grid picture.width.toNat
      picture.height.toNat) :=
    tileRects_ok (by rw [tileSize]; omega) (by rw [tileSize]; omega)
  have hdelta := deltaTiles_ok hpv picture.valid hsize (by rw [hpw, hph]; exact picture.lt64)
    (fun rect h => by rw [hpw, hph]; exact (picture.grid_inside h).1) c.encodes [] []
  have hnot : ¬(enc.sendFull picture.toRgbaFrame || enc.codec == .rawRgba) = true := by
    rw [TileEncoder.sendFull, hprev, hcodec]
    simp [hsize]
  rw [TileEncoder.encode, if_neg hnot, TileEncoder.encodeDelta, hprev]
  dsimp only
  rw [hgrid, ok_bind, hdelta, ok_bind]
  dsimp only
  rw [ok_bind, hcodec]
  rfl

theorem TileCodes.decode_delta (c : TileCodes jpeg picture) (prev : RgbaFrame) (dec : TileDecoder)
    (hcanvas : dec.canvas = some canvas) (hcv : canvas.Valid)
    (hcs : canvas.sameSize picture.toRgbaFrame = true) (monitorId : UInt32) (frameId : UInt64) :
    dec.decode jpeg (c.deltaMessage prev monitorId frameId) =
      (⟨some (c.patched prev canvas)⟩, .ok (c.patched prev canvas)) := by
  obtain ⟨hw, hh⟩ := RgbaFrame.sameSize_iff.mp hcs
  have hmem : ∀ rect ∈ changedTiles prev picture.toRgbaFrame,
      rect ∈ grid picture.width.toNat picture.height.toNat := fun rect h =>
    (mem_changedTiles.mp h).1
  have hblocks : patchTiles jpeg (c.deltaMessage prev monitorId frameId).payload canvas 0
      (changedTiles prev picture.toRgbaFrame) = (c.patched prev canvas, .ok ()) :=
    patchTiles_blocks hcv (by rw [hw, hh]; exact picture.lt64)
      (fun rect h => by rw [hw, hh]; exact (picture.grid_inside (hmem rect h)).1)
      (fun rect h => c.short rect (hmem rect h))
      (fun rect h => ⟨c.decodes rect (hmem rect h), c.length rect (hmem rect h)⟩) []
      (payload_lt (List.length_filter_le _ _) fun rect h => c.short rect (hmem rect h))
  have hsame : ¬(canvas.width ≠ picture.width ∨ canvas.height ≠ picture.height) := by
    simp [hw, hh]
  rw [TileDecoder.decode, TileDecoder.accept]
  dsimp only [TileCodes.deltaMessage] at hblocks ⊢
  rw [TileDecoder.applyDelta, hcanvas]
  dsimp only
  rw [if_neg hsame, hblocks]

theorem TileCodes.patched_valid (c : TileCodes jpeg picture) (prev : RgbaFrame) (hcv : canvas.Valid)
    (hcs : canvas.sameSize picture.toRgbaFrame = true) :
    (c.patched prev canvas).Valid ∧
      ∀ rect ∈ grid picture.width.toNat picture.height.toNat,
        (c.patched prev canvas).region rect =
          if prev.region rect ≠ picture.region rect then c.pixels rect else canvas.region rect := by
  obtain ⟨hw, hh⟩ := RgbaFrame.sameSize_iff.mp hcs
  have hwithin : ∀ rect ∈ grid picture.width.toNat picture.height.toNat,
      rect.window.Within canvas.stride canvas.height.toNat := fun rect h =>
    TileRect.Inside.within (by rw [hw, hh]; exact (picture.grid_inside h).1)
  have hfits : Fits canvas.stride canvas.height.toNat (c.blocks prev) := by
    intro b hb
    obtain ⟨rect, hrect, rfl⟩ := List.mem_map.mp hb
    have hmem := (mem_changedTiles.mp hrect).1
    refine ⟨hwithin rect hmem, ?_⟩
    rw [c.length rect hmem, Nat.mul_comm]
    rfl
  refine ⟨length_patchAll hfits hcv.length, fun rect hrect => ?_⟩
  split_ifs with hchanged
  · have hpair : (c.blocks prev).Pairwise fun b d => b.1.Apart d.1 := by
      have hw := picture.width_le
      have hh := picture.height_le
      exact List.pairwise_map.mpr ((grid_apart _ _ (by rw [tileSize]; omega)
        (by rw [tileSize]; omega)).filter _)
    exact extract_patchAll_mem hfits hcv.length hpair
      (List.mem_map_of_mem (mem_changedTiles.mpr ⟨hrect, hchanged⟩))
  · have hapart : ∀ b ∈ c.blocks prev, b.1.Apart rect.window := by
      intro b hb
      obtain ⟨r, hr, rfl⟩ := List.mem_map.mp hb
      obtain ⟨hmem, hne⟩ := mem_changedTiles.mp hr
      rcases picture.grid_eq_or_apart hmem hrect with rfl | h
      · exact absurd hne hchanged
      · exact h
    exact extract_patchAll_apart hfits (hwithin rect hrect) hcv.length hapart

theorem split_last {α : Type} {xs pre post : List α} {x y : α}
    (h : xs ++ [x] = pre ++ y :: post) :
    (post = [] ∧ pre = xs ∧ y = x) ∨ ∃ rest, post = rest ++ [x] ∧ xs = pre ++ y :: rest := by
  rcases List.eq_nil_or_concat post with rfl | ⟨rest, z, rfl⟩
  · obtain ⟨hxs, hlast⟩ := List.append_inj' h rfl
    exact Or.inl ⟨rfl, hxs.symm, (List.singleton_inj.mp hlast).symm⟩
  · rw [List.concat_eq_append, ← List.cons_append, ← List.append_assoc] at h
    obtain ⟨hxs, hlast⟩ := List.append_inj' h rfl
    exact Or.inr ⟨rest, by rw [List.concat_eq_append, List.singleton_inj.mp hlast], hxs⟩

theorem SinceFull.extend {s s' : Shown} {rect : TileRect}
    (h : SinceFull jpeg (shown ++ [s]) s.canvas rect) (hdelta : s'.message.encoding = .tileDelta)
    (hsize : s'.source.sameSize s.source = true)
    (hsame : s'.source.region rect = s.source.region rect)
    (hcanvas : s'.canvas.region rect = s.canvas.region rect) :
    SinceFull jpeg (shown ++ [s] ++ [s']) s'.canvas rect := by
  obtain ⟨early, full, mid, decoded, hsplit, hfull, hmid, htrip, hshows⟩ := h
  obtain ⟨hw, hh⟩ := RgbaFrame.sameSize_iff.mp hsize
  have hlast : s.source.sameSize full.source = true ∧
      s.source.region rect = full.source.region rect := by
    rcases split_last hsplit with ⟨-, -, rfl⟩ | ⟨rest, rfl, -⟩
    · exact ⟨RgbaFrame.sameSize_iff.mpr ⟨rfl, rfl⟩, rfl⟩
    · exact (hmid s (by simp)).2
  obtain ⟨hw', hh'⟩ := RgbaFrame.sameSize_iff.mp hlast.1
  refine ⟨early, full, mid ++ [s'], decoded, by rw [hsplit]; simp, hfull, fun m hm => ?_, htrip,
    hcanvas.trans hshows⟩
  rcases List.mem_append.mp hm with hm | hm
  · exact hmid m hm
  · rw [List.mem_singleton.mp hm]
    exact ⟨hdelta, RgbaFrame.sameSize_iff.mpr ⟨hw.trans hw', hh.trans hh'⟩, hsame.trans hlast.2⟩

theorem Tracks.delta {s s' : Shown} (h : Tracks jpeg shown s)
    (hsize : s.source.sameSize s'.source = true) (hdelta : s'.message.encoding = .tileDelta)
    (hcs : s'.canvas.sameSize s'.source = true) (hcv : s'.canvas.Valid)
    (htile : ∀ rect ∈ grid s'.source.width.toNat s'.source.height.toNat,
      if s.source.region rect ≠ s'.source.region rect then
        jpeg.roundTrip (s'.source.region rect) rect.w rect.h = .ok (s'.canvas.region rect)
      else s'.canvas.region rect = s.canvas.region rect) :
    Tracks jpeg (shown ++ [s]) s' := by
  obtain ⟨hw, hh⟩ := RgbaFrame.sameSize_iff.mp hsize
  refine ⟨hcs, hcv, fun rect hrect => ?_⟩
  have hnow := htile rect hrect
  split_ifs at hnow with hchanged
  · exact Or.inl hnow
  · have hsame := not_not.mp hchanged
    rcases h.tile rect (by rw [hw, hh]; exact hrect) with htrip | hsince
    · refine Or.inl ?_
      rw [← hsame, hnow]
      exact htrip
    · exact Or.inr (hsince.extend hdelta (RgbaFrame.sameSize_iff.mpr ⟨hw.symm, hh.symm⟩)
        hsame.symm hnow)

/-- Between two inputs: every frame so far was shown as it should be, and an
encoder that would send a delta has just shown the frame it compares with. -/
structure InStep (jpeg : Jpeg) (link : Link) (shown : List Shown) : Prop where
  codec : link.encoder.codec = .jpegTiles
  tracks : ∀ pre s post, shown = pre ++ s :: post → Tracks jpeg pre s
  previous : link.encoder.previous = none ∨
    ∃ pre s, shown = pre ++ [s] ∧ s.source.Valid ∧ link = .showing .jpegTiles s

theorem InStep.show {s : Shown} (h : InStep jpeg link shown) (hs : Tracks jpeg shown s)
    (hv : s.source.Valid) : InStep jpeg (.showing .jpegTiles s) (shown ++ [s]) := by
  refine ⟨rfl, fun pre x post hsplit => ?_, Or.inr ⟨shown, s, rfl, hv, rfl⟩⟩
  rcases split_last hsplit with ⟨-, rfl, rfl⟩ | ⟨rest, -, hold⟩
  · exact hs
  · exact h.tracks pre x rest hold

theorem InStep.feed_frame (hj : jpeg.RoundTripsTo side) (h : InStep jpeg link shown)
    (monitorId : UInt32) (frameId : UInt64) (picture : Picture) (hside : picture.Within side) :
    ∃ s, s.source = picture.toRgbaFrame ∧
      link.feed jpeg (.frame monitorId frameId picture) = .ok (.showing .jpegTiles s, [s]) ∧
      InStep jpeg (.showing .jpegTiles s) (shown ++ [s]) := by
  by_cases hfull : link.encoder.sendFull picture.toRgbaFrame = true
  · obtain ⟨s, hsource, htracks, hfeed⟩ := feed_full_jpeg shown hj hside h.codec
      hfull monitorId frameId
    exact ⟨s, hsource, hfeed, h.show htracks (hsource ▸ picture.valid)⟩
  -- a delta: the encoder's previous frame is the one shown last
  · rcases h.previous with hnone | ⟨pre, s, rfl, hsv, rfl⟩
    · exact absurd (by rw [TileEncoder.sendFull, hnone]) hfull
    have hsize : s.source.sameSize picture.toRgbaFrame = true := by
      simpa [TileEncoder.sendFull, Link.showing] using hfull
    have htracks := h.tracks pre s [] rfl
    obtain ⟨c⟩ := exists_tileCodes hj picture hside
    obtain ⟨hw, hh⟩ := RgbaFrame.sameSize_iff.mp hsize
    obtain ⟨hcw, hch⟩ := RgbaFrame.sameSize_iff.mp htracks.size
    have hcs : s.canvas.sameSize picture.toRgbaFrame = true :=
      RgbaFrame.sameSize_iff.mpr ⟨hcw.trans hw, hch.trans hh⟩
    obtain ⟨hpv, hregion⟩ := c.patched_valid s.source htracks.valid hcs
    have henc := c.encode_delta ⟨.jpegTiles, some s.source⟩ rfl rfl hsv hsize monitorId
      frameId
    have hdec := c.decode_delta s.source ⟨some s.canvas⟩ rfl htracks.valid hcs
      monitorId frameId
    let s' : Shown := ⟨picture.toRgbaFrame, c.deltaMessage s.source monitorId frameId,
      c.patched s.source s.canvas⟩
    have hfeed : (Link.showing .jpegTiles s).feed jpeg (.frame monitorId frameId picture) =
        .ok (.showing .jpegTiles s', [s']) := by
      rw [Link.feed, Link.showing]
      dsimp only
      rw [henc, ok_bind]
      dsimp only
      rw [hdec]
      rfl
    refine ⟨s', rfl, hfeed, h.show (htracks.delta hsize rfl
      (RgbaFrame.sameSize_iff.mpr ⟨hcw.trans hw, hch.trans hh⟩) hpv fun rect hrect => ?_)
      picture.valid⟩
    have hnow := hregion rect hrect
    split_ifs at hnow ⊢ with hchanged
    · exact (c.roundTrip rect hrect).trans (congrArg _ hnow.symm)
    · exact hnow

theorem InStep.forceKeyframe (h : InStep jpeg link shown) :
    InStep jpeg { link with encoder := link.encoder.forceKeyframe } shown :=
  ⟨h.codec, h.tracks, Or.inl rfl⟩

theorem InStep.play (hj : jpeg.RoundTrips) (inputs : List Input) (h : InStep jpeg link shown) :
    ∃ link' new, link.play jpeg shown inputs = .ok (link', shown ++ new) ∧
      new.map Shown.source = Input.pictures inputs ∧ InStep jpeg link' (shown ++ new) := by
  induction inputs generalizing link shown with
  | nil => exact ⟨link, [], by simp [Link.play], rfl, by simpa using h⟩
  | cons input inputs ih =>
    cases input with
    | frame monitorId frameId picture =>
      obtain ⟨s, hsource, hfeed, hstep⟩ := h.feed_frame (hj.upTo 65535) monitorId frameId picture
        ⟨picture.width_le, picture.height_le⟩
      obtain ⟨link', new, hplay, hnew, hend⟩ := ih hstep
      rw [List.append_assoc] at hplay hend
      refine ⟨link', [s] ++ new, ?_, ?_, hend⟩
      · rw [Link.play, hfeed, ok_bind]
        exact hplay
      · rw [List.singleton_append, List.map_cons, hsource, hnew, Input.pictures]
    | forceKeyframe =>
      obtain ⟨link', new, hplay, hnew, hend⟩ := ih h.forceKeyframe
      refine ⟨link', new, ?_, hnew, hend⟩
      rw [Link.play, Link.feed, ok_bind]
      dsimp only
      rw [List.append_nil]
      exact hplay

theorem play_raw (link : Link) (shown : List Shown) (inputs : List Input)
    (hcodec : link.encoder.codec = .rawRgba) :
    ∃ link' new, link.play jpeg shown inputs = .ok (link', shown ++ new) ∧
      new.map Shown.source = Input.pictures inputs ∧ ∀ s ∈ new, s.canvas = s.source := by
  induction inputs generalizing link shown with
  | nil => exact ⟨link, [], by simp [Link.play], rfl, by simp⟩
  | cons input inputs ih =>
    cases input with
    | frame monitorId frameId picture =>
      obtain ⟨s, hsource, hexact, hfeed⟩ :=
        feed_raw jpeg picture hcodec monitorId frameId
      obtain ⟨link', new, hplay, hnew, hall⟩ :=
        ih (.showing .rawRgba s) (shown ++ [s]) rfl
      rw [List.append_assoc] at hplay
      refine ⟨link', [s] ++ new, ?_, ?_, ?_⟩
      · rw [Link.play, hfeed, ok_bind]
        exact hplay
      · rw [List.singleton_append, List.map_cons, hsource, hnew, Input.pictures]
      · intro x hx
        rcases List.mem_append.mp hx with hx | hx
        · rw [List.mem_singleton.mp hx]
          exact hexact
        · exact hall x hx
    | forceKeyframe =>
      obtain ⟨link', new, hplay, hnew, hall⟩ :=
        ih { link with encoder := link.encoder.forceKeyframe } shown hcodec
      refine ⟨link', new, ?_, hnew, hall⟩
      rw [Link.play, Link.feed, ok_bind]
      dsimp only
      rw [List.append_nil]
      exact hplay

/-- Whatever frames and forced keyframes go in, the decoder follows: with JPEG
tiles every tile shows a round trip of its own pixels, with raw frames the
canvas is the source. -/
theorem tile_codec_never_drifts (jpeg : Jpeg) (hj : jpeg.RoundTrips) (inputs : List Input) :
    (∃ link shown, (Link.new .jpegTiles).play jpeg [] inputs = .ok (link, shown) ∧
      shown.map Shown.source = Input.pictures inputs ∧
      ∀ pre s post, shown = pre ++ s :: post → Tracks jpeg pre s) ∧
    ∃ link shown, (Link.new .rawRgba).play jpeg [] inputs = .ok (link, shown) ∧
      shown.map Shown.source = Input.pictures inputs ∧ ∀ s ∈ shown, s.canvas = s.source := by
  constructor
  · have hstart : InStep jpeg (.new .jpegTiles) [] := by
      refine ⟨rfl, fun pre s post hsplit => ?_, Or.inl rfl⟩
      cases pre <;> cases hsplit
    obtain ⟨link, shown, hplay, hsources, hend⟩ := hstart.play hj inputs
    exact ⟨link, shown, hplay, hsources, hend.tracks⟩
  · exact play_raw _ _ inputs rfl

/-- An encoder that stores the pixels: on uniform mid-grey pictures the library
is lossless too. -/
def greyJpeg : Jpeg where
  encode rgba w h :=
    if rgba.length < 4 * w.toNat * h.toNat then .error "image data is too short"
    else .ok (rgba.take (4 * w.toNat * h.toNat))
  decode bytes := .ok bytes

theorem greyJpeg_roundTrips : greyJpeg.RoundTrips := by
  constructor
  · intro rgba w h _ _ hlen
    refine ⟨rgba, rgba, ?_, rfl, hlen⟩
    rw [greyJpeg]
    dsimp only
    rw [if_neg (by omega), ← hlen, List.take_length]
  · intro rgba w h bytes hw hh henc
    simp only [greyJpeg] at henc
    split_ifs at henc
    cases henc
    have hsize : 4 * w.toNat * h.toNat ≤ 4 * 64 * 64 :=
      Nat.mul_le_mul (Nat.mul_le_mul_left 4 hw) hh
    rw [List.length_take]
    omega

def greyPicture : Picture where
  width := 2
  height := 1
  data := [128, 128, 128, 255, 128, 128, 128, 255]
  width_pos := by decide
  width_le := by decide
  height_pos := by decide
  height_le := by decide
  valid := rfl

def darkPicture : Picture :=
  { greyPicture with
    data := [64, 64, 64, 255, 128, 128, 128, 255]
    valid := rfl }

def tallPicture : Picture where
  width := 1
  height := 2
  data := [64, 64, 64, 255, 128, 128, 128, 255]
  width_pos := by decide
  width_le := by decide
  height_pos := by decide
  height_le := by decide
  valid := rfl

def changeAndResize : List Input :=
  [.frame 0 0 greyPicture, .frame 0 1 darkPicture, .frame 0 2 tallPicture]

theorem tile_codec_never_drifts_grey :
    (∃ link shown, (Link.new .jpegTiles).play greyJpeg [] changeAndResize = .ok (link, shown) ∧
      shown.map Shown.source =
        [greyPicture.toRgbaFrame, darkPicture.toRgbaFrame, tallPicture.toRgbaFrame] ∧
      ∀ pre s post, shown = pre ++ s :: post → Tracks greyJpeg pre s) ∧
    ∃ link shown, (Link.new .rawRgba).play greyJpeg [] changeAndResize = .ok (link, shown) ∧
      shown.map Shown.source =
        [greyPicture.toRgbaFrame, darkPicture.toRgbaFrame, tallPicture.toRgbaFrame] ∧
      ∀ s ∈ shown, s.canvas = s.source :=
  tile_codec_never_drifts greyJpeg greyJpeg_roundTrips changeAndResize

end Controlis.Codec
