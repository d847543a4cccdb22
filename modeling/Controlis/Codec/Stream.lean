import Controlis.Codec.Replay

/-!
# A stream of captured frames

What the encoder makes of any frame a screen can deliver. The sides of a frame
are cut to 16 bits for the JPEG library: a side of 65536 pixels becomes empty
and the library refuses it. The library that decodes takes sides of up to 16384
pixels, and the frames that fit go through to a decoder in step. The decoder is
fed message by message.
-/

namespace Controlis.Codec
open Checked Protocol

structure Screenshot extends RgbaFrame where
  valid : toRgbaFrame.Valid
  allocated : data.length < 2 ^ 63

def Jpeg.RefusesEmpty (jpeg : Jpeg) : Prop :=
  ∀ rgba w h, w = 0 ∨ h = 0 → ∃ e, jpeg.encode rgba w h = .error e

/-- `DecoderOptions::default()` decodes no picture that is wider or higher. -/
def maxSide : ℕ := 16384

/-- The sides are within the limit, or the library is told that one is empty. -/
def RgbaFrame.Fits (f : RgbaFrame) : Prop :=
  (f.width.toNat ≤ maxSide ∧ f.height.toNat ≤ maxSide) ∨ f.width.toUInt16 = 0 ∨
    f.height.toUInt16 = 0

instance (f : RgbaFrame) : Decidable f.Fits :=
  inferInstanceAs (Decidable (_ ∨ _))

def decodeStep (jpeg : Jpeg) (state : TileDecoder × List RgbaFrame) (message : ScreenFrame) :
    Result (TileDecoder × List RgbaFrame) :=
  match state.1.decode jpeg message with
  | (dec, result) => do
    let canvas ← result
    .ok (dec, state.2 ++ [canvas])

def decodeAll (jpeg : Jpeg) (messages : List ScreenFrame) :
    Result (TileDecoder × List RgbaFrame) :=
  messages.foldlM (decodeStep jpeg) (.new, [])

def Shows (jpeg : Jpeg) (codec : VideoCodec) (pre : List Shown) (s : Shown) : Prop :=
  match codec with
  | .jpegTiles => Tracks jpeg pre s
  | .rawRgba => s.canvas = s.source
  | .h264 => False

/-- The encoder compares with the frame shown last, or starts over. -/
structure Synced (jpeg : Jpeg) (enc : TileEncoder) (dec : TileDecoder) (shown : List Shown) :
    Prop where
  shows : ∀ pre s post, shown = pre ++ s :: post → Shows jpeg enc.codec pre s
  previous : ∀ prev, enc.previous = some prev → enc.codec ≠ .h264 ∧
    ∃ pre s, shown = pre ++ [s] ∧ s.source = prev ∧ prev.Valid ∧ dec.canvas = some s.canvas ∧
      (enc.codec = .jpegTiles → prev.width.toUInt16 ≠ 0 ∧ prev.height.toUInt16 ≠ 0)

variable {jpeg : Jpeg} {enc enc' : TileEncoder} {dec : TileDecoder} {shown : List Shown}
  {frame : RgbaFrame} {message : ScreenFrame} {monitorId : UInt32} {frameId : UInt64}

theorem decodeAll_snoc {messages : List ScreenFrame} {canvases : List RgbaFrame}
    {dec' : TileDecoder} {canvas : RgbaFrame} (h : decodeAll jpeg messages = .ok (dec, canvases))
    (hdecode : dec.decode jpeg message = (dec', .ok canvas)) :
    decodeAll jpeg (messages ++ [message]) = .ok (dec', canvases ++ [canvas]) := by
  rw [decodeAll, List.foldlM_append]
  rw [decodeAll] at h
  rw [h, ok_bind, List.foldlM_cons, decodeStep, hdecode]
  rfl

structure Labels (message : ScreenFrame) (codec : VideoCodec) (monitorId : UInt32)
    (frameId : UInt64) (frame : RgbaFrame) : Prop where
  codec : message.codec = codec
  monitorId : message.monitorId = monitorId
  frameId : message.frameId = frameId
  width : message.widthPx = frame.width
  height : message.heightPx = frame.height

theorem encodeFull_labels (h : enc.encodeFull jpeg monitorId frameId frame = .ok message) :
    Labels message enc.codec monitorId frameId frame ∧ message.encoding = .full := by
  rw [TileEncoder.encodeFull] at h
  split at h
  · cases h
    exact ⟨⟨rfl, rfl, rfl, rfl, rfl⟩, rfl⟩
  · obtain ⟨payload, -, h⟩ := bind_ok h
    cases h
    exact ⟨⟨rfl, rfl, rfl, rfl, rfl⟩, rfl⟩
  · cases h

theorem encodeDelta_labels (h : enc.encodeDelta jpeg monitorId frameId frame = .ok message) :
    Labels message enc.codec monitorId frameId frame := by
  rw [TileEncoder.encodeDelta] at h
  split at h
  · cases h
  · obtain ⟨rects, -, h⟩ := bind_ok h
    obtain ⟨out, -, h⟩ := bind_ok h
    cases h
    exact ⟨rfl, rfl, rfl, rfl, rfl⟩

theorem encode_labels (h : enc.encode jpeg monitorId frameId frame = .ok (message, enc')) :
    enc' = { enc with previous := some frame } ∧ Labels message enc.codec monitorId frameId frame ∧
      (message.encoding = .tileDelta → enc.sendFull frame = false) := by
  rw [TileEncoder.encode] at h
  split_ifs at h with hfull
  · obtain ⟨body, hbody, h⟩ := bind_ok h
    cases h
    obtain ⟨hlabels, hencoding⟩ := encodeFull_labels hbody
    refine ⟨rfl, hlabels, fun hdelta => ?_⟩
    have hfull := hencoding.symm.trans hdelta
    cases hfull
  · obtain ⟨body, hbody, h⟩ := bind_ok h
    cases h
    rw [Bool.or_eq_true, not_or] at hfull
    exact ⟨rfl, encodeDelta_labels hbody, fun _ => Bool.eq_false_iff.mpr hfull.1⟩

theorem feed_ok {link : Link} {picture : Picture} {codec : VideoCodec} {s : Shown}
    (h : link.feed jpeg (.frame monitorId frameId picture) = .ok (.showing codec s, [s])) :
    link.encoder.encode jpeg monitorId frameId picture.toRgbaFrame =
        .ok (s.message, ⟨codec, some picture.toRgbaFrame⟩) ∧
      link.decoder.decode jpeg s.message = (⟨some s.canvas⟩, .ok s.canvas) := by
  rw [Link.feed] at h
  obtain ⟨⟨message, encoder⟩, hencode, h⟩ := bind_ok h
  dsimp only at h
  cases hdecode : link.decoder.decode jpeg message with
  | mk decoder result =>
    rw [hdecode] at h
    dsimp only at h
    obtain ⟨canvas, rfl, h⟩ := bind_ok h
    cases h
    exact ⟨hencode, hdecode⟩

def GoesThrough (jpeg : Jpeg) (enc : TileEncoder) (dec : TileDecoder) (shown : List Shown)
    (monitorId : UInt32) (frameId : UInt64) (frame : RgbaFrame) : Prop :=
  (∃ stop, enc.encode jpeg monitorId frameId frame = .error stop) ∨
    ∃ s, s.source = frame ∧
      enc.encode jpeg monitorId frameId frame = .ok (s.message, ⟨enc.codec, some frame⟩) ∧
      dec.decode jpeg s.message = (⟨some s.canvas⟩, .ok s.canvas) ∧
      Synced jpeg ⟨enc.codec, some frame⟩ ⟨some s.canvas⟩ (shown ++ [s])

theorem Synced.extend {s : Shown} {codec : VideoCodec} (h : Synced jpeg enc dec shown)
    (hcodec : enc.codec = codec) (hh264 : codec ≠ .h264) (hs : Shows jpeg codec shown s)
    (hv : s.source.Valid)
    (hsides : codec = .jpegTiles →
      s.source.width.toUInt16 ≠ 0 ∧ s.source.height.toUInt16 ≠ 0) :
    Synced jpeg ⟨codec, some s.source⟩ ⟨some s.canvas⟩ (shown ++ [s]) := by
  refine ⟨fun pre x post hsplit => ?_, fun prev hprev => ⟨hh264, shown, s, rfl, ?_⟩⟩
  · rcases split_last hsplit with ⟨-, rfl, rfl⟩ | ⟨rest, -, hold⟩
    · exact hs
    · exact hcodec ▸ h.shows pre x rest hold
  · cases hprev
    exact ⟨rfl, hv, rfl, hsides⟩

theorem Synced.inStep (h : Synced jpeg enc dec shown) (hcodec : enc.codec = .jpegTiles) :
    InStep jpeg ⟨enc, dec⟩ shown := by
  refine ⟨hcodec, fun pre s post hsplit => ?_, ?_⟩
  · have hshows := h.shows pre s post hsplit
    rwa [hcodec] at hshows
  · cases hprev : enc.previous with
    | none => exact .inl rfl
    | some prev =>
      obtain ⟨-, pre, s, hshown, rfl, hv, hcanvas, -⟩ := h.previous prev hprev
      refine .inr ⟨pre, s, hshown, hv, ?_⟩
      obtain ⟨codec, previous⟩ := enc
      obtain ⟨canvas⟩ := dec
      simp only at hcodec hprev hcanvas
      rw [hcodec, hprev, hcanvas]
      rfl

theorem Synced.sendFull_of_empty (h : Synced jpeg enc dec shown) (hcodec : enc.codec = .jpegTiles)
    (hempty : frame.width.toUInt16 = 0 ∨ frame.height.toUInt16 = 0) :
    enc.sendFull frame = true := by
  rw [TileEncoder.sendFull]
  cases hprev : enc.previous with
  | none => rfl
  | some prev =>
    obtain ⟨-, pre, s, -, -, -, -, hsides⟩ := h.previous prev hprev
    obtain ⟨hwidth, hheight⟩ := hsides hcodec
    simp only [Bool.not_eq_true', Bool.eq_false_iff]
    intro hsame
    obtain ⟨hw, hh⟩ := RgbaFrame.sameSize_iff.mp hsame
    rcases hempty with hzero | hzero
    · exact hwidth (hw ▸ hzero)
    · exact hheight (hh ▸ hzero)

theorem Synced.goes_jpeg (hj : jpeg.RoundTripsTo maxSide) (he : jpeg.RefusesEmpty)
    (h : Synced jpeg enc dec shown) (hcodec : enc.codec = .jpegTiles) (shot : Screenshot)
    (hfits : shot.Fits) :
    GoesThrough jpeg enc dec shown monitorId frameId shot.toRgbaFrame := by
  by_cases hempty : shot.width.toUInt16 = 0 ∨ shot.height.toUInt16 = 0
  · obtain ⟨e, hrefused⟩ := he shot.data shot.width.toUInt16 shot.height.toUInt16 hempty
    refine .inl ⟨.error (.jpegEncode e), ?_⟩
    rw [TileEncoder.encode, h.sendFull_of_empty hcodec hempty, Bool.true_or, if_pos rfl,
      TileEncoder.encodeFull, hcodec]
    dsimp only
    rw [encodeJpeg, hrefused]
    rfl
  · obtain ⟨hwidth, hheight⟩ := hfits.resolve_right hempty
    have hpos {n : UInt32} (hn : n.toUInt16 ≠ 0) : 0 < n.toNat := by
      apply Nat.pos_of_ne_zero
      intro hzero
      obtain rfl : n = 0 := UInt32.toNat_inj.mp hzero
      exact hn rfl
    rw [not_or] at hempty
    let picture : Picture := ⟨shot.toRgbaFrame, hpos hempty.1, hwidth.trans (by decide),
      hpos hempty.2, hheight.trans (by decide), shot.valid⟩
    obtain ⟨s, hsource, hfeed, hstep⟩ :=
      (h.inStep hcodec).feed_frame hj monitorId frameId picture ⟨hwidth, hheight⟩
    obtain ⟨hencode, hdecode⟩ := feed_ok hfeed
    have hsource' : s.source = shot.toRgbaFrame := hsource
    refine .inr ⟨s, hsource', ?_, hdecode, ?_⟩
    · rw [hcodec]
      exact hencode
    · rw [← hsource', hcodec]
      refine h.extend hcodec (by simp) (hstep.tracks shown s [] rfl) ?_ fun _ => ?_
      · rw [hsource']
        exact shot.valid
      · rw [hsource']
        exact hempty

theorem Synced.goes_raw (h : Synced jpeg enc dec shown) (hcodec : enc.codec = .rawRgba)
    (shot : Screenshot) :
    GoesThrough jpeg enc dec shown monitorId frameId shot.toRgbaFrame := by
  let s : Shown := ⟨shot.toRgbaFrame, ⟨monitorId, frameId, .rawRgba, .full, shot.width,
    shot.height, [], shot.data⟩, shot.toRgbaFrame⟩
  have hlt : 4 * shot.width.toNat * shot.height.toNat < 2 ^ 64 := by
    have hvalid : shot.data.length = 4 * shot.width.toNat * shot.height.toNat := shot.valid
    have hallocated := shot.allocated
    omega
  refine .inr ⟨s, rfl, ?_, ?_, ?_⟩
  · rw [TileEncoder.encode, hcodec, if_pos (by simp), TileEncoder.encodeFull, hcodec]
    rfl
  · have hframe : fullFrame jpeg s.message = .ok s.canvas := new_ok shot.valid hlt
    rw [TileDecoder.decode, TileDecoder.accept]
    dsimp only [s] at hframe ⊢
    rw [hframe]
  · have hshows : Shows jpeg .rawRgba shown s := rfl
    rw [hcodec]
    refine h.extend hcodec (by simp) hshows shot.valid fun hjpeg => ?_
    cases hjpeg

/-- A video codec is never given to a tile encoder; it would refuse every frame. -/
theorem Synced.goes_h264 (h : Synced jpeg enc dec shown) (hcodec : enc.codec = .h264) :
    GoesThrough jpeg enc dec shown monitorId frameId frame := by
  have hnone : enc.previous = none := by
    cases hprev : enc.previous with
    | none => rfl
    | some prev => exact absurd hcodec (h.previous prev hprev).1
  refine .inl ⟨.error (.unsupportedCodec .h264), ?_⟩
  rw [TileEncoder.encode, TileEncoder.sendFull, hnone, Bool.true_or, if_pos rfl,
    TileEncoder.encodeFull, hcodec]
  rfl

theorem Synced.goesThrough (hj : jpeg.RoundTripsTo maxSide) (he : jpeg.RefusesEmpty)
    (h : Synced jpeg enc dec shown) (shot : Screenshot)
    (hfits : enc.codec = .jpegTiles → shot.Fits) :
    GoesThrough jpeg enc dec shown monitorId frameId shot.toRgbaFrame := by
  cases hcodec : enc.codec with
  | jpegTiles => exact h.goes_jpeg hj he hcodec shot (hfits hcodec)
  | rawRgba => exact h.goes_raw hcodec shot
  | h264 => exact h.goes_h264 hcodec

theorem Synced.forceKeyframe (h : Synced jpeg enc dec shown) :
    Synced jpeg enc.forceKeyframe dec shown :=
  ⟨h.shows, fun _ hprev => nomatch hprev⟩

theorem Synced.new (jpeg : Jpeg) (codec : VideoCodec) : Synced jpeg (.new codec) .new [] := by
  refine ⟨fun pre s post hsplit => ?_, fun _ hprev => nomatch hprev⟩
  cases pre <;> cases hsplit

def sideBytes (w h : UInt16) : List UInt8 :=
  [.ofNat (w.toNat / 256), .ofNat w.toNat, .ofNat (h.toNat / 256), .ofNat h.toNat]

def strictJpeg : Jpeg where
  encode rgba w h :=
    if w = 0 ∨ h = 0 then .error "image dimensions must be non-zero"
    else if rgba.length < 4 * w.toNat * h.toNat then .error "image data is too short"
    else .ok (sideBytes w h ++ rgba.take (4 * w.toNat * h.toNat))
  decode
    | w :: w' :: h :: h' :: pixels =>
      if maxSide < 256 * w.toNat + w'.toNat ∨ maxSide < 256 * h.toNat + h'.toNat then
        .error "image side is over the limit"
      else .ok pixels
    | _ => .error "no sides"

theorem strictJpeg_refusesEmpty : strictJpeg.RefusesEmpty :=
  fun _ _ _ hempty => ⟨_, if_pos hempty⟩

theorem strictJpeg_encode {rgba : List UInt8} {w h : UInt16} (hw : 0 < w.toNat) (hh : 0 < h.toNat)
    (hlen : rgba.length = 4 * w.toNat * h.toNat) :
    strictJpeg.encode rgba w h = .ok (sideBytes w h ++ rgba) := by
  have hsides : ¬ (w = 0 ∨ h = 0) := by
    rintro (rfl | rfl)
    · exact absurd hw (by decide)
    · exact absurd hh (by decide)
  rw [strictJpeg]
  dsimp only
  rw [if_neg hsides, if_neg (by omega), ← hlen, List.take_length]

theorem strictJpeg_decode (w h : UInt16) (pixels : List UInt8) :
    strictJpeg.decode (sideBytes w h ++ pixels) =
      if maxSide < w.toNat ∨ maxSide < h.toNat then .error "image side is over the limit"
      else .ok pixels := by
  have hside (n : UInt16) :
      256 * (UInt8.ofNat (n.toNat / 256)).toNat + (UInt8.ofNat n.toNat).toNat = n.toNat := by
    have hn := n.toNat_lt
    rw [UInt8.toNat_ofNat', UInt8.toNat_ofNat']
    omega
  simp only [strictJpeg, sideBytes, List.cons_append, List.nil_append, hside]

theorem strictJpeg_roundTrips : strictJpeg.RoundTripsTo maxSide := by
  constructor
  · intro rgba w h hw hw' hh hh' hlen
    refine ⟨sideBytes w h ++ rgba, rgba, strictJpeg_encode hw hh hlen, ?_, hlen⟩
    rw [strictJpeg_decode, if_neg (by omega)]
  · intro rgba w h bytes hw hh hencode
    have hsize : 4 * w.toNat * h.toNat ≤ 4 * tileSize * tileSize :=
      Nat.mul_le_mul (Nat.mul_le_mul_left 4 hw) hh
    simp only [strictJpeg] at hencode
    split_ifs at hencode
    cases hencode
    rw [List.length_append, List.length_take, sideBytes]
    simp only [tileSize, List.length_cons, List.length_nil] at hsize ⊢
    omega

def greyShot : Screenshot := ⟨greyPicture.toRgbaFrame, greyPicture.valid, by decide⟩

def wideShot : Screenshot where
  width := 16385
  height := 1
  data := List.replicate 65540 128
  valid := List.length_replicate
  allocated := by
    rw [List.length_replicate]
    decide

def wideMessage : ScreenFrame :=
  ⟨0, 0, .jpegTiles, .full, wideShot.width, wideShot.height, [], sideBytes 16385 1 ++ wideShot.data⟩

theorem encode_wide : (TileEncoder.new .jpegTiles).encode strictJpeg 0 0 wideShot.toRgbaFrame =
    .ok (wideMessage, ⟨.jpegTiles, some wideShot.toRgbaFrame⟩) := by
  have hencode : strictJpeg.encode wideShot.data 16385 1 =
      .ok (sideBytes 16385 1 ++ wideShot.data) :=
    strictJpeg_encode (by decide) (by decide) List.length_replicate
  have hjpeg : encodeJpeg strictJpeg wideShot.data wideShot.width wideShot.height =
      .ok (sideBytes 16385 1 ++ wideShot.data) := congrArg (lift CodecError.jpegEncode) hencode
  rw [TileEncoder.encode, TileEncoder.sendFull, TileEncoder.new]
  dsimp only
  rw [Bool.true_or, if_pos rfl, TileEncoder.encodeFull]
  dsimp only
  rw [hjpeg]
  rfl

theorem decodeAll_wide : decodeAll strictJpeg [wideMessage] =
    .error (.error (.jpegDecode "image side is over the limit")) := by
  have hdecode : decodeJpeg strictJpeg wideMessage.payload wideMessage.widthPx
      wideMessage.heightPx = fail (.jpegDecode "image side is over the limit") := by
    rw [decodeJpeg, wideMessage, strictJpeg_decode, if_pos (by decide)]
    rfl
  have hframe : fullFrame strictJpeg wideMessage =
      fail (.jpegDecode "image side is over the limit") := by
    rw [fullFrame]
    dsimp only [wideMessage] at hdecode ⊢
    rw [hdecode]
    rfl
  rw [decodeAll, List.foldlM_cons, decodeStep, TileDecoder.decode, TileDecoder.accept]
  dsimp only [wideMessage] at hframe ⊢
  rw [hframe]
  rfl

end Controlis.Codec
