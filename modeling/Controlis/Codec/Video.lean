import Controlis.Codec.H264
import Controlis.Foundation.Runs

/-!
# One encoder and one decoder for every codec

A session's `VideoEncoder` is one of two encoders. `VideoDecoder` looks at the
codec of each message and hands it to one of two decoders, made when they are
first needed. Each of them sees its own messages only, as if there were no others.
-/

namespace Controlis.Codec
open Checked Protocol Runs

structure VideoDecoder (lib : OpenH264) where
  tiles : Option TileDecoder
  h264 : Option (H264Decoder lib)

def VideoDecoder.new (lib : OpenH264) : VideoDecoder lib := ⟨none, none⟩

def H264Decoder.new (lib : OpenH264) : Outcome VideoError (H264Decoder lib) :=
  match lib.newDecoder with
  | .error e => fail (.h264 e)
  | .ok decoder => .ok ⟨decoder, none⟩

def asVideo {α : Type} : Result α → Outcome VideoError (Option α)
  | .error (.fault f) => .error (.fault f)
  | .error (.error e) => fail (.codec e)
  | .ok x => .ok (some x)

variable {lib : OpenH264}

inductive VideoEncoder (lib : OpenH264)
  | tiles (enc : TileEncoder)
  | h264 (enc : lib.Encoder)

def VideoEncoder.new (lib : OpenH264) (enabled : Bool) (codec : VideoCodec) (maxFps : UInt32) :
    Outcome VideoError (VideoEncoder lib) :=
  match codec with
  | .h264 =>
    if enabled then
      match lib.newEncoder maxFps with
      | .error e => fail (.h264 e)
      | .ok enc => .ok (.h264 enc)
    else fail (.codec (.unsupportedCodec codec))
  | .rawRgba => .ok (.tiles (.new codec))
  | .jpegTiles => .ok (.tiles (.new codec))

def VideoEncoder.forceKeyframe : VideoEncoder lib → VideoEncoder lib
  | .tiles enc => .tiles enc.forceKeyframe
  | .h264 enc => .h264 (lib.forceIntraFrame enc)

def VideoEncoder.encode (jpeg : Jpeg) (enc : VideoEncoder lib) (monitorId : UInt32)
    (frameId : UInt64) (frame : RgbaFrame) :
    VideoEncoder lib × Outcome VideoError (Option ScreenFrame) :=
  match enc with
  | .tiles enc =>
    match enc.encode jpeg monitorId frameId frame with
    | .error stop => (.tiles enc, asVideo (.error stop))
    | .ok (message, enc) => (.tiles enc, asVideo (.ok message))
  | .h264 enc =>
    let r := lib.encodeFrame enc monitorId frameId frame
    (.h264 r.1, r.2)

def VideoDecoder.decodeTiles (jpeg : Jpeg) (dec : VideoDecoder lib) (message : ScreenFrame) :
    VideoDecoder lib × Outcome VideoError (Option RgbaFrame) :=
  let r := (dec.tiles.getD .new).decode jpeg message
  ({ dec with tiles := some r.1 }, asVideo r.2)

def VideoDecoder.decodeH264 (dec : VideoDecoder lib) (payload : List UInt8) :
    VideoDecoder lib × Outcome VideoError (Option RgbaFrame) :=
  match dec.h264 with
  | some h264 =>
    let r := h264.decode payload
    ({ dec with h264 := some r.1 }, r.2)
  | none =>
    match H264Decoder.new lib with
    | .error stop => (dec, .error stop)
    | .ok h264 =>
      let r := h264.decode payload
      ({ dec with h264 := some r.1 }, r.2)

def VideoDecoder.decode (jpeg : Jpeg) (enabled : Bool) (dec : VideoDecoder lib)
    (message : ScreenFrame) : VideoDecoder lib × Outcome VideoError (Option RgbaFrame) :=
  match message.codec with
  | .h264 =>
    if enabled then dec.decodeH264 message.payload
    else (dec, fail (.codec (.unsupportedCodec message.codec)))
  | .rawRgba => dec.decodeTiles jpeg message
  | .jpegTiles => dec.decodeTiles jpeg message

def VideoDecoder.after (jpeg : Jpeg) (enabled : Bool) (dec : VideoDecoder lib)
    (messages : List Received) : VideoDecoder lib :=
  messages.foldl (fun dec message => (dec.decode jpeg enabled message.toScreenFrame).1) dec

def Received.isH264 (message : Received) : Bool := message.codec = .h264

def tileMessages (messages : List Received) : List Received := messages.filter (!·.isH264)

def h264Payloads (messages : List Received) : List (List UInt8) :=
  (messages.filter Received.isH264).map (·.payload)

def OpenH264.feed (lib : OpenH264) (dec : lib.Decoder) (payloads : List (List UInt8)) :
    lib.Decoder :=
  payloads.foldl (fun dec payload => (lib.decode dec payload).1) dec

def h264Alone (lib : OpenH264) (enabled : Bool) (before : List (List UInt8))
    (payload : List UInt8) : Outcome VideoError (Option RgbaFrame) :=
  if enabled then
    match lib.newDecoder with
    | .error e => fail (.h264 e)
    | .ok decoder => outcome (lib.decode (lib.feed decoder before) payload).2
  else fail (.codec (.unsupportedCodec .h264))

variable {jpeg : Jpeg} {enabled : Bool} {dec : VideoDecoder lib} {before : List (List UInt8)}

theorem encodeFrame_labels {enc : lib.Encoder} {monitorId : UInt32} {frameId : UInt64}
    {frame : RgbaFrame} {message : ScreenFrame}
    (h : (lib.encodeFrame enc monitorId frameId frame).2 = .ok (some message)) :
    message.monitorId = monitorId ∧ message.frameId = frameId := by
  rw [OpenH264.encodeFrame] at h
  cases hpicture : evenPicture frame with
  | error stop =>
    rw [hpicture] at h
    cases h
  | ok data =>
    rw [hpicture] at h
    dsimp only at h
    rcases hencode : lib.encode enc data (evenDown frame.width).toNat (evenDown frame.height).toNat
      with ⟨next, e | payload⟩
    · rw [hencode] at h
      cases h
    · rw [hencode] at h
      cases payload with
      | nil => cases h
      | cons byte payload =>
        cases h
        exact ⟨rfl, rfl⟩

theorem VideoEncoder.encode_labels {enc : VideoEncoder lib} {monitorId : UInt32} {frameId : UInt64}
    {frame : RgbaFrame} {message : ScreenFrame}
    (h : (enc.encode jpeg monitorId frameId frame).2 = .ok (some message)) :
    message.monitorId = monitorId ∧ message.frameId = frameId := by
  cases enc with
  | h264 enc => exact encodeFrame_labels h
  | tiles enc =>
    rw [VideoEncoder.encode] at h
    cases hencode : enc.encode jpeg monitorId frameId frame with
    | error stop =>
      rw [hencode] at h
      rcases stop with f | e <;> cases h
    | ok r =>
      rw [hencode] at h
      cases h
      obtain ⟨-, hlabels, -⟩ := Codec.encode_labels hencode
      exact ⟨hlabels.monitorId, hlabels.frameId⟩

/-- The decoder where the tile decoder saw `tiles` and the H.264 decoder the payloads `before`. -/
structure Parted (jpeg : Jpeg) (enabled : Bool) (tiles : List Received)
    (before : List (List UInt8)) (dec : VideoDecoder lib) : Prop where
  tiles : dec.tiles.getD .new = TileDecoder.new.after jpeg tiles
  absent : dec.h264 = none → enabled = true → ∀ decoder, lib.newDecoder = .ok decoder → before = []
  present : ∀ h264, dec.h264 = some h264 → enabled = true ∧
    (∀ c, h264.canvas = some c → Sound c) ∧
    ∃ decoder, lib.newDecoder = .ok decoder ∧ h264.decoder = lib.feed decoder before

variable {tiles : List Received}

theorem parted_new : Parted jpeg enabled [] [] (.new lib) where
  tiles := rfl
  absent _ _ _ _ := rfl
  present h264 h := by cases h

theorem decode_tiles {message : Received} (h : message.isH264 = false) :
    dec.decode jpeg enabled message.toScreenFrame = dec.decodeTiles jpeg message.toScreenFrame := by
  rw [VideoDecoder.decode]
  cases hcodec : message.codec with
  | h264 => simp [Received.isH264, hcodec] at h
  | rawRgba => rfl
  | jpegTiles => rfl

theorem decode_h264 {message : Received} (h : message.isH264 = true) :
    dec.decode jpeg enabled message.toScreenFrame =
      if enabled then dec.decodeH264 message.payload
      else (dec, fail (.codec (.unsupportedCodec .h264))) := by
  have hcodec : message.codec = .h264 := by simpa [Received.isH264] using h
  rw [VideoDecoder.decode, hcodec]

theorem Parted.tile (h : Parted jpeg enabled tiles before dec) {message : Received}
    (hmessage : message.isH264 = false) :
    Parted jpeg enabled (tiles ++ [message]) before
        (dec.decode jpeg enabled message.toScreenFrame).1 ∧
      (dec.decode jpeg enabled message.toScreenFrame).2 =
        asVideo ((TileDecoder.new.after jpeg tiles).decode jpeg message.toScreenFrame).2 := by
  rw [decode_tiles hmessage, VideoDecoder.decodeTiles, h.tiles]
  refine ⟨⟨?_, h.absent, h.present⟩, rfl⟩
  simp only [TileDecoder.after, run_snoc]
  rfl

theorem feed_snoc (decoder : lib.Decoder) (payload : List UInt8) :
    lib.feed decoder (before ++ [payload]) = (lib.decode (lib.feed decoder before) payload).1 := by
  rw [OpenH264.feed, List.foldl_append]
  rfl

theorem Parted.fed (hlib : lib.WellBehaved) (henabled : enabled = true)
    (h : Parted jpeg enabled tiles before dec) {h264 : H264Decoder lib} {decoder : lib.Decoder}
    (hnew : lib.newDecoder = .ok decoder) (hdecoder : h264.decoder = lib.feed decoder before)
    (hcanvas : ∀ c, h264.canvas = some c → Sound c) (payload : List UInt8) :
    Parted jpeg enabled tiles (before ++ [payload])
        { dec with h264 := some (h264.decode payload).1 } ∧
      (h264.decode payload).2 = h264Alone lib enabled before payload := by
  obtain ⟨hresult, hnext, hsound⟩ := h264_decode_eq hlib hcanvas payload
  refine ⟨⟨h.tiles, fun hno => (by cases hno), fun h264' h' => ?_⟩, ?_⟩
  · cases h'
    exact ⟨henabled, hsound, decoder, hnew, by rw [hnext, hdecoder, feed_snoc]⟩
  · rw [hresult, hdecoder, h264Alone, if_pos henabled, hnew]

theorem Parted.h264 (hlib : lib.WellBehaved) (h : Parted jpeg enabled tiles before dec)
    {message : Received} (hmessage : message.isH264 = true) :
    Parted jpeg enabled tiles (before ++ [message.payload])
        (dec.decode jpeg enabled message.toScreenFrame).1 ∧
      (dec.decode jpeg enabled message.toScreenFrame).2 =
        h264Alone lib enabled before message.payload := by
  rw [decode_h264 hmessage]
  split_ifs with henabled
  · rw [VideoDecoder.decodeH264]
    cases hdec : dec.h264 with
    | some h264 =>
      obtain ⟨-, hcanvas, decoder, hnew, hdecoder⟩ := h.present h264 hdec
      exact h.fed hlib henabled hnew hdecoder hcanvas message.payload
    -- the first H.264 message: nothing was fed yet, unless no decoder could be made for it
    | none =>
      dsimp only
      cases hnew : lib.newDecoder with
      | error e =>
        rw [H264Decoder.new, hnew]
        refine ⟨⟨h.tiles, fun _ _ decoder hok => ?_, fun h264 hsome => ?_⟩, ?_⟩
        · rw [hnew] at hok
          cases hok
        · exact absurd (hdec.symm.trans hsome) (by simp)
        · rw [h264Alone, if_pos henabled, hnew]
          rfl
      | ok decoder =>
        have hbefore := h.absent hdec henabled decoder hnew
        rw [H264Decoder.new, hnew]
        apply h.fed hlib henabled hnew
        · rw [hbefore]
          rfl
        · simp
  · refine ⟨⟨h.tiles, fun _ hno => absurd hno henabled, fun h264 hsome => ?_⟩, ?_⟩
    · exact absurd (h.present h264 hsome).1 henabled
    · rw [h264Alone, if_neg henabled]

theorem parted_after (hlib : lib.WellBehaved) (messages : List Received) :
    Parted jpeg enabled (tileMessages messages) (h264Payloads messages)
      ((VideoDecoder.new lib).after jpeg enabled messages) := by
  induction messages using List.reverseRecOn with
  | nil => exact parted_new
  | append_singleton messages message ih =>
    rw [VideoDecoder.after, run_snoc]
    cases hmessage : message.isH264 with
    | true =>
      have hnext := (ih.h264 hlib hmessage).1
      simpa [tileMessages, h264Payloads, List.filter_append, hmessage, VideoDecoder.after]
        using hnext
    | false =>
      have hnext := (ih.tile hmessage).1
      simpa [tileMessages, h264Payloads, List.filter_append, hmessage, VideoDecoder.after]
        using hnext

/-- The tile messages are harmless where they arrive, the others left out. -/
def HarmlessTiles (jpeg : Jpeg) (messages : List Received) : Prop :=
  ∀ pre message post, tileMessages messages = pre ++ message :: post →
    Harmless jpeg (TileDecoder.new.after jpeg pre) message.toScreenFrame

theorem noFault_asVideo {r : Result RgbaFrame} (h : NoFault r) : NoFault (asVideo r) := by
  rcases r with (f | e) | canvas
  · exact absurd rfl (h f)
  · exact noFault_fail _
  · exact noFault_ok _

theorem h264Alone_safe (hlib : lib.WellBehaved) (payload : List UInt8) :
    NoFault (h264Alone lib enabled before payload) ∧
      ∀ c, h264Alone lib enabled before payload = .ok (some c) → c.Valid := by
  rw [h264Alone]
  split_ifs
  · cases lib.newDecoder with
    | error e => exact ⟨noFault_fail _, fun c hc => by cases hc⟩
    | ok decoder =>
      have hyuv := hlib (lib.feed decoder before) payload
      dsimp only
      generalize (lib.decode (lib.feed decoder before) payload).2 = result at hyuv
      rcases result with e | _ | yuv
      · exact ⟨noFault_fail _, fun c hc => by cases hc⟩
      · exact ⟨noFault_ok _, fun c hc => by cases hc⟩
      · refine ⟨noFault_ok _, fun c hc => ?_⟩
        cases hc
        exact (hyuv yuv rfl).sound.valid
  · exact ⟨noFault_fail _, fun c hc => by cases hc⟩

theorem decode_returns_canvas {dec dec' : TileDecoder} {message : ScreenFrame} {canvas : RgbaFrame}
    (h : dec.decode jpeg message = (dec', .ok canvas)) : dec'.canvas = some canvas := by
  rw [TileDecoder.decode] at h
  rcases hstep : dec.accept jpeg message with ⟨next, stop | u⟩
  · rw [hstep] at h
    cases h
  · rw [hstep] at h
    dsimp only at h
    cases hcanvas : next.canvas with
    | none =>
      rw [hcanvas] at h
      cases h
    | some c =>
      rw [hcanvas] at h
      cases h
      exact hcanvas

theorem asVideo_ok {r : Result RgbaFrame} {canvas : RgbaFrame}
    (h : asVideo r = .ok (some canvas)) : r = .ok canvas := by
  rcases r with (f | e) | c
  · cases h
  · cases h
  · cases h
    rfl

/-- Whatever has arrived, each decoder answers as if it were alone with its own messages. What is
shown for an H.264 message is as large as it says, and so it is for a tile message if the tile
messages were harmless. -/
theorem video_decoders_do_not_mix (jpeg : Jpeg) (lib : OpenH264) (hlib : lib.WellBehaved)
    (enabled : Bool) (before : List Received) (message : Received) :
    let result := (((VideoDecoder.new lib).after jpeg enabled before).decode jpeg enabled
      message.toScreenFrame).2
    (result = if message.codec = .h264 then
        h264Alone lib enabled (h264Payloads before) message.payload
      else asVideo ((TileDecoder.new.after jpeg (tileMessages before)).decode jpeg
        message.toScreenFrame).2) ∧
    (message.codec = .h264 ∨ HarmlessTiles jpeg (before ++ [message]) →
      NoFault result ∧ ∀ canvas, result = .ok (some canvas) → canvas.Valid) := by
  have hparted : Parted jpeg enabled (tileMessages before) (h264Payloads before)
      ((VideoDecoder.new lib).after jpeg enabled before) := parted_after hlib before
  cases hmessage : message.isH264 with
  | true =>
    have hcodec : message.codec = .h264 := by simpa [Received.isH264] using hmessage
    have hresult := (hparted.h264 hlib hmessage).2
    dsimp only
    rw [if_pos hcodec, hresult]
    exact ⟨rfl, fun _ => h264Alone_safe hlib message.payload⟩
  | false =>
    have hcodec : message.codec ≠ .h264 := by simpa [Received.isH264] using hmessage
    have hresult := (hparted.tile hmessage).2
    dsimp only
    rw [if_neg hcodec, hresult]
    refine ⟨rfl, fun h => ?_⟩
    have htiles := h.resolve_left hcodec
    -- what is harmless is said of the tile messages alone, and this is the last of them
    have hown : tileMessages (before ++ [message]) = tileMessages before ++ [message] := by
      simp [tileMessages, List.filter_append, hmessage]
    have hsound : (TileDecoder.new.after jpeg (tileMessages before)).Sound := by
      refine after_sound _ (fun canvas hc => by cases hc) fun pre m post hpre => ?_
      exact htiles pre m (post ++ [message]) (by simp [hown, hpre])
    obtain ⟨hsafe, hnext⟩ := decode_step hsound message (htiles _ _ _ hown)
    refine ⟨noFault_asVideo hsafe.noFault, fun canvas hc => ?_⟩
    exact hsafe.valid canvas (decode_returns_canvas (Prod.ext rfl (asVideo_ok hc)))

def greyPixels : List UInt8 := [7, 7, 7, 255, 7, 7, 7, 255, 7, 7, 7, 255, 7, 7, 7, 255]

def sampleOpenH264 : OpenH264 where
  Encoder := Unit
  Decoder := Bool
  newEncoder _ := .ok ()
  forceIntraFrame := id
  encode enc _ _ _ := (enc, .ok [])
  newDecoder := .ok false
  decode ready payload :=
    if payload = [0, 0, 0, 1, 103] then (true, .ok none)
    else if ready ∧ payload = [0, 0, 0, 1, 101] then (ready, .ok (some ⟨2, 2, greyPixels⟩))
    else (ready, .error "Native:16")

theorem sampleOpenH264_wellBehaved : sampleOpenH264.WellBehaved := by
  intro ready payload yuv h
  simp only [sampleOpenH264] at h
  split_ifs at h
  · cases h
  · cases h
    exact ⟨by decide, by decide, rfl, by decide⟩

def h264Sample (payload : List UInt8) (h : payload.length < 2 ^ 63) : Received :=
  ⟨⟨0, 0, .h264, .full, 2, 2, [], payload⟩, h⟩

def parameterSets : Received := h264Sample [0, 0, 0, 1, 103] (by decide)

def keyframe : Received := h264Sample [0, 0, 0, 1, 101] (by decide)

def rawPixel : Received := ⟨rawFrame 1 1 blackPixel.data, by decide⟩

theorem video_decoders_do_not_mix_sample :
    (((VideoDecoder.new sampleOpenH264).after pixelJpeg true [parameterSets, rawPixel]).decode
      pixelJpeg true keyframe.toScreenFrame).2 = .ok (some ⟨2, 2, greyPixels⟩) ∧
    NoFault (((VideoDecoder.new sampleOpenH264).after pixelJpeg true [keyframe]).decode pixelJpeg
      true rawPixel.toScreenFrame).2 := by
  have hharmless : HarmlessTiles pixelJpeg [keyframe, rawPixel] := by
    intro pre message post hsplit
    have hown : tileMessages [keyframe, rawPixel] = [rawPixel] := rfl
    rw [hown] at hsplit
    rcases pre with _ | ⟨first, pre⟩
    · cases hsplit
      exact fun _ => by decide
    · cases pre <;> cases hsplit
  have hkeyframe := video_decoders_do_not_mix pixelJpeg sampleOpenH264 sampleOpenH264_wellBehaved
    true [parameterSets, rawPixel] keyframe
  have hraw := video_decoders_do_not_mix pixelJpeg sampleOpenH264 sampleOpenH264_wellBehaved
    true [keyframe] rawPixel
  exact ⟨hkeyframe.1, (hraw.2 (.inr hharmless)).1⟩

end Controlis.Codec
