import Controlis.Foundation.Mailbox
import Controlis.Session.CaptureLoop
import Controlis.Transport.Media

/-!
# From the captured screen to the canvas

The host's media task sends each message on a stream of its own; streams are
accepted in the order in which they were opened. The viewer's media task decodes
what it reads and puts the picture into the frame slot, and the frame pump takes
it from there for the webview, at its own pace.
-/

namespace Controlis.Viewer.Display
open Codec Protocol Session Transport Latest Checked Runs

/-- `streams`: opened by the host and not yet accepted. -/
structure Watching (lib : OpenH264) where
  host : CaptureLoop.State lib
  streams : List (List UInt8)
  decoder : VideoDecoder lib
  watching : Bool
  /-- The messages that were decoded. -/
  arrived : List ScreenFrame
  frames : Mailbox RgbaFrame
  pumping : Bool
  images : List (List UInt8)

inductive Event
  | host (e : CaptureLoop.Event)
  | sendMedia (stream : SendStream)
  | recvMedia (tooLong : String)
  | connectionLost
  | pump (sent : Bool)
  | stopFrames

variable {lib : OpenH264}

def start (lib : OpenH264) (codec : VideoCodec) (active : MonitorInfo) : Watching lib where
  host := CaptureLoop.start (.tiles (.new codec)) active
  streams := []
  decoder := .new lib
  watching := true
  arrived := []
  frames := .empty
  pumping := true
  images := []

def encodeRgbaToJpeg (jpeg : Jpeg) (frame : RgbaFrame) : Result (List UInt8) :=
  encodeJpeg jpeg frame.data frame.width frame.height

namespace Watching

def send (postcard : MediaPostcard) (d : Watching lib) (stream : SendStream) : Watching lib :=
  if d.host.receiverGone then d
  else
    match d.host.channel with
    | none => d
    | some message =>
      match sendMedia postcard stream message with
      | .ok bytes => { d with host := d.host.recv, streams := d.streams ++ [bytes] }
      | .error _ => { d with host := { d.host.recv with receiverGone := true } }

def decode (jpeg : Jpeg) (h264 : Bool) (d : Watching lib) (message : ScreenFrame) : Watching lib :=
  let (decoder, result) := d.decoder.decode jpeg h264 message
  let d := { d with decoder := decoder, arrived := d.arrived ++ [message] }
  match result with
  | .ok (some current) => { d with frames := d.frames.post current }
  | .ok none => d
  | .error (.error _) => d
  | .error (.fault _) => { d with watching := false }

def receive (jpeg : Jpeg) (h264 : Bool) (postcard : MediaPostcard) (d : Watching lib)
    (tooLong : String) : Watching lib :=
  if d.watching then
    match d.streams with
    | [] => d
    | stream :: streams =>
      match recvMedia postcard tooLong stream with
      | .error _ => { d with streams := streams, watching := false }
      | .ok message => { d with streams := streams }.decode jpeg h264 message
  else d

def pump (jpeg : Jpeg) (d : Watching lib) (sent : Bool) : Watching lib :=
  if d.pumping then
    match d.frames.value with
    | none => d
    | some frame =>
      let d := { d with frames := d.frames.take }
      match encodeRgbaToJpeg jpeg frame with
      | .ok image => if sent then { d with images := d.images ++ [image] }
        else { d with pumping := false }
      | .error (.error _) => d
      | .error (.fault _) => { d with pumping := false }
  else d

def step (jpeg : Jpeg) (h264 : Bool) (postcard : MediaPostcard) (monitors : List MonitorInfo)
    (d : Watching lib) : Event → Watching lib
  | .host .recv => d
  | .host e => { d with host := CaptureLoop.step jpeg monitors d.host e }
  | .sendMedia stream => d.send postcard stream
  | .recvMedia tooLong => d.receive jpeg h264 postcard tooLong
  | .connectionLost => { d with watching := false }
  | .pump sent => d.pump jpeg sent
  | .stopFrames => { d with pumping := false }

def Settled (d : Watching lib) : Prop :=
  d.host.receiverGone = false ∧ d.watching = true ∧ d.host.channel = none ∧ d.streams = []

end Watching

def Representable (d : Watching lib) : Event → Prop
  | .host e => CaptureLoop.Representable d.host e
  | _ => True

instance (d : Watching lib) : ∀ e, Decidable (Representable d e)
  | .host e => inferInstanceAs (Decidable (CaptureLoop.Representable d.host e))
  | .sendMedia _ => .isTrue trivial
  | .recvMedia _ => .isTrue trivial
  | .connectionLost => .isTrue trivial
  | .pump _ => .isTrue trivial
  | .stopFrames => .isTrue trivial

variable {jpeg : Jpeg} {h264 : Bool} {postcard : MediaPostcard} {monitors : List MonitorInfo}
variable {codec : VideoCodec} {d : Watching lib} {s : CaptureLoop.State lib}

structure Undrained (s t : CaptureLoop.State lib) : Prop where
  drained : t.drained = s.drained
  receiver : t.receiverGone = false → s.receiverGone = false

theorem undrained_encoded (frame : RgbaFrame)
    (r : VideoEncoder lib × Outcome VideoError (Option ScreenFrame)) :
    Undrained s (s.encoded frame r) := by
  unfold CaptureLoop.State.encoded
  dsimp only
  split
  · exact ⟨rfl, id⟩
  · exact ⟨rfl, id⟩
  · split_ifs
    · exact ⟨rfl, id⟩
    · exact ⟨rfl, id⟩

theorem undrained_thread (shot : Except String Screenshot) : Undrained s (s.thread jpeg shot) := by
  unfold CaptureLoop.State.thread
  split
  · exact ⟨rfl, id⟩
  · exact ⟨rfl, id⟩
  · dsimp only
    split_ifs
    · exact ⟨rfl, id⟩
    · exact ⟨rfl, id⟩
  · split_ifs
    · exact ⟨rfl, id⟩
    · exact ⟨rfl, id⟩
    · exact ⟨rfl, id⟩
  · split
    · exact ⟨rfl, id⟩
    · exact undrained_encoded ..
  · exact ⟨rfl, id⟩

theorem undrained_control (arm : Arm) : Undrained s (s.control arm) := by
  cases arm with
  | exit reason => exact ⟨rfl, id⟩
  | next active input reply =>
    rw [CaptureLoop.State.control]
    split_ifs
    · exact ⟨rfl, id⟩
    · exact ⟨rfl, id⟩

theorem undrained_step {e : CaptureLoop.Event} (he : e ≠ .recv) :
    Undrained s (CaptureLoop.step jpeg monitors s e) := by
  cases e with
  | command c => exact undrained_control _
  | message m => exact undrained_control _
  | thread shot => exact undrained_thread shot
  | recv => exact absurd rfl he
  | hangUp => exact ⟨rfl, fun h => by cases h⟩

variable {dec dec' : TileDecoder} {canvases canvases' : List RgbaFrame}
variable {messages : List ScreenFrame} {message : ScreenFrame}

theorem decodeStep_ok {out : TileDecoder × List RgbaFrame}
    (h : decodeStep jpeg (dec, canvases) message = .ok out) :
    ∃ canvas, dec.decode jpeg message = (out.1, .ok canvas) ∧ out.2 = canvases ++ [canvas] := by
  rw [decodeStep] at h
  cases hdecode : dec.decode jpeg message with
  | mk next result =>
    rw [hdecode] at h
    obtain ⟨canvas, hcanvas, h⟩ := bind_ok h
    cases h
    exact ⟨canvas, by rw [hcanvas], rfl⟩

theorem foldlM_grows
    (h : messages.foldlM (decodeStep jpeg) (dec, canvases) = .ok (dec', canvases')) :
    canvases <+: canvases' ∧ canvases'.length = canvases.length + messages.length := by
  induction messages generalizing dec canvases with
  | nil =>
    cases h
    exact ⟨List.prefix_rfl, rfl⟩
  | cons message messages ih =>
    rw [List.foldlM_cons] at h
    obtain ⟨⟨next, more⟩, hstep, h⟩ := bind_ok h
    obtain ⟨canvas, -, hmore⟩ := decodeStep_ok hstep
    obtain ⟨hpart, hlen⟩ := ih h
    dsimp only at hmore
    rw [hmore] at hpart hlen
    refine ⟨(List.prefix_append ..).trans hpart, ?_⟩
    simp only [hlen, List.length_append, List.length_cons, List.length_nil]
    omega

theorem decodeAll_part {more : List ScreenFrame}
    (h : decodeAll jpeg (messages ++ more) = .ok (dec, canvases)) :
    ∃ dec' canvases', decodeAll jpeg messages = .ok (dec', canvases') ∧
      canvases' <+: canvases ∧ canvases'.length = messages.length := by
  rw [decodeAll, List.foldlM_append] at h
  obtain ⟨⟨dec', canvases'⟩, hfirst, hrest⟩ := bind_ok h
  exact ⟨dec', canvases', hfirst, (foldlM_grows hrest).1, by simpa using (foldlM_grows hfirst).2⟩

theorem decodeAll_next {more : List ScreenFrame}
    (hall : decodeAll jpeg (messages ++ [message] ++ more) = .ok (dec', canvases'))
    (h : decodeAll jpeg messages = .ok (dec, canvases)) :
    ∃ next canvas, dec.decode jpeg message = (next, .ok canvas) ∧
      decodeAll jpeg (messages ++ [message]) = .ok (next, canvases ++ [canvas]) := by
  obtain ⟨next, more', hnext, -, -⟩ := decodeAll_part hall
  have hnext' := hnext
  rw [decodeAll, List.foldlM_append] at hnext'
  rw [decodeAll] at h
  rw [h, ok_bind, List.foldlM_cons] at hnext'
  obtain ⟨out, hstep, hout⟩ := bind_ok hnext'
  cases hout
  obtain ⟨canvas, hdecode, hcanvas⟩ := decodeStep_ok hstep
  dsimp only at hcanvas
  exact ⟨next, canvas, hdecode, by rw [hnext, hcanvas]⟩

def image (jpeg : Jpeg) (frame : RgbaFrame) : Option (List UInt8) :=
  match encodeRgbaToJpeg jpeg frame with
  | .ok bytes => some bytes
  | .error _ => none

/-- What is on the streams are the messages behind those that arrived. -/
structure Flying (postcard : MediaPostcard) (host : CaptureLoop.State lib)
    (streams : List (List UInt8)) (arrived flight : List ScreenFrame) : Prop where
  sent : List.Forall₂ (fun m bytes => ∃ stream, sendMedia postcard stream m = .ok bytes) flight
    streams
  part : arrived ++ flight <+: host.drained
  all : host.receiverGone = false → arrived ++ flight = host.drained

structure Displayed (jpeg : Jpeg) (postcard : MediaPostcard) (codec : VideoCodec)
    (d : Watching lib) : Prop where
  sound : CaptureLoop.Sound jpeg codec d.host
  arrived : d.arrived <+: d.host.drained
  flying : d.watching = true → ∃ flight, Flying postcard d.host d.streams d.arrived flight
  decoded : decodeAll jpeg d.arrived = .ok (d.decoder.tiles.getD .new, d.frames.posted)
  fresh : d.frames.Fresh
  images : d.images <+: d.frames.taken.filterMap (image jpeg)
  pumped : d.pumping = true → d.images = d.frames.taken.filterMap (image jpeg)

theorem displayed_start (jpeg : Jpeg) (postcard : MediaPostcard) (codec : VideoCodec)
    (active : MonitorInfo) : Displayed jpeg postcard codec (start lib codec active) where
  sound := CaptureLoop.sound_start jpeg codec active
  arrived := List.prefix_rfl
  flying _ := ⟨[], .nil, List.prefix_rfl, fun _ => rfl⟩
  decoded := rfl
  fresh := Mailbox.fresh_empty
  images := List.prefix_rfl
  pumped _ := rfl

theorem Displayed.host (hj : jpeg.RoundTripsTo maxSide) (he : jpeg.RefusesEmpty)
    (h : Displayed jpeg postcard codec d) {e : CaptureLoop.Event}
    (hok : CaptureLoop.Representable d.host e) (hrecv : e ≠ .recv) :
    Displayed jpeg postcard codec { d with host := CaptureLoop.step jpeg monitors d.host e } := by
  have hundrained : Undrained d.host (CaptureLoop.step jpeg monitors d.host e) :=
    undrained_step hrecv
  obtain ⟨hdrained, hreceiver⟩ := hundrained
  refine ⟨h.sound.step hj he monitors e hok, ?_, fun hwatching => ?_, h.decoded, h.fresh, h.images,
    h.pumped⟩
  · dsimp only
    rw [hdrained]
    exact h.arrived
  · obtain ⟨flight, hsent, hpart, hall⟩ := h.flying hwatching
    refine ⟨flight, hsent, ?_, fun hgone => ?_⟩
    · dsimp only
      rw [hdrained]
      exact hpart
    · dsimp only
      rw [hdrained]
      exact hall (hreceiver hgone)

theorem Displayed.send (h : Displayed jpeg postcard codec d) (stream : SendStream) :
    Displayed jpeg postcard codec (d.send postcard stream) := by
  unfold Watching.send
  split_ifs with hgone
  · exact h
  split
  · exact h
  · rename_i message hchannel
    have hrecv : d.host.recv = { d.host with
        channel := none
        drained := d.host.drained ++ [message] } := by
      rw [CaptureLoop.State.recv, if_neg hgone, hchannel]
      rfl
    have hgrows : d.host.drained <+: d.host.recv.drained := by
      rw [hrecv]
      exact List.prefix_append ..
    obtain ⟨hordered, enc, dec, shown, htiled⟩ := h.sound
    split
    · rename_i bytes hsend
      refine ⟨⟨hordered.recv, enc, dec, shown, htiled.recv⟩, h.arrived.trans hgrows,
        fun hwatching => ?_, h.decoded, h.fresh, h.images, h.pumped⟩
      obtain ⟨flight, hsent, -, hall⟩ := h.flying hwatching
      have hmore : d.arrived ++ (flight ++ [message]) = d.host.recv.drained := by
        rw [hrecv, ← List.append_assoc, hall (by simpa using hgone)]
      exact ⟨flight ++ [message], List.rel_append hsent (.cons ⟨stream, hsend⟩ .nil),
        hmore ▸ List.prefix_rfl, fun _ => hmore⟩
    -- the message was taken from the channel, and its stream did not get through
    · refine ⟨⟨{ hordered.recv with }, enc, dec, shown, { htiled.recv with }⟩,
        h.arrived.trans hgrows, fun hwatching => ?_, h.decoded, h.fresh, h.images, h.pumped⟩
      obtain ⟨flight, hsent, hpart, -⟩ := h.flying hwatching
      exact ⟨flight, hsent, hpart.trans hgrows, fun hno => by cases hno⟩

theorem Displayed.decodes (h264 : Bool) (hcodec : codec ≠ .h264)
    (h : Displayed jpeg postcard codec d) {message : ScreenFrame} {flight : List ScreenFrame}
    (hpart : d.arrived ++ message :: flight <+: d.host.drained) :
    ∃ next canvas, d.decoder.decode jpeg h264 message =
        ({ d.decoder with tiles := some next }, .ok (some canvas)) ∧
      decodeAll jpeg (d.arrived ++ [message]) = .ok (next, d.frames.posted ++ [canvas]) := by
  obtain ⟨hordered, enc, dec, shown, htiled⟩ := h.sound
  obtain ⟨rest, hrest⟩ := hpart
  -- a prefix of what the encoder made decodes, since all of it does
  have hproduced : d.host.produced =
      d.arrived ++ [message] ++ (flight ++ (rest ++ d.host.channel.toList)) := by
    rw [hordered.handedOver, ← hrest]
    simp
  have hmessage : message.codec ≠ .h264 := by
    rw [htiled.coded message (by simp [hproduced])]
    exact hcodec
  obtain ⟨next, canvas, hdecode, hall⟩ :=
    decodeAll_next (hproduced ▸ htiled.decoded) h.decoded
  refine ⟨next, canvas, ?_, hall⟩
  have htiles : d.decoder.decode jpeg h264 message = d.decoder.decodeTiles jpeg message := by
    rw [VideoDecoder.decode]
    cases hcase : message.codec with
    | h264 => exact absurd hcase hmessage
    | rawRgba => rfl
    | jpegTiles => rfl
  rw [htiles, VideoDecoder.decodeTiles, hdecode]
  rfl

theorem Displayed.receive (hinverts : postcard.Inverts) (hcodec : codec ≠ .h264)
    (h : Displayed jpeg postcard codec d) (tooLong : String) :
    Displayed jpeg postcard codec (d.receive jpeg h264 postcard tooLong) := by
  unfold Watching.receive
  split_ifs with hwatching
  · split
    · exact h
    · rename_i bytes streams hstreams
      obtain ⟨flight, hsent, hpart, hall⟩ := h.flying hwatching
      rw [hstreams] at hsent
      cases hsent with
      | cons hmessage hrest =>
        rename_i message flight
        obtain ⟨stream, hsend⟩ := hmessage
        obtain ⟨body, hbody, -, rfl⟩ := sendMedia_ok hsend
        -- the next message that was sent; a limit it exceeds ends the task
        rw [recvMedia_frame tooLong hinverts hbody]
        split_ifs
        · obtain ⟨next, canvas, hdecode, hshown⟩ := h.decodes h264 hcodec hpart
          have harrived : d.arrived ++ [message] ++ flight = d.arrived ++ message :: flight := by
            simp
          dsimp only [Watching.decode]
          rw [hdecode]
          refine ⟨h.sound, ?_, fun _ => ⟨flight, hrest, ?_, fun hgone => ?_⟩, hshown,
            h.fresh.post canvas, h.images, h.pumped⟩
          · exact (List.prefix_append _ flight).trans (harrived ▸ hpart)
          · exact harrived ▸ hpart
          · exact harrived.trans (hall hgone)
        · exact ⟨h.sound, h.arrived, fun hno => (by cases hno), h.decoded, h.fresh,
            h.images, h.pumped⟩
  · exact h

theorem Displayed.pumped_frame (h : Displayed jpeg postcard codec d) {images : List (List UInt8)}
    {pumping : Bool} (hpart : images <+: d.frames.take.taken.filterMap (image jpeg))
    (hall : pumping = true → images = d.frames.take.taken.filterMap (image jpeg)) :
    Displayed jpeg postcard codec
      { d with frames := d.frames.take, images := images, pumping := pumping } :=
  ⟨h.sound, h.arrived, h.flying, h.decoded, h.fresh.take, hpart, hall⟩

theorem Displayed.pump (h : Displayed jpeg postcard codec d) (sent : Bool) :
    Displayed jpeg postcard codec (d.pump jpeg sent) := by
  unfold Watching.pump
  by_cases hpumping : d.pumping = true
  · rw [if_pos hpumping]
    split
    · exact h
    · rename_i frame hvalue
      have htaken : d.frames.take.taken.filterMap (image jpeg) =
          d.images ++ (image jpeg frame).toList := by
        rw [h.pumped hpumping, Mailbox.take, hvalue]
        cases himage : image jpeg frame <;> simp [himage]
      dsimp only
      split
      · rename_i bytes hbytes
        have himage : image jpeg frame = some bytes := by rw [image, hbytes]
        rw [himage] at htaken
        split_ifs
        · exact h.pumped_frame (htaken ▸ List.prefix_rfl) fun _ => htaken.symm
        -- the webview is gone: the picture was taken and not shown
        · exact h.pumped_frame (htaken ▸ List.prefix_append ..) fun hno => by cases hno
      · rename_i e hfails
        have himage : image jpeg frame = none := by rw [image, hfails]
        rw [himage, Option.toList_none, List.append_nil] at htaken
        exact h.pumped_frame (htaken ▸ List.prefix_rfl) fun _ => htaken.symm
      · exact h.pumped_frame (htaken ▸ List.prefix_append ..) fun hno => by cases hno
  · rw [if_neg hpumping]
    exact h

theorem Displayed.step (hj : jpeg.RoundTripsTo maxSide) (he : jpeg.RefusesEmpty)
    (hinverts : postcard.Inverts) (hcodec : codec ≠ .h264) (h : Displayed jpeg postcard codec d)
    (e : Event) (hok : Representable d e) :
    Displayed jpeg postcard codec (d.step jpeg h264 postcard monitors e) := by
  cases e with
  | host e =>
    cases e with
    | recv => exact h
    | command c => exact h.host hj he (e := .command c) hok (by simp)
    | message m => exact h.host hj he (e := .message m) hok (by simp)
    | thread shot => exact h.host hj he (e := .thread shot) hok (by simp)
    | hangUp => exact h.host hj he (e := .hangUp) hok (by simp)
  | sendMedia stream => exact h.send stream
  | recvMedia tooLong => exact h.receive hinverts hcodec tooLong
  | connectionLost => exact { h with flying := fun hno => by cases hno }
  | pump sent => exact h.pump sent
  | stopFrames => exact { h with pumped := fun hno => by cases hno }

theorem Displayed.history (h : Displayed jpeg postcard codec d) :
    ∃ shown, d.frames.posted = shown.map Shown.canvas ∧ shown.map Shown.message = d.arrived ∧
      shown.map (fun x => (x.message.monitorId, x.source)) <+: d.host.captured ∧
      (d.Settled → shown.length = d.host.captured.length) ∧
      ∀ pre x post, shown = pre ++ x :: post → Shows jpeg codec pre x := by
  obtain ⟨hordered, enc, dec, shown, htiled⟩ := h.sound
  obtain ⟨rest, hrest⟩ := h.arrived
  have hproduced : d.host.produced = d.arrived ++ (rest ++ d.host.channel.toList) := by
    rw [hordered.handedOver, ← hrest, List.append_assoc]
  obtain ⟨dec', canvases, hdecoded, hpart, hlen⟩ := decodeAll_part (hproduced ▸ htiled.decoded)
  obtain ⟨-, rfl⟩ := Prod.mk.inj (Except.ok.inj (hdecoded.symm.trans h.decoded))
  have hlength : shown.length = d.host.produced.length := by
    rw [← htiled.messages, List.length_map]
  refine ⟨shown.take d.arrived.length, ?_, ?_, ?_, ?_, fun pre x post hsplit => ?_⟩
  · rw [List.map_take, ← hlen]
    exact List.prefix_iff_eq_take.mp hpart
  · rw [List.map_take, htiled.messages, hproduced, List.take_left]
  · rw [← htiled.sources]
    exact (List.take_prefix ..).map _
  -- with nothing in the channel or on the streams every message has arrived
  · rintro ⟨hgone, hwatching, hchannel, hstreams⟩
    obtain ⟨flight, hsent, -, hall⟩ := h.flying hwatching
    rw [hstreams] at hsent
    cases hsent
    have hsame : d.arrived.length = shown.length := by
      rw [hlength, hordered.handedOver, ← hall hgone, hchannel]
      simp
    rw [hsame, List.take_length, ← htiled.sources, List.length_map]
  · have hwhole : shown = pre ++ x :: (post ++ shown.drop d.arrived.length) := by
      conv_lhs => rw [← List.take_append_drop d.arrived.length shown, hsplit]
      simp
    have hshows := htiled.synced.shows pre x _ hwhole
    rwa [htiled.codec] at hshows

/-- Two frames on either monitor; the pump runs behind the second, which overwrote the first. -/
def overtaken : List Event :=
  CaptureLoop.firstFrame.map .host ++
    [.host (.thread (.ok greyShot)), .sendMedia ⟨.ok (), true, true⟩,
      .host (.message (some (.selectMonitor 1)))] ++
    CaptureLoop.idle.map .host ++
    [.host (.thread (.ok greyShot)), .recvMedia "stream too long",
      .sendMedia ⟨.ok (), true, true⟩, .recvMedia "stream too long", .pump true]

end Controlis.Viewer.Display
