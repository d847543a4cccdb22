import Controlis.Codec.Frame
import Controlis.Foundation.Wire
import Controlis.Protocol.Chunking

/-!
# Media streams

Each media message travels on a stream of its own, as a frame of `encode`. The
sender bounds the body and the receiver bounds body and length together, both by
64 MiB, so the largest bodies that can be sent are not received. The serialiser
is a parameter; its format for screen frames serves the examples.
-/

namespace Controlis.Transport
open Protocol Codec Wire

inductive TransportError
  | connect (message : String)
  | closed
  | protocol (e : ProtocolError)
deriving DecidableEq, Repr

def maxMediaBytes : ℕ := 64 * 1024 * 1024

structure MediaPostcard where
  toVec : ScreenFrame → Except String (List UInt8)
  fromBytes : List UInt8 → Except String ScreenFrame

def MediaPostcard.Inverts (postcard : MediaPostcard) : Prop :=
  ∀ message body, postcard.toVec message = .ok body → postcard.fromBytes body = .ok message

structure SendStream where
  opened : Except String Unit
  written : Bool
  finished : Bool
deriving Repr

def sendMedia (postcard : MediaPostcard) (stream : SendStream) (message : ScreenFrame) :
    Except TransportError (List UInt8) :=
  match encodeWith postcard.toVec message with
  | .error e => .error (.protocol e)
  | .ok body =>
    match stream.opened with
    | .error e => .error (.connect e)
    | .ok () => if stream.written && stream.finished then .ok body else .error .closed

def readToEnd (tooLong : String) (limit : ℕ) (stream : List UInt8) : Except String (List UInt8) :=
  if stream.length ≤ limit then .ok stream else .error tooLong

def recvMedia (postcard : MediaPostcard) (tooLong : String) (stream : List UInt8) :
    Except TransportError ScreenFrame :=
  match readToEnd tooLong maxMediaBytes stream with
  | .error e => .error (.connect e)
  | .ok framed =>
    if framed.length < 4 then .error .closed
    else
      match postcard.fromBytes (framed.drop 4) with
      | .error e => .error (.protocol (.deserialize e))
      | .ok message => .ok message

section
variable {postcard : MediaPostcard} {stream : SendStream} {message : ScreenFrame}
  {body sent : List UInt8}

theorem sendMedia_ok (h : sendMedia postcard stream message = .ok sent) :
    ∃ body, postcard.toVec message = .ok body ∧ body.length ≤ maxMessageLen ∧
      sent = frame body := by
  unfold sendMedia encodeWith at h
  cases hbody : postcard.toVec message with
  | error e =>
    rw [hbody] at h
    cases h
  | ok body =>
    rw [hbody] at h
    dsimp only at h
    by_cases hlarge : maxMessageLen < body.length
    · rw [if_pos hlarge] at h
      cases h
    · refine ⟨body, rfl, by omega, ?_⟩
      rw [if_neg hlarge] at h
      cases hopened : stream.opened with
      | error e =>
        rw [hopened] at h
        cases h
      | ok u =>
        rw [hopened] at h
        dsimp only at h
        split_ifs at h
        exact (Except.ok.inj h).symm

theorem sendMedia_frame (hbody : postcard.toVec message = .ok body)
    (hfits : body.length ≤ maxMessageLen) :
    sendMedia postcard ⟨.ok (), true, true⟩ message = .ok (frame body) := by
  simp [sendMedia, encodeWith, hbody, Nat.not_lt.mpr hfits]

theorem recvMedia_frame (tooLong : String) (hinverts : postcard.Inverts)
    (hbody : postcard.toVec message = .ok body) :
    recvMedia postcard tooLong (frame body) =
      if body.length + 4 ≤ maxMediaBytes then .ok message else .error (.connect tooLong) := by
  have hlen : (frame body).length = 4 + body.length := length_frame body
  have hdrop : (frame body).drop 4 = body := by simpa using drop_frame body []
  have hlong : ¬ (frame body).length < 4 := by omega
  unfold recvMedia readToEnd
  by_cases hfits : body.length + 4 ≤ maxMediaBytes
  · have hread : (frame body).length ≤ maxMediaBytes := by omega
    rw [if_pos hread, if_pos hfits]
    dsimp only
    rw [if_neg hlong, hdrop, hinverts message body hbody]
  · have hread : ¬ (frame body).length ≤ maxMediaBytes := by omega
    rw [if_neg hread, if_neg hfits]

/-- What is sent arrives iff its body leaves four bytes of the limit. -/
theorem media_received_iff (stream : SendStream) (tooLong : String) (hinverts : postcard.Inverts)
    (hbody : postcard.toVec message = .ok body)
    (hsent : sendMedia postcard stream message = .ok sent) :
    recvMedia postcard tooLong sent = .ok message ↔ body.length ≤ 64 * 1024 * 1024 - 4 := by
  obtain ⟨body', hbody', -, rfl⟩ := sendMedia_ok hsent
  obtain rfl : body = body' := Except.ok.inj (hbody.symm.trans hbody')
  rw [recvMedia_frame tooLong hinverts hbody, maxMediaBytes]
  split_ifs with hfits
  · simp only [true_iff]
    omega
  · simp only [false_iff]
    omega

end

def codecFormat : Format VideoCodec :=
  Format.nat.imap (fun n => [.rawRgba, .jpegTiles, .h264][n]?)
    (fun | .rawRgba => 0 | .jpegTiles => 1 | .h264 => 2) fun codec => by cases codec <;> rfl

def encodingFormat : Format ScreenEncoding :=
  Format.nat.imap (fun n => [.full, .tileDelta][n]?) (fun | .full => 0 | .tileDelta => 1)
    fun encoding => by cases encoding <;> rfl

def tileFormat : Format TileRect :=
  (Format.uint32.pair (Format.uint32.pair (Format.uint32.pair .uint32))).imap
    (fun (x, y, w, h) => some ⟨x, y, w, h⟩) (fun t => (t.x, t.y, t.w, t.h)) fun _ => rfl

/-- The index of the only variant, and the fields in order. -/
def screenFrameFormat : Format ScreenFrame :=
  (Format.nat.pair (Format.uint32.pair (Format.uint64.pair (codecFormat.pair (encodingFormat.pair
    (Format.uint32.pair (Format.uint32.pair (tileFormat.list.pair (Format.list .byte))))))))).imap
    (fun (variant, monitorId, frameId, codec, encoding, widthPx, heightPx, tiles, payload) =>
      if variant = 0 then
        some ⟨monitorId, frameId, codec, encoding, widthPx, heightPx, tiles, payload⟩
      else none)
    (fun m => (0, m.monitorId, m.frameId, m.codec, m.encoding, m.widthPx, m.heightPx, m.tiles,
      m.payload))
    fun _ => rfl

def wire : MediaPostcard where
  toVec message := .ok (screenFrameFormat.write message)
  fromBytes bytes :=
    match screenFrameFormat.read bytes with
    | some (message, _) => .ok message
    | none => .error "Hit the end of buffer, expected more data"

theorem wire_inverts : wire.Inverts := by
  intro message body h
  obtain rfl := Except.ok.inj h
  have hread := screenFrameFormat.read_write message []
  rw [List.append_nil] at hread
  simp only [wire, hread]

theorem media_received_iff_small :
    recvMedia wire "stream too long" (frame [0, 7, 129, 1, 1, 0, 16, 16, 0, 1, 255]) =
        .ok ⟨7, 129, .jpegTiles, .full, 16, 16, [], [255]⟩ ↔
      11 ≤ 64 * 1024 * 1024 - 4 :=
  media_received_iff ⟨.ok (), true, true⟩ _ wire_inverts rfl rfl

theorem length_write (m : ScreenFrame) : (screenFrameFormat.write m).length =
    1 + ((Format.uint32.write m.monitorId).length + ((Format.uint64.write m.frameId).length +
      ((codecFormat.write m.codec).length + ((encodingFormat.write m.encoding).length +
        ((Format.uint32.write m.widthPx).length + ((Format.uint32.write m.heightPx).length +
          ((tileFormat.list.write m.tiles).length +
            ((varint m.payload.length).length + m.payload.length)))))))) := by
  have hvariant : (Format.nat.write 0).length = 1 := rfl
  rw [screenFrameFormat]
  simp only [Format.write_imap, Format.write_pair, List.length_append, length_bytes, hvariant]

def largest : ScreenFrame :=
  ⟨0, 0, .h264, .full, 0, 0, [], List.replicate 67108852 0⟩

theorem length_largest : (screenFrameFormat.write largest).length = 67108864 := by
  have hpayload : largest.payload.length = 67108852 := List.length_replicate
  have hlength : (varint 67108852).length = 4 := by decide
  have hmonitor : (Format.uint32.write largest.monitorId).length = 1 := by decide
  have hframe : (Format.uint64.write largest.frameId).length = 1 := by decide
  have hcodec : (codecFormat.write largest.codec).length = 1 := by decide
  have hencoding : (encodingFormat.write largest.encoding).length = 1 := by decide
  have hwidth : (Format.uint32.write largest.widthPx).length = 1 := by decide
  have hheight : (Format.uint32.write largest.heightPx).length = 1 := by decide
  have htiles : (tileFormat.list.write largest.tiles).length = 1 := by decide
  rw [length_write, hpayload, hlength, hmonitor, hframe, hcodec, hencoding, hwidth, hheight, htiles]

theorem largest_is_not_received : wire.Inverts ∧
    ∃ sent, sendMedia wire ⟨.ok (), true, true⟩ largest = .ok sent ∧
      recvMedia wire "stream too long" sent = .error (.connect "stream too long") := by
  have hsmall : (screenFrameFormat.write largest).length ≤ maxMessageLen := by
    rw [length_largest]
    decide
  have hlarge : ¬ (screenFrameFormat.write largest).length + 4 ≤ maxMediaBytes := by
    rw [length_largest]
    decide
  have hbody : wire.toVec largest = .ok (screenFrameFormat.write largest) := rfl
  refine ⟨wire_inverts, frame (screenFrameFormat.write largest), sendMedia_frame hbody hsmall, ?_⟩
  rw [recvMedia_frame "stream too long" wire_inverts hbody, if_neg hlarge]

end Controlis.Transport
