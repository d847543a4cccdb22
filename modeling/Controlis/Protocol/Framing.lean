import Controlis.Foundation.Numeral
import Controlis.Protocol.Message

/-!
# Length-delimited frames

A frame is a little-endian 32-bit length and a body. `FrameDecoder` reassembles
frames from chunks; the serialiser of the bodies is a parameter. `Parsed` is the
reading of a whole stream at once, against which the decoder is measured.
-/

namespace Controlis.Protocol
open Numeral

def maxMessageLen : ℕ := 64 * 1024 * 1024

inductive ProtocolError
  | serialize (message : String)
  | deserialize (message : String)
  | messageTooLarge (len : ℕ)
deriving DecidableEq, Repr

structure Postcard where
  toVec : ControlMessage → Except String (List UInt8)
  fromBytes : List UInt8 → Except String ControlMessage

def frame (body : List UInt8) : List UInt8 := toLeBytes (.ofNat body.length) ++ body

def encode (postcard : Postcard) (message : ControlMessage) : Except ProtocolError (List UInt8) :=
  match postcard.toVec message with
  | .error e => .error (.serialize e)
  | .ok body =>
    if maxMessageLen < body.length then .error (.messageTooLarge body.length) else .ok (frame body)

def decode (postcard : Postcard) (body : List UInt8) : Except ProtocolError ControlMessage :=
  match postcard.fromBytes body with
  | .error e => .error (.deserialize e)
  | .ok message => .ok message

structure FrameDecoder where
  buffer : List UInt8
deriving DecidableEq, Repr

def FrameDecoder.new : FrameDecoder := ⟨[]⟩

def FrameDecoder.extend (d : FrameDecoder) (bytes : List UInt8) : FrameDecoder :=
  ⟨d.buffer ++ bytes⟩

def FrameDecoder.nextFrame (d : FrameDecoder) :
    FrameDecoder × Except ProtocolError (Option (List UInt8)) :=
  if d.buffer.length < 4 then (d, .ok none)
  else
    let len := fromLeBytes (d.buffer.take 4)
    if maxMessageLen < len then (d, .error (.messageTooLarge len))
    else if d.buffer.length < 4 + len then (d, .ok none)
    else (⟨d.buffer.drop (4 + len)⟩, .ok (some ((d.buffer.drop 4).take len)))

/-- The stream starts with these bodies in order, and `rest` is left. -/
def Parsed (stream : List UInt8) (bodies : List (List UInt8)) (rest : List UInt8) : Prop :=
  stream = bodies.flatMap frame ++ rest ∧ ∀ body ∈ bodies, body.length ≤ maxMessageLen

theorem parsed_nil (stream : List UInt8) : Parsed stream [] stream := ⟨by simp, by simp⟩

theorem Parsed.extend {stream rest : List UInt8} {bodies : List (List UInt8)}
    (h : Parsed stream bodies rest) (bytes : List UInt8) :
    Parsed (stream ++ bytes) bodies (rest ++ bytes) :=
  ⟨by rw [h.1, List.append_assoc], h.2⟩

theorem Parsed.snoc {stream rest body : List UInt8} {bodies : List (List UInt8)}
    (h : Parsed stream bodies (frame body ++ rest)) (hbody : body.length ≤ maxMessageLen) :
    Parsed stream (bodies ++ [body]) rest := by
  refine ⟨by rw [h.1]; simp, fun b hb => ?_⟩
  rcases List.mem_append.mp hb with hb | hb
  · exact h.2 b hb
  · rw [List.mem_singleton.mp hb]
    exact hbody

theorem nextFrame_some {d d' : FrameDecoder} {body : List UInt8}
    (h : d.nextFrame = (d', .ok (some body))) :
    d.buffer = frame body ++ d'.buffer ∧ body.length ≤ maxMessageLen := by
  simp only [FrameDecoder.nextFrame] at h
  split_ifs at h with hshort hlarge hpart
  · cases h
  · cases h
  · cases h
  simp only [Prod.mk.injEq, Except.ok.injEq, Option.some.injEq] at h
  obtain ⟨rfl, rfl⟩ := h
  have hhead : (d.buffer.take 4).length = 4 := by
    rw [List.length_take]
    omega
  generalize hlen : fromLeBytes (d.buffer.take 4) = len at hlarge hpart
  have hbody : ((d.buffer.drop 4).take len).length = len := by
    rw [List.length_take, List.length_drop]
    omega
  have hprefix : toLeBytes (.ofNat len) = d.buffer.take 4 := by
    rw [← hlen]
    exact toLeBytes_fromLeBytes hhead
  refine ⟨?_, by omega⟩
  rw [frame, hbody, hprefix, List.append_assoc, ← List.drop_drop, List.take_append_drop,
    List.take_append_drop]

theorem nextFrame_unchanged {d d' : FrameDecoder} {r : Except ProtocolError (Option (List UInt8))}
    (h : d.nextFrame = (d', r)) (hr : ∀ body, r ≠ .ok (some body)) : d' = d := by
  simp only [FrameDecoder.nextFrame] at h
  split_ifs at h
  · cases h; rfl
  · cases h; rfl
  · cases h; rfl
  · cases h
    exact absurd rfl (hr _)

end Controlis.Protocol
