import Mathlib.Tactic.Common

/-!
# Protocol messages

The messages of the control stream, with what both ends need to know about
monitors, codecs and keys. A 32-bit float is carried by its bit pattern.
-/

namespace Controlis.Protocol

def protocolVersion : UInt16 := 3

inductive Role
  | host
  | viewer
deriving DecidableEq, Repr

inductive VideoCodec
  | rawRgba
  | jpegTiles
  | h264
deriving DecidableEq, Repr

def negotiateCodec (preferred : VideoCodec) (hostSupported viewerSupported : List VideoCodec) :
    VideoCodec :=
  if preferred ∈ hostSupported ∧ preferred ∈ viewerSupported then preferred
  else (hostSupported.find? (· ∈ viewerSupported)).getD .jpegTiles

structure Hello where
  protocolVersion : UInt16
  appVersion : String
  role : Role
  supportedCodecs : List VideoCodec
deriving DecidableEq, Repr

inductive AuthOutcome
  | accepted (sessionId : UInt64)
  | rejected (reason : String)
  | pendingApproval
deriving DecidableEq, Repr

structure MonitorInfo where
  id : UInt32
  name : String
  originX : Int32
  originY : Int32
  widthPx : UInt32
  heightPx : UInt32
  isPrimary : Bool
deriving DecidableEq, Repr

inductive MouseButton
  | left
  | right
  | middle
deriving DecidableEq, Repr

inductive PointerAction
  | press
  | release
deriving DecidableEq, Repr

inductive KeyCode
  | unicode (c : Char)
  | enter
  | escape
  | backspace
  | tab
  | space
  | delete
  | home
  | «end»
  | pageUp
  | pageDown
  | arrowUp
  | arrowDown
  | arrowLeft
  | arrowRight
  | shift
  | control
  | alt
  | «meta»
  | capsLock
  | function (n : UInt8)
deriving DecidableEq, Repr

/-- The bit pattern of an `f32`. -/
structure F32 where
  bits : UInt32
deriving DecidableEq, Repr

inductive ControlMessage
  | hello (h : Hello)
  | authRequest (sessionCode : String)
  | authResponse (outcome : AuthOutcome)
  | monitorList (monitors : List MonitorInfo)
  | selectMonitor (monitorId : UInt32)
  | mouseMove (xNorm yNorm : F32)
  | mouseButton (button : MouseButton) (action : PointerAction)
  | mouseWheel (deltaX deltaY : F32)
  | keyEvent (key : KeyCode) (action : PointerAction)
  | text (text : String)
  | resize (widthPx heightPx : UInt32)
  | ping (nonce : UInt64)
  | pong (nonce : UInt64)
  | disconnect (reason : String)
  | error (code : UInt16) (message : String)
deriving DecidableEq, Repr

end Controlis.Protocol
