import Controlis.ConnectCode
import Controlis.Foundation.Interaction
import Controlis.RateLimit
import Controlis.Rendezvous
import Controlis.Session.ControlLoop

/-!
# What the host task asks of its surroundings

The host task draws secrets, talks to the rendezvous server, accepts
connections, exchanges control messages, emits events to the UI and takes its
commands, and starts the threads of a session. Each of these is an `Effect`
with a type of answers.
-/

namespace Controlis.Host
open Protocol Security Rendezvous Session

inductive IpAddr
  | v4 (bits : BitVec 32)
  | v6 (bits : BitVec 128)
deriving DecidableEq, Repr

inductive Peer
  | quinn (ip : IpAddr) (address : String) (fingerprint : Option String)
  | iroh (remoteId : String)
deriving DecidableEq, Repr

structure Connection where
  id : ℕ
  peer : Peer
deriving DecidableEq, Repr

def Connection.remoteLabel (c : Connection) : String :=
  match c.peer with
  | .quinn _ address _ => address
  | .iroh remoteId => s!"iroh:{remoteId}"

def Connection.remoteIp (c : Connection) : IpAddr :=
  match c.peer with
  | .quinn ip _ _ => ip
  | .iroh _ => .v4 0

def Connection.peerFingerprint (c : Connection) : Option String :=
  match c.peer with
  | .quinn _ _ fingerprint => fingerprint
  | .iroh _ => none

structure ConnectionRequest where
  peerAddr : String
  fingerprint : Option String
deriving DecidableEq, Repr

def Connection.request (c : Connection) : ConnectionRequest := ⟨c.remoteLabel, c.peerFingerprint⟩

inductive HostEvent
  | codeReady (code : String)
  | approvalRequested (request : ConnectionRequest)
  | sessionStarted (peerAddr : String)
  | sessionEnded (reason : String)
  | log (line : String)
  | error (message : String)
deriving DecidableEq, Repr

structure InternetHostConfig where
  rendezvousUrl : String
  relayUrl : String
  secretKey : List UInt8
deriving DecidableEq, Repr

structure HostConfig where
  requireManualApproval : Bool
  codec : VideoCodec
  targetFps : UInt32
  advertisedIp : Option UInt32
  internet : Option InternetHostConfig
deriving DecidableEq, Repr

structure Client where
  baseUrl : String
deriving DecidableEq, Repr

def Client.new (baseUrl : String) : Except String Client :=
  let trimmed := (baseUrl.toList.dropWhile isWhitespace).reverse.dropWhile isWhitespace
  let url := (trimmed.dropWhile (· == '/')).reverse
  if url.isEmpty || !("http://".toList.isPrefixOf url || "https://".toList.isPrefixOf url) then
    .error "invalid rendezvous server URL"
  else .ok ⟨String.ofList url⟩

inductive Selected
  | command (c : Option HostCommand)
  | message (m : Option ControlMessage)
deriving DecidableEq, Repr

/-- `checked` and `compared` ask for nothing: they put a verdict on record. A
connection or a session is named where the source has it in scope. -/
inductive Effect
  | bindIroh (secretKey : List UInt8) (relayUrl : String)
  | sessionId
  | drawSecret (target : ConnectTarget)
  | descriptor
  | register (client : Client) (request : RegisterRequest)
  | spawnRefresh (client : Client) (sessionId : SessionId) (token : String)
      (endpoint : EndpointDescriptor)
  | abortRefresh (task : ℕ)
  | unregister (client : Client) (request : UnregisterRequest)
  | emit (event : HostEvent)
  | accept (internet : Bool)
  | acceptControl (c : Connection)
  | recvTimeout (c : Connection)
  | send (c : Connection) (m : ControlMessage)
  | close (c : Connection) (reason : String)
  | now
  | unixNanos
  | checked (c : Connection) (now : ℕ) (decision : RateLimit.GuardDecision)
  | compared (c : Connection) (code : ConnectCode) (candidate : String) (ok : Bool)
  | takeCommand (c : Connection)
  | newH264Encoder (maxFps : UInt32)
  | createCapturer (c : Connection)
  | listMonitors (c : Connection)
  | spawn (c : Connection) (codec : VideoCodec) (activeId : UInt32)
  | select (c : Connection)
  | forward (session : ℕ) (action : InputAction)
  | storeActive (session : ℕ) (activeId : UInt32)
  | stopCapture (session : ℕ)
  | dropInput (session : ℕ)
  | joinCapture (session : ℕ)
  | awaitMedia (session : ℕ)
deriving DecidableEq, Repr

/-- `send`, `emit` and `forward` are answered with whether they succeeded,
`spawn` and `spawnRefresh` with the number of the session or task. -/
abbrev Effect.Answer : Effect → Type
  | .bindIroh _ _ => Except String Unit
  | .sessionId => Fin (2 ^ sessionIdBits)
  | .drawSecret _ => Fin (2 ^ secretBits)
  | .descriptor => EndpointDescriptor
  | .register _ _ => Except String RegisterResponse
  | .spawnRefresh _ _ _ _ => ℕ
  | .unregister _ _ => Except String Unit
  | .emit _ => Bool
  | .accept _ => Option (Except String Connection)
  | .acceptControl _ => Except String Unit
  | .recvTimeout _ => Option ControlMessage
  | .send _ _ => Bool
  | .now => ℕ
  | .unixNanos => UInt64
  | .takeCommand _ => Option HostCommand
  | .newH264Encoder _ => Except String Unit
  | .createCapturer _ => Except String Unit
  | .listMonitors _ => Except String (List MonitorInfo)
  | .spawn _ _ _ => ℕ
  | .select _ => Selected
  | .forward _ _ => Bool
  | .abortRefresh _ => Unit
  | .close _ _ => Unit
  | .checked _ _ _ => Unit
  | .compared _ _ _ _ => Unit
  | .storeActive _ _ => Unit
  | .stopCapture _ => Unit
  | .dropInput _ => Unit
  | .joinCapture _ => Unit
  | .awaitMedia _ => Unit

abbrev HostM := Interaction.Prog Effect Effect.Answer

def perform (e : Effect) : HostM e.Answer := .perform e
def emit (event : HostEvent) : HostM Bool := perform (.emit event)
def send (c : Connection) (m : ControlMessage) : HostM Bool := perform (.send c m)

end Controlis.Host
