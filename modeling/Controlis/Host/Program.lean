import Controlis.Host.Effect

/-!
# The host task

The functions of the source under their own names: the accept loop of `run`,
`runSession` with the handshake and the user's decision, and the session with
its control loop and its teardown. The brute-force guard is passed along.
-/

namespace Controlis.Host
open Protocol Security Rendezvous Session RateLimit Interaction

def generateCode (addr : SocketAddrV4) : HostM ConnectCode := do
  let secret ← perform (.drawSecret (.lan addr))
  return generate addr secret

def generateRendezvousCode (sessionId : SessionId) :
    HostM (Except ConnectCodeError ConnectCode) := do
  let secret ← perform (.drawSecret (.rendezvous sessionId.id))
  return generateRendezvous sessionId.id secret

def ConnectCodeError.message : ConnectCodeError → String
  | .wrongLength => "access code must have 16 characters"
  | .invalidChar => "access code contains an invalid character"
  | .unsupportedVersion => "access code was generated by a newer version"
  | .rendezvousIdOutOfRange => "rendezvous id must fit in 48 bits"

structure InternetRegistration where
  client : Client
  sessionId : SessionId
  token : String
  code : ConnectCode
  refreshTask : ℕ

def logInternetFallback (reason : String) : HostM (Option InternetRegistration) := do
  let _ ← emit (.log s!"internet indisponível ({reason}); usando código LAN")
  return none

def registerInternet (config : HostConfig) : HostM (Option InternetRegistration) := do
  let some internet := config.internet | return none
  match Client.new internet.rendezvousUrl with
  | .error e => logInternetFallback s!"rendezvous inválido: {e}"
  | .ok client =>
    match ← perform (.bindIroh internet.secretKey internet.relayUrl) with
    | .error e => logInternetFallback s!"transporte Iroh indisponível: {e}"
    | .ok () =>
      let id ← perform .sessionId
      let sessionId : SessionId := ⟨UInt64.ofNat id⟩
      match ← generateRendezvousCode sessionId with
      | .error e => logInternetFallback s!"código internet indisponível: {ConnectCodeError.message e}"
      | .ok code =>
        let endpoint ← perform .descriptor
        match ← perform (.register client ⟨sessionId, endpoint, some defaultTtlSecs⟩) with
        | .error e => logInternetFallback s!"registro rendezvous falhou: {e}"
        | .ok response =>
          let url := internet.rendezvousUrl
          let relay := internet.relayUrl
          let _ ← emit (.log s!"internet ativo: rendezvous {url}, relay {relay}")
          let endpoint ← perform .descriptor
          let task ← perform (.spawnRefresh client sessionId response.token endpoint)
          return some ⟨client, sessionId, response.token, code, task⟩

def unregisterInternet : Option InternetRegistration → HostM Unit
  | none => return ()
  | some registration => do
    perform (.abortRefresh registration.refreshTask)
    let _ ← perform (.unregister registration.client ⟨registration.sessionId, registration.token⟩)
    return ()

inductive AuthResult
  | accepted (viewerCodecs : List VideoCodec)
  | ended

abbrev Guard := BruteForceGuard IpAddr

def rejected (reason : String) : ControlMessage := .authResponse (.rejected reason)

def reject (c : Connection) (guard : Guard) (reason : String) : HostM (Guard × AuthResult) := do
  let _ ← send c (rejected reason)
  let peer := c.remoteLabel
  let _ ← emit (.log s!"rejected {peer}: {reason}")
  return (guard, .ended)

def awaitApproval (c : Connection) : HostM Bool := do
  let _ ← send c (.authResponse .pendingApproval)
  let _ ← emit (.approvalRequested c.request)
  match ← perform (.takeCommand c) with
  | some .approve => return true
  | _ =>
    let _ ← send c (rejected "host declined the connection")
    let peer := c.remoteLabel
    let _ ← emit (.log s!"declined {peer}")
    return false

/-- The end of `authenticate`, once the viewer is cleared. -/
def accept (c : Connection) (guard : Guard) (hello : Hello) : HostM (Guard × AuthResult) := do
  let guard := guard.recordSuccess c.remoteIp
  let sessionId ← perform .unixNanos
  if ← send c (.authResponse (.accepted sessionId)) then
    let peer := c.remoteLabel
    let _ ← emit (.log s!"accepted {peer}")
    return (guard, .accepted hello.supportedCodecs)
  else return (guard, .ended)

def judge (config : HostConfig) (c : Connection) (code : ConnectCode) (guard : Guard)
    (hello : Hello) (sessionCode : String) : HostM (Guard × AuthResult) := do
  let peer := c.remoteLabel
  let now ← perform .now
  let (decision, guard) := guard.check c.remoteIp now
  perform (.checked c now decision)
  match decision with
  | .blocked retryAfter =>
    let seconds := Timeline.asSecs retryAfter
    let _ ← send c (rejected s!"too many attempts; retry in {seconds}s")
    let _ ← emit (.log s!"blocked {peer}: brute-force backoff")
    return (guard, .ended)
  | .allow =>
    let ok := code.verify sessionCode
    perform (.compared c code sessionCode ok)
    if ok then
      if config.requireManualApproval then
        if ← awaitApproval c then accept c guard hello
        else return (guard, .ended)
      else accept c guard hello
    else
      let now ← perform .now
      let guard := guard.recordFailure c.remoteIp now
      let _ ← send c (rejected "invalid session code")
      let _ ← emit (.log s!"rejected {peer}: wrong code")
      return (guard, .ended)

def authenticate (config : HostConfig) (c : Connection) (code : ConnectCode) (guard : Guard) :
    HostM (Guard × AuthResult) := do
  let peer := c.remoteLabel
  let some (.hello hello) ← perform (.recvTimeout c)
    | reject c guard "handshake: expected Hello"
  let version := hello.protocolVersion
  if version ≠ protocolVersion then
    let _ ← send c (.error 1
      s!"protocol version {version} unsupported (host speaks {protocolVersion})")
    let _ ← emit (.log s!"rejected {peer}: protocol version {version}")
    return (guard, .ended)
  else
    let some (.authRequest sessionCode) ← perform (.recvTimeout c)
      | reject c guard "handshake: expected AuthRequest"
    judge config c code guard hello sessionCode

def supportedCodecs (h264 : Bool) : List VideoCodec :=
  if h264 then [.h264, .jpegTiles, .rawRgba] else [.jpegTiles, .rawRgba]

def VideoCodec.debug : VideoCodec → String
  | .rawRgba => "RawRgba"
  | .jpegTiles => "JpegTiles"
  | .h264 => "H264"

def newEncoder (h264 : Bool) (codec : VideoCodec) (maxFps : UInt32) : HostM (Except String Unit) :=
  match codec with
  | .h264 =>
    if h264 then perform (.newH264Encoder maxFps)
    else return .error s!"codec {VideoCodec.debug codec} is not supported by this build"
  | _ => return .ok ()

def selectedArm (monitors : List MonitorInfo) (active : Active) : Selected → Arm
  | .command command => commandArm active command
  | .message message => messageArm monitors active message

/-- Storing the id that is stored already changes nothing, so only a change is stored. -/
def storeActive (session : ℕ) (active next : Active) : HostM Unit :=
  if next.activeId = active.activeId then return ()
  else perform (.storeActive session next.activeId)

def forwardInput (session : ℕ) : Option InputAction → HostM Unit
  | none => return ()
  | some action => do
    let _ ← perform (.forward session action)

def sendReply (c : Connection) : Option ControlMessage → HostM Unit
  | none => return ()
  | some message => do
    let _ ← send c message

def performArm (c : Connection) (session : ℕ) (active : Active) : Arm → HostM (Active ⊕ String)
  | .exit reason => return .inr reason
  | .next next input reply => do
    storeActive session active next
    forwardInput session input
    sendReply c reply
    return .inl next

def controlLoop (c : Connection) (session : ℕ) (monitors : List MonitorInfo) (active : Active) :
    HostM String :=
  .repeatFrom active fun active => do
    let selected ← perform (.select c)
    performArm c session active (selectedArm monitors active selected)

def teardown (c : Connection) (session : ℕ) (reason : String) : HostM Unit := do
  perform (.stopCapture session)
  perform (.dropInput session)
  perform (.close c reason)
  perform (.joinCapture session)
  perform (.awaitMedia session)
  let _ ← emit (.sessionEnded reason)
  return ()

def streamAndControl (h264 : Bool) (config : HostConfig) (c : Connection)
    (viewerCodecs : List VideoCodec) : HostM Unit := do
  let codec := negotiateCodec config.codec (supportedCodecs h264) viewerCodecs
  match ← newEncoder h264 codec config.targetFps with
  | .error e =>
    let _ ← emit (.error s!"codec unavailable: {e}")
    perform (.close c "codec unavailable")
  | .ok () =>
    let _ ← emit (.log s!"negotiated codec: {VideoCodec.debug codec}")
    match ← perform (.createCapturer c) with
    | .error e =>
      let _ ← emit (.error s!"capture unavailable: {e}")
      perform (.close c "capture unavailable")
    | .ok () =>
      match ← perform (.listMonitors c) with
      | .ok (head :: rest) =>
        let active := firstMonitor head rest
        let _ ← send c (.monitorList (head :: rest))
        let _ ← emit (.sessionStarted c.remoteLabel)
        let session ← perform (.spawn c codec active.id)
        let reason ← controlLoop c session (head :: rest) ⟨active, active.id⟩
        teardown c session reason
      | _ =>
        let _ ← emit (.error "no monitors to capture")
        perform (.close c "no monitors")

def runSession (h264 : Bool) (config : HostConfig) (c : Connection) (code : ConnectCode)
    (guard : Guard) : HostM Guard := do
  let peer := c.remoteLabel
  match ← perform (.acceptControl c) with
  | .error e =>
    let _ ← emit (.error s!"no control stream from {peer}: {e}")
    return guard
  | .ok () =>
    match ← authenticate config c code guard with
    | (guard, .accepted viewerCodecs) =>
      streamAndControl h264 config c viewerCodecs
      return guard
    | (guard, .ended) =>
      perform (.close c "authentication failed")
      return guard

def acceptAny (registration : Option InternetRegistration) :
    HostM (Option (Except String Connection)) :=
  perform (.accept registration.isSome)

/-- A round of the accept loop from the moment it has a code. -/
def serve (h264 : Bool) (config : HostConfig) (registration : Option InternetRegistration)
    (code : ConnectCode) (guard : Guard) : HostM (Guard ⊕ Unit) := do
  if ← emit (.codeReady code.code) then
    match ← acceptAny registration with
    | some (.ok c) =>
      let guard ← runSession h264 config c code guard
      unregisterInternet registration
      return .inl guard
    | some (.error e) =>
      let _ ← emit (.error s!"accept failed: {e}")
      unregisterInternet registration
      return .inl guard
    | none =>
      unregisterInternet registration
      return .inr ()
  else return .inr ()

def run (h264 : Bool) (config : HostConfig) (advertised : SocketAddrV4) : HostM Unit :=
  .repeatFrom BruteForceGuard.new fun guard => do
    match ← registerInternet config with
    | some registration => serve h264 config (some registration) registration.code guard
    | none =>
      let code ← generateCode advertised
      serve h264 config none code guard

def start (h264 : Bool) (config : HostConfig) (port : UInt16) : HostM Unit :=
  run h264 config ⟨config.advertisedIp.getD 0x7F000001, port⟩

def sessionReply : ControlMessage → Bool
  | .resize _ _ => true
  | .pong _ => true
  | _ => false

theorem messageArm_reply {monitors : List MonitorInfo} {active next : Active}
    {message : Option ControlMessage} {input : Option InputAction} {m : ControlMessage}
    (h : messageArm monitors active message = .next next input (some m)) :
    sessionReply m = true := by
  cases message with
  | none => cases h
  | some message =>
    cases message with
    | selectMonitor monitorId =>
      simp only [messageArm] at h
      split at h <;> cases h
      rfl
    | ping nonce =>
      cases h
      rfl
    | _ => cases h

theorem commandArm_reply {active next : Active} {command : Option HostCommand}
    {input : Option InputAction} {m : ControlMessage}
    (h : commandArm active command = .next next input (some m)) : sessionReply m = true := by
  rcases command with _ | _ | _ | _ <;> cases h

def Effect.ofStream : Effect → Bool
  | .emit (.log _) => true
  | .emit (.error _) => true
  | .emit (.sessionStarted _) => true
  | .emit (.sessionEnded _) => true
  | .send _ (.authResponse _) => false
  | .send _ _ => true
  | .close _ _ => true
  | .newH264Encoder _ => true
  | .createCapturer _ => true
  | .listMonitors _ => true
  | .spawn _ _ _ => true
  | .select _ => true
  | .forward _ _ => true
  | .storeActive _ _ => true
  | .stopCapture _ => true
  | .dropInput _ => true
  | .joinCapture _ => true
  | .awaitMedia _ => true
  | _ => false

def Effect.ofVisit : Effect → Bool
  | .acceptControl _ => true
  | .recvTimeout _ => true
  | .now => true
  | .unixNanos => true
  | .checked _ _ _ => true
  | .compared _ _ _ _ => true
  | .takeCommand _ => true
  | .emit (.approvalRequested _) => true
  | .send _ _ => true
  | e => e.ofStream

def Effect.ofRegistration : Effect → Bool
  | .bindIroh _ _ => true
  | .sessionId => true
  | .drawSecret _ => true
  | .descriptor => true
  | .register _ _ => true
  | .emit (.log line) => "internet".toList.isPrefixOf line.toList
  | .spawnRefresh _ _ _ _ => true
  | .abortRefresh _ => true
  | .unregister _ _ => true
  | _ => false

theorem ofVisit_of_ofStream (e : Effect) (h : e.ofStream = true) : e.ofVisit = true := by
  unfold Effect.ofVisit
  split <;> first | rfl | exact h

abbrev Streams {R : Type} (p : HostM R) : Prop := p.Only (·.ofStream = true)
abbrev Visits {R : Type} (p : HostM R) : Prop := p.Only (·.ofVisit = true)
abbrev Registers {R : Type} (p : HostM R) : Prop := p.Only (·.ofRegistration = true)

theorem ofStream_of_sessionReply {c : Connection} {m : ControlMessage} (h : sessionReply m = true) :
    (Effect.send c m).ofStream = true := by
  cases m with
  | authResponse outcome => cases h
  | _ => rfl

section Only
variable {ok : Effect → Prop}

theorem only_newEncoder (h264 : Bool) (codec : VideoCodec) {maxFps : UInt32}
    (h : ok (.newH264Encoder maxFps)) : (newEncoder h264 codec maxFps).Only ok := by
  unfold newEncoder
  cases codec with
  | h264 => cases h264 <;> first | trivial | exact ⟨h, fun _ => trivial⟩
  | _ => trivial

theorem only_storeActive {session : ℕ} (active next : Active)
    (h : ∀ id, ok (.storeActive session id)) : (storeActive session active next).Only ok := by
  unfold storeActive
  split_ifs
  · trivial
  · exact ⟨h _, fun _ => trivial⟩

theorem only_forwardInput {session : ℕ} (input : Option InputAction)
    (h : ∀ action, ok (.forward session action)) : (forwardInput session input).Only ok := by
  cases input with
  | none => trivial
  | some action => exact ⟨h action, fun _ => trivial⟩

theorem only_performArm (c : Connection) (session : ℕ) (active : Active) {arm : Arm}
    (hstore : ∀ id, ok (.storeActive session id))
    (hforward : ∀ action, ok (.forward session action))
    (hreply : ∀ next input m, arm = .next next input (some m) → ok (.send c m)) :
    (performArm c session active arm).Only ok := by
  cases arm with
  | exit reason => trivial
  | next next input reply =>
    refine Prog.only_bind ?_ fun _ => Prog.only_bind ?_ fun _ => Prog.only_bind ?_ fun _ => trivial
    · exact only_storeActive active next hstore
    · exact only_forwardInput input hforward
    · cases reply with
      | none => trivial
      | some message => exact ⟨hreply next input message rfl, fun _ => trivial⟩

theorem only_controlLoop (c : Connection) (session : ℕ) (monitors : List MonitorInfo)
    (active : Active) (hselect : ok (.select c)) (hstore : ∀ id, ok (.storeActive session id))
    (hforward : ∀ action, ok (.forward session action))
    (hreply : ∀ m, sessionReply m = true → ok (.send c m)) :
    (controlLoop c session monitors active).Only ok := by
  refine Prog.only_repeatFrom fun active => Prog.only_call hselect fun selected => ?_
  refine only_performArm c session active hstore hforward fun next input m h => hreply m ?_
  cases selected with
  | command command => exact commandArm_reply h
  | message message => exact messageArm_reply h

end Only

theorem streams_teardown (c : Connection) (session : ℕ) (reason : String) :
    Streams (teardown c session reason) := by
  refine Prog.only_call rfl fun _ => Prog.only_call rfl fun _ => Prog.only_call rfl fun _ => ?_
  refine Prog.only_call rfl fun _ => Prog.only_call rfl fun _ => ?_
  exact Prog.only_call rfl fun _ => trivial

theorem streams_streamAndControl (h264 : Bool) (config : HostConfig) (c : Connection)
    (viewerCodecs : List VideoCodec) : Streams (streamAndControl h264 config c viewerCodecs) := by
  have hclose (message reason : String) : Streams (do
      let _ ← emit (.error message)
      perform (.close c reason)) := ⟨rfl, fun _ => ⟨rfl, fun _ => trivial⟩⟩
  refine Prog.only_bind (only_newEncoder h264 _ rfl) fun encoder => ?_
  cases encoder with
  | error e => exact hclose _ _
  | ok _ =>
    refine Prog.only_call rfl fun _ => Prog.only_call rfl fun created => ?_
    cases created with
    | error e => exact hclose _ _
    | ok _ =>
      refine Prog.only_call rfl fun monitors => ?_
      rcases monitors with e | _ | ⟨head, rest⟩
      · exact hclose _ _
      · exact hclose _ _
      · refine Prog.only_call rfl fun _ => Prog.only_call rfl fun _ => ?_
        refine Prog.only_call rfl fun session => ?_
        refine Prog.only_bind ?_ fun reason => streams_teardown c session reason
        exact only_controlLoop c session _ _ rfl (fun _ => rfl) (fun _ => rfl)
          fun m hm => ofStream_of_sessionReply hm

theorem visits_accept (c : Connection) (guard : Guard) (hello : Hello) :
    Visits (accept c guard hello) := by
  refine Prog.only_call rfl fun id => Prog.only_call rfl fun sent => ?_
  cases sent with
  | false => trivial
  | true => exact Prog.only_call rfl fun _ => trivial

theorem visits_reject (c : Connection) (guard : Guard) (reason : String) :
    Visits (reject c guard reason) :=
  Prog.only_call rfl fun _ => Prog.only_call rfl fun _ => trivial

theorem visits_awaitApproval (c : Connection) : Visits (awaitApproval c) := by
  refine Prog.only_call rfl fun _ => Prog.only_call rfl fun _ =>
    Prog.only_call rfl fun command => ?_
  split
  · trivial
  · exact Prog.only_call rfl fun _ => Prog.only_call rfl fun _ => trivial

theorem visits_judge (config : HostConfig) (c : Connection) (code : ConnectCode) (guard : Guard)
    (hello : Hello) (candidate : String) : Visits (judge config c code guard hello candidate) := by
  refine Prog.only_call rfl fun now => ?_
  cases guard.check c.remoteIp now with
  | mk decision guard =>
    refine Prog.only_call rfl fun _ => ?_
    cases decision with
    | blocked retryAfter => exact Prog.only_call rfl fun _ => Prog.only_call rfl fun _ => trivial
    | allow =>
      refine Prog.only_call rfl fun _ => ?_
      dsimp only
      split_ifs
      · refine Prog.only_bind (visits_awaitApproval c) fun ok => ?_
        cases ok with
        | false => trivial
        | true => exact visits_accept c guard hello
      · exact visits_accept c guard hello
      · refine Prog.only_call rfl fun _ => Prog.only_call rfl fun _ => ?_
        exact Prog.only_call rfl fun _ => trivial

theorem visits_authenticate (config : HostConfig) (c : Connection) (code : ConnectCode)
    (guard : Guard) : Visits (authenticate config c code guard) := by
  refine Prog.only_call rfl fun message => ?_
  split
  · dsimp only
    split_ifs
    · exact Prog.only_call rfl fun _ => Prog.only_call rfl fun _ => trivial
    · refine Prog.only_call rfl fun message => ?_
      split
      · exact visits_judge config c code guard _ _
      · exact visits_reject c guard _
  · exact visits_reject c guard _

theorem visits_runSession (h264 : Bool) (config : HostConfig) (c : Connection) (code : ConnectCode)
    (guard : Guard) : Visits (runSession h264 config c code guard) := by
  refine Prog.only_call rfl fun opened => ?_
  cases opened with
  | error e => exact Prog.only_call rfl fun _ => trivial
  | ok _ =>
    refine Prog.only_bind (visits_authenticate config c code guard) fun result => ?_
    rcases result with ⟨guard, viewerCodecs | _⟩
    · refine Prog.only_bind ?_ fun _ => trivial
      exact (streams_streamAndControl h264 config c viewerCodecs).mono ofVisit_of_ofStream
    · exact Prog.only_call rfl fun _ => trivial

theorem ofRegistration_append {line : String} (rest : String)
    (h : (Effect.emit (.log line)).ofRegistration = true) :
    (Effect.emit (.log (line ++ rest))).ofRegistration = true := by
  simp only [Effect.ofRegistration, List.isPrefixOf_iff_prefix] at h ⊢
  rw [String.toList_append]
  exact h.trans (List.prefix_append ..)

theorem registers_logInternetFallback (reason : String) :
    Registers (logInternetFallback reason) := by
  refine Prog.only_call ?_ fun _ => trivial
  exact ofRegistration_append _ (ofRegistration_append _ rfl)

theorem registers_registerInternet (config : HostConfig) : Registers (registerInternet config) := by
  unfold registerInternet
  cases config.internet with
  | none => trivial
  | some internet =>
    dsimp only
    cases Client.new internet.rendezvousUrl with
    | error e => exact registers_logInternetFallback _
    | ok client =>
      refine Prog.only_call rfl fun bound => ?_
      cases bound with
      | error e => exact registers_logInternetFallback _
      | ok _ =>
        have hcode (sessionId : SessionId) : Registers (generateRendezvousCode sessionId) :=
          Prog.only_call rfl fun _ => trivial
        refine Prog.only_call rfl fun id => Prog.only_bind (hcode _) fun code => ?_
        cases code with
        | error e => exact registers_logInternetFallback _
        | ok code =>
          refine Prog.only_call rfl fun endpoint => Prog.only_call rfl fun response => ?_
          cases response with
          | error e => exact registers_logInternetFallback _
          | ok response =>
            have hline (url relay : String) : (Effect.emit (.log
                s!"internet ativo: rendezvous {url}, relay {relay}")).ofRegistration = true :=
              ofRegistration_append _ (ofRegistration_append _ (ofRegistration_append _ rfl))
            refine Prog.only_call (hline _ _) fun _ => Prog.only_call rfl fun endpoint => ?_
            exact Prog.only_call rfl fun task => trivial

theorem registers_unregisterInternet (registration : Option InternetRegistration) :
    Registers (unregisterInternet registration) := by
  cases registration with
  | none => trivial
  | some registration => exact Prog.only_call rfl fun _ => Prog.only_call rfl fun _ => trivial

end Controlis.Host
