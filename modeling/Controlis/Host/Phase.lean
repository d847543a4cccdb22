import Controlis.Host.Program

/-!
# The protocol of the host task

What the host may do next depends on how far it got with the viewer at hand:
the phases of a round, the effects each of them allows, and the proof that the
host task follows this protocol. Logging, refusals and the rendezvous traffic
are quiet: every phase allows them and stays as it is.
-/

namespace Controlis.Host
open Protocol Security Session RateLimit Interaction

inductive Phase
  | idle
  | drawn (code : ConnectCode)
  | offering (code : ConnectCode)
  | greeting (c : Connection) (code : ConnectCode)
  | greeted (c : Connection) (code : ConnectCode)
  | presented (c : Connection) (code : ConnectCode) (candidate : String)
  | allowed (c : Connection) (code : ConnectCode) (candidate : String)
  | verified (c : Connection)
  | asked (c : Connection)
  | cleared (c : Connection)
  | admitted (c : Connection)
  | started (c : Connection)
  | streaming (c : Connection) (session : ℕ)
  | closed (session : ℕ)

def Effect.quiet : Effect → Bool
  | .bindIroh _ _ => true
  | .sessionId => true
  | .descriptor => true
  | .register _ _ => true
  | .spawnRefresh _ _ _ _ => true
  | .abortRefresh _ => true
  | .unregister _ _ => true
  | .emit (.log _) => true
  | .emit (.error _) => true
  | .acceptControl _ => true
  | .send _ (.authResponse (.rejected _)) => true
  | .send _ (.authResponse .pendingApproval) => true
  | .send _ (.error _ _) => true
  | .now => true
  | .unixNanos => true
  | .newH264Encoder _ => true
  | _ => false

def Phase.unoffered : Phase → Prop
  | .idle => True
  | .drawn _ => True
  | _ => False

/-- `manual` tells whether the host user approves every viewer. -/
inductive Step (manual : Bool) : Phase → (e : Effect) → e.Answer → Phase → Prop
  | quiet {φ e a} (h : e.quiet = true) : Step manual φ e a φ
  | draw {φ target secret} (h : φ.unoffered) : Step manual φ (.drawSecret target) secret
      (.drawn (assemble target (UInt32.ofNat secret)))
  | publish {code} : Step manual (.drawn code) (.emit (.codeReady code.code)) true (.offering code)
  | unheard {code} : Step manual (.drawn code) (.emit (.codeReady code.code)) false .idle
  | connect {code c internet} :
      Step manual (.offering code) (.accept internet) (some (.ok c)) (.greeting c code)
  | nobody {code internet a} (h : ∀ c, a ≠ some (.ok c)) :
      Step manual (.offering code) (.accept internet) a .idle
  | noControl {c code a} : Step manual (.greeting c code) (.acceptControl c) a .idle
  | hello {c code} {h : Hello} (hversion : h.protocolVersion = protocolVersion) :
      Step manual (.greeting c code) (.recvTimeout c) (some (.hello h)) (.greeted c code)
  | noHello {c code a} : Step manual (.greeting c code) (.recvTimeout c) a .idle
  | request {c code candidate} :
      Step manual (.greeted c code) (.recvTimeout c) (some (.authRequest candidate))
        (.presented c code candidate)
  | noRequest {c code a} : Step manual (.greeted c code) (.recvTimeout c) a .idle
  | allow {c code candidate now} :
      Step manual (.presented c code candidate) (.checked c now .allow) ()
        (.allowed c code candidate)
  | block {c code candidate now d} :
      Step manual (.presented c code candidate) (.checked c now (.blocked d)) () .idle
  | wrong {c code candidate} (h : code.verify candidate = false) :
      Step manual (.allowed c code candidate) (.compared c code candidate false) () .idle
  | right {c code candidate} (h : code.verify candidate = true) :
      Step manual (.allowed c code candidate) (.compared c code candidate true) ()
        (bif manual then .verified c else .cleared c)
  | ask {c b} (h : manual = true) :
      Step manual (.verified c) (.emit (.approvalRequested c.request)) b (.asked c)
  | approve {c} : Step manual (.asked c) (.takeCommand c) (some .approve) (.cleared c)
  | decline {c a} (h : a ≠ some .approve) : Step manual (.asked c) (.takeCommand c) a .idle
  | grant {c id} :
      Step manual (.cleared c) (.send c (.authResponse (.accepted id))) true (.admitted c)
  | lost {c id} : Step manual (.cleared c) (.send c (.authResponse (.accepted id))) false .idle
  | capturer {c a} : Step manual (.admitted c) (.createCapturer c) a (.admitted c)
  | listMonitors {c a} : Step manual (.admitted c) (.listMonitors c) a (.admitted c)
  | monitors {c ms b} : Step manual (.admitted c) (.send c (.monitorList ms)) b (.admitted c)
  | announce {c b} :
      Step manual (.admitted c) (.emit (.sessionStarted c.remoteLabel)) b (.started c)
  | spawn {c codec id s} : Step manual (.started c) (.spawn c codec id) s (.streaming c s)
  | select {c s a} : Step manual (.streaming c s) (.select c) a (.streaming c s)
  | forward {c s action b} : Step manual (.streaming c s) (.forward s action) b (.streaming c s)
  | storeActive {c s id} : Step manual (.streaming c s) (.storeActive s id) () (.streaming c s)
  | reply {c s m b} (h : sessionReply m = true) :
      Step manual (.streaming c s) (.send c m) b (.streaming c s)
  | stopCapture {c s} : Step manual (.streaming c s) (.stopCapture s) () (.streaming c s)
  | dropInput {c s} : Step manual (.streaming c s) (.dropInput s) () (.streaming c s)
  | hangUp {c reason} : Step manual .idle (.close c reason) () .idle
  | giveUp {c reason} : Step manual (.admitted c) (.close c reason) () .idle
  | leave {c s reason} : Step manual (.streaming c s) (.close c reason) () (.closed s)
  | joinCapture {s} : Step manual (.closed s) (.joinCapture s) () (.closed s)
  | awaitMedia {s} : Step manual (.closed s) (.awaitMedia s) () (.closed s)
  | sayEnded {s reason b} : Step manual (.closed s) (.emit (.sessionEnded reason)) b .idle

variable {manual : Bool} {φ : Phase} {c : Connection} {code : ConnectCode}

theorem follows_quiet {R : Type} {e : Effect} {f : e.Answer → HostM R} {post : R → Phase → Prop}
    (h : e.quiet = true) (hf : ∀ a, Follows (Step manual) (f a) post φ) :
    Follows (Step manual) (perform e >>= f) post φ :=
  follows_call.mpr fun a => ⟨φ, .quiet h, hf a⟩

theorem follows_generateCode (addr : SocketAddrV4) (h : φ.unoffered) :
    Follows (Step manual) (generateCode addr) (fun code φ => φ = .drawn code) φ :=
  follows_call.mpr fun _ => ⟨_, .draw h, rfl⟩

theorem follows_generateRendezvousCode (sessionId : Rendezvous.SessionId) (h : φ.unoffered) :
    Follows (Step manual) (generateRendezvousCode sessionId)
      (fun r φ => φ.unoffered ∧ ∀ code, r = .ok code → φ = .drawn code) φ := by
  refine follows_call.mpr fun secret => ⟨_, .draw h, trivial, fun code hcode => ?_⟩
  unfold generateRendezvous at hcode
  split_ifs at hcode
  cases hcode
  rfl

def Registered : Option InternetRegistration → Phase → Prop
  | some registration, φ => φ = .drawn registration.code
  | none, φ => φ.unoffered

theorem follows_registerInternet (config : HostConfig) :
    Follows (Step manual) (registerInternet config) Registered .idle := by
  have hfallback (reason : String) {φ : Phase} (h : φ.unoffered) :
      Follows (Step manual) (logInternetFallback reason) Registered φ :=
    follows_quiet rfl fun _ => h
  unfold registerInternet
  cases config.internet with
  | none => trivial
  | some internet =>
    dsimp only
    cases Client.new internet.rendezvousUrl with
    | error e => exact hfallback _ trivial
    | ok client =>
      refine follows_quiet rfl fun bound => ?_
      cases bound with
      | error e => exact hfallback _ trivial
      | ok _ =>
        refine follows_quiet rfl fun id => ?_
        refine (follows_generateRendezvousCode _ (show Phase.idle.unoffered from trivial)).bind ?_
        rintro (e | code) φ ⟨hφ, hcode⟩
        · exact hfallback _ hφ
        · obtain rfl := hcode code rfl
          refine follows_quiet rfl fun endpoint => ?_
          refine follows_quiet rfl fun response => ?_
          cases response with
          | error e => exact hfallback _ trivial
          | ok response =>
            refine follows_quiet rfl fun _ => ?_
            refine follows_quiet rfl fun endpoint => ?_
            exact follows_quiet rfl fun task => rfl

theorem follows_unregisterInternet (registration : Option InternetRegistration) :
    Follows (Step manual) (unregisterInternet registration) (fun _ φ' => φ' = φ) φ := by
  cases registration with
  | none => rfl
  | some registration =>
    refine follows_quiet rfl fun _ => ?_
    exact follows_quiet rfl fun _ => rfl

def Judged (c : Connection) : Guard × AuthResult → Phase → Prop
  | (_, .accepted _), φ => φ = .admitted c
  | (_, .ended), φ => φ = .idle

theorem follows_reject (guard : Guard) (reason : String) :
    Follows (Step manual) (reject c guard reason) (Judged c) .idle := by
  refine follows_quiet rfl fun _ => ?_
  exact follows_quiet rfl fun _ => rfl

theorem follows_awaitApproval (h : manual = true) :
    Follows (Step manual) (awaitApproval c)
      (fun ok φ => φ = bif ok then .cleared c else .idle) (.verified c) := by
  refine follows_quiet rfl fun _ => ?_
  refine follows_call.mpr fun _ => ⟨_, .ask h, follows_call.mpr fun command => ?_⟩
  have hdecline (hne : command ≠ some .approve) : ∃ φ, Step manual (.asked c) (.takeCommand c)
      command φ ∧ Follows (Step manual) (do
        let _ ← send c (rejected "host declined the connection")
        let peer := c.remoteLabel
        let _ ← emit (.log s!"declined {peer}")
        return false) (fun ok φ => φ = bif ok then .cleared c else .idle) φ := by
    refine ⟨.idle, .decline hne, follows_quiet rfl fun _ => ?_⟩
    exact follows_quiet rfl fun _ => rfl
  rcases command with _ | _ | _ | _
  · exact hdecline (by simp)
  · exact ⟨_, .approve, rfl⟩
  · exact hdecline (by simp)
  · exact hdecline (by simp)

theorem follows_accept (guard : Guard) (hello : Hello) :
    Follows (Step manual) (accept c guard hello) (Judged c) (.cleared c) := by
  refine follows_quiet rfl fun id => ?_
  refine follows_call.mpr fun sent => ?_
  cases sent with
  | false => exact ⟨_, .lost, rfl⟩
  | true => exact ⟨_, .grant, follows_quiet rfl fun _ => rfl⟩

theorem follows_judge (config : HostConfig) (guard : Guard) (hello : Hello) (candidate : String) :
    Follows (Step config.requireManualApproval) (judge config c code guard hello candidate)
      (Judged c) (.presented c code candidate) := by
  refine follows_quiet rfl fun now => ?_
  cases hcheck : guard.check c.remoteIp now with
  | mk decision guard =>
    refine follows_call.mpr fun _ => ?_
    cases decision with
    | blocked d =>
      refine ⟨_, .block, follows_quiet rfl fun _ => ?_⟩
      exact follows_quiet rfl fun _ => rfl
    | allow =>
      refine ⟨_, .allow, follows_call.mpr fun _ => ?_⟩
      cases hverify : code.verify candidate with
      | false =>
        refine ⟨_, .wrong hverify, follows_quiet rfl fun now => ?_⟩
        refine follows_quiet rfl fun _ => ?_
        exact follows_quiet rfl fun _ => rfl
      | true =>
        refine ⟨_, .right hverify, ?_⟩
        cases hmanual : config.requireManualApproval with
        | false => exact follows_accept guard hello
        | true =>
          refine (follows_awaitApproval rfl).bind ?_
          rintro ok φ rfl
          cases ok with
          | false => rfl
          | true => exact follows_accept guard hello

theorem follows_authenticate (config : HostConfig) (guard : Guard) :
    Follows (Step config.requireManualApproval) (authenticate config c code guard) (Judged c)
      (.greeting c code) := by
  refine follows_call.mpr fun message => ?_
  have hnoHello (message : Option ControlMessage) :
      ∃ φ, Step config.requireManualApproval (.greeting c code) (.recvTimeout c) message φ ∧
        Follows (Step config.requireManualApproval)
          (reject c guard "handshake: expected Hello") (Judged c) φ :=
    ⟨_, .noHello, follows_reject guard _⟩
  rcases message with _ | message
  · exact hnoHello none
  cases message with
  | hello h =>
    by_cases hversion : h.protocolVersion = protocolVersion
    · refine ⟨_, .hello hversion, ?_⟩
      dsimp only
      rw [if_neg (not_not.mpr hversion)]
      refine follows_call.mpr fun message => ?_
      have hnoRequest (message : Option ControlMessage) :
          ∃ φ, Step config.requireManualApproval (.greeted c code) (.recvTimeout c) message φ ∧
            Follows (Step config.requireManualApproval)
              (reject c guard "handshake: expected AuthRequest") (Judged c) φ :=
        ⟨_, .noRequest, follows_reject guard _⟩
      rcases message with _ | message
      · exact hnoRequest none
      cases message with
      | authRequest candidate => exact ⟨_, .request, follows_judge config guard h candidate⟩
      | _ => exact hnoRequest _
    · refine ⟨_, .noHello, ?_⟩
      dsimp only
      rw [if_pos hversion]
      refine follows_quiet rfl fun _ => ?_
      exact follows_quiet rfl fun _ => rfl
  | _ => exact hnoHello _

theorem follows_newEncoder {h264 : Bool} (codec : VideoCodec) (maxFps : UInt32) :
    Follows (Step manual) (newEncoder h264 codec maxFps) (fun _ φ' => φ' = φ) φ := by
  have hquiet : (newEncoder h264 codec maxFps).Only (·.quiet = true) :=
    only_newEncoder h264 codec rfl
  exact Follows.of_only hquiet fun _ _ he => .quiet he

theorem follows_performArm {s : ℕ} {active : Active} {arm : Arm}
    (hreply : ∀ next input m, arm = .next next input (some m) → sessionReply m = true) :
    Follows (Step manual) (performArm c s active arm) (fun _ φ => φ = .streaming c s)
      (.streaming c s) := by
  cases arm with
  | exit reason => rfl
  | next next input reply =>
    have hstore : Follows (Step manual) (storeActive s active next)
        (fun _ φ => φ = .streaming c s) (.streaming c s) := by
      unfold storeActive
      split_ifs with hid
      · rfl
      · exact fun _ => ⟨_, .storeActive, rfl⟩
    have hforward : Follows (Step manual) (forwardInput s input)
        (fun _ φ => φ = .streaming c s) (.streaming c s) := by
      cases input with
      | none => rfl
      | some action => exact fun _ => ⟨_, .forward, rfl⟩
    have hsend : Follows (Step manual) (sendReply c reply)
        (fun _ φ => φ = .streaming c s) (.streaming c s) := by
      cases reply with
      | none => rfl
      | some m => exact fun _ => ⟨_, .reply (hreply next input m rfl), rfl⟩
    refine hstore.bind fun _ φ hφ => ?_
    subst hφ
    refine hforward.bind fun _ φ hφ => ?_
    subst hφ
    exact hsend.bind fun _ φ hφ => hφ

theorem follows_controlLoop (s : ℕ) (monitors : List MonitorInfo) (active : Active) :
    Follows (Step manual) (controlLoop c s monitors active) (fun _ φ => φ = .streaming c s)
      (.streaming c s) := by
  refine Follows.repeatFrom rfl fun active φ hφ => ?_
  subst hφ
  refine follows_call.mpr fun selected => ⟨_, .select, follows_performArm ?_⟩
  intro next input m h
  cases selected with
  | command command => exact commandArm_reply h
  | message message => exact messageArm_reply h

theorem follows_teardown (session : ℕ) (reason : String) :
    Follows (Step manual) (teardown c session reason) (fun _ φ => φ = .idle)
      (.streaming c session) := by
  refine follows_call.mpr fun _ => ⟨_, .stopCapture, ?_⟩
  refine follows_call.mpr fun _ => ⟨_, .dropInput, ?_⟩
  refine follows_call.mpr fun _ => ⟨_, .leave, ?_⟩
  refine follows_call.mpr fun _ => ⟨_, .joinCapture, ?_⟩
  refine follows_call.mpr fun _ => ⟨_, .awaitMedia, ?_⟩
  exact follows_call.mpr fun _ => ⟨_, .sayEnded, rfl⟩

theorem follows_streamAndControl {h264 : Bool} (config : HostConfig)
    (viewerCodecs : List VideoCodec) :
    Follows (Step manual) (streamAndControl h264 config c viewerCodecs) (fun _ φ => φ = .idle)
      (.admitted c) := by
  refine (follows_newEncoder _ _).bind ?_
  rintro (e | _) φ rfl
  · refine follows_quiet rfl fun _ => ?_
    exact fun _ => ⟨_, .giveUp, rfl⟩
  refine follows_quiet rfl fun _ => ?_
  refine follows_call.mpr fun created => ⟨_, .capturer, ?_⟩
  rcases created with e | _
  · refine follows_quiet rfl fun _ => ?_
    exact fun _ => ⟨_, .giveUp, rfl⟩
  refine follows_call.mpr fun listed => ⟨_, .listMonitors, ?_⟩
  rcases listed with e | _ | ⟨head, rest⟩
  · refine follows_quiet rfl fun _ => ?_
    exact fun _ => ⟨_, .giveUp, rfl⟩
  · refine follows_quiet rfl fun _ => ?_
    exact fun _ => ⟨_, .giveUp, rfl⟩
  refine follows_call.mpr fun _ => ⟨_, .monitors, ?_⟩
  refine follows_call.mpr fun _ => ⟨_, .announce, ?_⟩
  refine follows_call.mpr fun session => ⟨_, .spawn, ?_⟩
  refine (follows_controlLoop session _ _).bind ?_
  rintro reason φ rfl
  exact follows_teardown session reason

theorem follows_runSession {h264 : Bool} (config : HostConfig) (guard : Guard) :
    Follows (Step config.requireManualApproval) (runSession h264 config c code guard)
      (fun _ φ => φ = .idle) (.greeting c code) := by
  refine follows_call.mpr fun accepted => ?_
  cases accepted with
  | error e => exact ⟨_, .noControl, follows_quiet rfl fun _ => rfl⟩
  | ok _ =>
    refine ⟨_, .quiet rfl, (follows_authenticate config guard).bind ?_⟩
    rintro ⟨guard, _ | _⟩ φ rfl
    · refine (follows_streamAndControl config _).bind ?_
      rintro _ φ rfl
      rfl
    · exact follows_call.mpr fun _ => ⟨_, .hangUp, rfl⟩

theorem follows_serve {h264 : Bool} (config : HostConfig)
    (registration : Option InternetRegistration) (guard : Guard) :
    Follows (Step config.requireManualApproval) (serve h264 config registration code guard)
      (fun _ φ => φ = .idle) (.drawn code) := by
  refine follows_call.mpr fun heard => ?_
  cases heard with
  | false => exact ⟨_, .unheard, rfl⟩
  | true =>
    refine ⟨_, .publish, follows_call.mpr fun accepted => ?_⟩
    have hunregister {r : Guard ⊕ Unit} :
        Follows (Step config.requireManualApproval) (do
          unregisterInternet registration
          return r) (fun _ φ => φ = .idle) .idle := by
      refine (follows_unregisterInternet registration).bind ?_
      rintro _ φ rfl
      rfl
    rcases accepted with _ | e | c
    · exact ⟨_, .nobody (by simp), hunregister⟩
    · exact ⟨_, .nobody (by simp), follows_quiet rfl fun _ => hunregister⟩
    · refine ⟨_, .connect, (follows_runSession config guard).bind ?_⟩
      rintro guard φ rfl
      exact hunregister

theorem follows_run {h264 : Bool} (config : HostConfig) (advertised : SocketAddrV4) :
    Follows (Step config.requireManualApproval) (run h264 config advertised) (fun _ φ => φ = .idle)
      .idle := by
  refine Follows.repeatFrom rfl fun guard φ hφ => ?_
  subst hφ
  refine (follows_registerInternet config).bind ?_
  rintro (_ | registration) φ hφ
  · refine (follows_generateCode advertised hφ).bind ?_
    rintro code φ rfl
    exact follows_serve config none guard
  · obtain rfl := hφ
    exact follows_serve config (some registration) guard

end Controlis.Host
