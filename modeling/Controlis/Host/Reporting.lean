import Controlis.Host.AuditLog

/-!
# How the host reports a round

A round starts when a code is shown. Its viewer is refused or cleared on the way
through the handshake, a refusal is told in one audited line, and a viewer who
was cleared is announced unless the session fails before it starts. The phases
follow the viewer that far, and the host task keeps to them.
-/

namespace Controlis.Host
open Protocol Security Session RateLimit Interaction

/-- `over` and `failed` end a round, the latter after the viewer was cleared. -/
inductive Reporting
  | idle
  | offered
  | greeting (c : Connection)
  | greeted (c : Connection)
  | presented (c : Connection)
  | allowed (c : Connection)
  | verified (c : Connection)
  | asked (c : Connection)
  | refused
  | cleared (c : Connection)
  | admitted (c : Connection)
  | failed
  | live (c : Connection)
  | over

def Reporting.told : Reporting → Bool
  | .idle => true
  | .offered => true
  | .greeting _ => true
  | .failed => true
  | .over => true
  | _ => false

def Effect.silent : Effect → Bool
  | .emit (.error _) => true
  | .emit (.log line) => !auditedLine line
  | .emit _ => false
  | .accept _ => false
  | .recvTimeout _ => false
  | .checked _ _ _ => false
  | .compared _ _ _ _ => false
  | .takeCommand _ => false
  | .send _ (.authResponse (.accepted _)) => false
  | .newH264Encoder _ => false
  | .createCapturer _ => false
  | .listMonitors _ => false
  | _ => true

def greets : Option ControlMessage → Bool
  | some (.hello h) => h.protocolVersion = protocolVersion
  | _ => false

def presents : Option ControlMessage → Bool
  | some (.authRequest _) => true
  | _ => false

def Entry.breaks : Entry → Bool
  | .host (.send _ (.authResponse (.accepted _))) sent => !sent
  | .host (.newH264Encoder _) (.error _) => true
  | .host (.createCapturer _) (.error _) => true
  | .host (.listMonitors _) (.ok (_ :: _)) => false
  | .host (.listMonitors _) _ => true
  | _ => false

inductive ReportStep (manual : Bool) : Reporting → (e : Effect) → e.Answer → Reporting → Prop
  | silent {φ e a} (h : e.silent = true) : ReportStep manual φ e a φ
  | offer {φ code b} (h : φ.told = true) : ReportStep manual φ (.emit (.codeReady code)) b .offered
  | connect {internet c} :
      ReportStep manual .offered (.accept internet) (some (.ok c)) (.greeting c)
  | nobody {internet a} (h : ∀ c, a ≠ some (.ok c)) :
      ReportStep manual .offered (.accept internet) a .offered
  | hello {c a} (h : greets a = true) :
      ReportStep manual (.greeting c) (.recvTimeout c) a (.greeted c)
  | noHello {c a} (h : greets a = false) :
      ReportStep manual (.greeting c) (.recvTimeout c) a .refused
  | request {c a} (h : presents a = true) :
      ReportStep manual (.greeted c) (.recvTimeout c) a (.presented c)
  | noRequest {c a} (h : presents a = false) :
      ReportStep manual (.greeted c) (.recvTimeout c) a .refused
  | allow {c now} : ReportStep manual (.presented c) (.checked c now .allow) () (.allowed c)
  | block {c now d} : ReportStep manual (.presented c) (.checked c now (.blocked d)) () .refused
  | right {c code candidate} :
      ReportStep manual (.allowed c) (.compared c code candidate true) ()
        (bif manual then .verified c else .cleared c)
  | wrong {c code candidate} :
      ReportStep manual (.allowed c) (.compared c code candidate false) () .refused
  | ask {c b} (h : manual = true) :
      ReportStep manual (.verified c) (.emit (.approvalRequested c.request)) b (.asked c)
  | approve {c} : ReportStep manual (.asked c) (.takeCommand c) (some .approve) (.cleared c)
  | decline {c a} (h : a ≠ some .approve) :
      ReportStep manual (.asked c) (.takeCommand c) a .refused
  | refuse {line b} (h : auditedLine line = true) :
      ReportStep manual .refused (.emit (.log line)) b .over
  | grant {c id} :
      ReportStep manual (.cleared c) (.send c (.authResponse (.accepted id))) true (.admitted c)
  | lose {c e a} (h : (Entry.host e a).breaks = true) : ReportStep manual (.cleared c) e a .failed
  | prepare {c e a}
      (he : e = .createCapturer c ∨ e = .listMonitors c ∨ ∃ fps, e = .newH264Encoder fps)
      (h : (Entry.host e a).breaks = false) : ReportStep manual (.admitted c) e a (.admitted c)
  | fail {c e a} (h : (Entry.host e a).breaks = true) : ReportStep manual (.admitted c) e a .failed
  | announce {c b} :
      ReportStep manual (.admitted c) (.emit (.sessionStarted c.remoteLabel)) b (.live c)
  | finish {c reason b} : ReportStep manual (.live c) (.emit (.sessionEnded reason)) b .over

variable {manual : Bool} {φ : Reporting} {c : Connection} {code : ConnectCode}

theorem reports_silent {R : Type} {e : Effect} {f : e.Answer → HostM R}
    {post : R → Reporting → Prop} (h : e.silent = true) (hf : ∀ a, Follows (ReportStep manual) (f a) post φ) :
    Follows (ReportStep manual) (perform e >>= f) post φ :=
  follows_call.mpr fun a => ⟨φ, .silent h, hf a⟩

theorem silent_log {line : String} (pattern : String) {a : Char} {as : List Char}
    (hline : startsWith line pattern = true) (hpattern : pattern.toList = a :: as)
    (h : a ≠ 'r' ∧ a ≠ 'b' ∧ a ≠ 'd') : (Effect.emit (.log line)).silent = true := by
  simp [Effect.silent, auditedLine_of_startsWith pattern hline hpattern h]

theorem silent_of_ofRegistration (e : Effect) (h : e.ofRegistration = true) : e.silent = true := by
  cases e with
  | emit event =>
    cases event with
    | log line => exact silent_log "internet" h rfl (by decide)
    | _ => cases h
  | accept | recvTimeout | checked | compared | takeCommand => cases h
  | send | newH264Encoder | createCapturer | listMonitors => cases h
  | _ => rfl

theorem reports_registration {R : Type} {p : HostM R} (hp : Registers p) :
    Follows (ReportStep manual) p (fun _ φ' => φ' = φ) φ :=
  Follows.of_only hp fun e _ he => .silent (silent_of_ofRegistration e he)

def Answered (c : Connection) : Guard × AuthResult → Reporting → Prop
  | (_, .accepted _), φ => φ = .admitted c
  | (_, .ended), φ => φ.told = true

theorem reports_refusal {R : Type} {line : String} {r : R} {post : R → Reporting → Prop}
    (h : auditedLine line = true) (hpost : post r .over) :
    Follows (ReportStep manual) (do
      let _ ← emit (.log line)
      return r) post .refused :=
  follows_call.mpr fun _ => ⟨_, .refuse h, hpost⟩

theorem reports_reject (guard : Guard) (reason : String) :
    Follows (ReportStep manual) (reject c guard reason) (Answered c) .refused := by
  refine reports_silent rfl fun _ => reports_refusal ?_ rfl
  exact auditedLine_append _ (auditedLine_append _ (auditedLine_append _ rfl))

theorem reports_awaitApproval (h : manual = true) :
    Follows (ReportStep manual) (awaitApproval c)
      (fun ok φ => φ = bif ok then .cleared c else .over) (.verified c) := by
  refine reports_silent rfl fun _ => ?_
  refine follows_call.mpr fun _ => ⟨_, .ask h, follows_call.mpr fun command => ?_⟩
  have hdecline (hne : command ≠ some .approve) : ∃ φ, ReportStep manual (.asked c) (.takeCommand c)
      command φ ∧ Follows (ReportStep manual) (do
        let _ ← send c (rejected "host declined the connection")
        let peer := c.remoteLabel
        let _ ← emit (.log s!"declined {peer}")
        return false) (fun ok φ => φ = bif ok then .cleared c else .over) φ := by
    refine ⟨.refused, .decline hne, reports_silent rfl fun _ => reports_refusal ?_ rfl⟩
    exact auditedLine_append _ rfl
  rcases command with _ | _ | _ | _
  · exact hdecline (by simp)
  · exact ⟨_, .approve, rfl⟩
  · exact hdecline (by simp)
  · exact hdecline (by simp)

theorem reports_accept (guard : Guard) (hello : Hello) :
    Follows (ReportStep manual) (accept c guard hello) (Answered c) (.cleared c) := by
  refine reports_silent rfl fun id => ?_
  refine follows_call.mpr fun sent => ?_
  cases sent with
  | false => exact ⟨_, .lose rfl, rfl⟩
  | true =>
    refine ⟨_, .grant, reports_silent ?_ fun _ => rfl⟩
    exact silent_log "accepted" (startsWith_append _ rfl) rfl (by decide)

theorem reports_judge (config : HostConfig) (guard : Guard) (hello : Hello) (candidate : String) :
    Follows (ReportStep config.requireManualApproval) (judge config c code guard hello candidate)
      (Answered c) (.presented c) := by
  refine reports_silent rfl fun now => ?_
  cases hcheck : guard.check c.remoteIp now with
  | mk decision guard =>
    refine follows_call.mpr fun _ => ?_
    cases decision with
    | blocked d =>
      refine ⟨_, .block, reports_silent rfl fun _ => reports_refusal ?_ rfl⟩
      exact auditedLine_append _ (auditedLine_append _ rfl)
    | allow =>
      refine ⟨_, .allow, follows_call.mpr fun _ => ?_⟩
      cases hverify : code.verify candidate with
      | false =>
        refine ⟨_, .wrong, reports_silent rfl fun now => ?_⟩
        refine reports_silent rfl fun _ => reports_refusal ?_ rfl
        exact auditedLine_append _ (auditedLine_append _ rfl)
      | true =>
        refine ⟨_, .right, ?_⟩
        cases hmanual : config.requireManualApproval with
        | false => exact reports_accept guard hello
        | true =>
          refine (reports_awaitApproval rfl).bind ?_
          rintro ok φ rfl
          cases ok with
          | false => rfl
          | true => exact reports_accept guard hello

theorem reports_authenticate (config : HostConfig) (guard : Guard) :
    Follows (ReportStep config.requireManualApproval) (authenticate config c code guard)
      (Answered c) (.greeting c) := by
  refine follows_call.mpr fun message => ?_
  split
  · next hello =>
    by_cases hversion : hello.protocolVersion = protocolVersion
    · refine ⟨_, .hello (by simpa [greets] using hversion), ?_⟩
      dsimp only
      rw [if_neg (not_not.mpr hversion)]
      refine follows_call.mpr fun message => ?_
      split
      · exact ⟨_, .request rfl, reports_judge config guard hello _⟩
      · next hnone =>
        refine ⟨_, .noRequest ?_, reports_reject guard _⟩
        unfold presents
        split
        · next candidate => exact absurd rfl (hnone candidate)
        · rfl
    · refine ⟨_, .noHello (by simpa [greets] using hversion), ?_⟩
      dsimp only
      rw [if_pos hversion]
      refine reports_silent rfl fun _ => reports_refusal ?_ rfl
      exact auditedLine_append _ (auditedLine_append _ (auditedLine_append _ rfl))
  · next hnone =>
    refine ⟨_, .noHello ?_, reports_reject guard _⟩
    unfold greets
    split
    · next hello => exact absurd rfl (hnone hello)
    · rfl

/-- Negotiation picks a codec of this build, so the encoder only fails for want of a device. -/
theorem negotiateCodec_supported {codec : VideoCodec} {viewerCodecs : List VideoCodec}
    (h : negotiateCodec codec (supportedCodecs false) viewerCodecs = .h264) : False := by
  unfold negotiateCodec at h
  split_ifs at h with hboth
  · rw [h] at hboth
    exact absurd hboth.1 (by decide)
  · cases hfind : (supportedCodecs false).find? (· ∈ viewerCodecs) with
    | none =>
      rw [hfind] at h
      cases h
    | some found =>
      have hmem : found ∈ supportedCodecs false := List.mem_of_find?_eq_some hfind
      rw [hfind] at h
      obtain rfl : found = .h264 := h
      exact absurd hmem (by decide)

def Prepared (c : Connection) : Except String Unit → Reporting → Prop
  | .ok _, φ => φ = .admitted c
  | .error _, φ => φ = .failed

theorem reports_newEncoder {h264 : Bool} {viewerCodecs : List VideoCodec} (codec : VideoCodec)
    (maxFps : UInt32) :
    Follows (ReportStep manual)
      (newEncoder h264 (negotiateCodec codec (supportedCodecs h264) viewerCodecs) maxFps)
      (Prepared c) (.admitted c) := by
  unfold newEncoder
  split
  · next hcodec =>
    cases h264 with
    | false => exact (negotiateCodec_supported hcodec).elim
    | true =>
      refine fun created => ?_
      cases created with
      | error e => exact ⟨_, .fail rfl, rfl⟩
      | ok _ => exact ⟨_, .prepare (.inr (.inr ⟨_, rfl⟩)) rfl, rfl⟩
  · rfl

theorem silent_of_sessionReply {m : ControlMessage} (h : sessionReply m = true) :
    (Effect.send c m).silent = true := by
  cases m with
  | authResponse outcome => cases h
  | _ => rfl

theorem reports_controlLoop (s : ℕ) (monitors : List MonitorInfo) (active : Active) :
    Follows (ReportStep manual) (controlLoop c s monitors active) (fun _ φ' => φ' = φ) φ := by
  have hsilent : (controlLoop c s monitors active).Only (·.silent = true) :=
    only_controlLoop c s monitors active rfl (fun _ => rfl) (fun _ => rfl)
      fun m hm => silent_of_sessionReply hm
  exact Follows.of_only hsilent fun _ _ he => .silent he

theorem reports_teardown (session : ℕ) (reason : String) :
    Follows (ReportStep manual) (teardown c session reason) (fun _ φ => φ.told = true)
      (.live c) := by
  refine reports_silent rfl fun _ => reports_silent rfl fun _ => ?_
  refine reports_silent rfl fun _ => reports_silent rfl fun _ => ?_
  refine reports_silent rfl fun _ => ?_
  exact follows_call.mpr fun _ => ⟨_, .finish, rfl⟩

theorem reports_giveUp (message reason : String) :
    Follows (ReportStep manual) (do
      let _ ← emit (.error message)
      perform (.close c reason)) (fun _ φ => φ.told = true) .failed := by
  refine reports_silent rfl fun _ => ?_
  exact fun _ => ⟨_, .silent rfl, rfl⟩

theorem reports_streamAndControl {h264 : Bool} (config : HostConfig)
    (viewerCodecs : List VideoCodec) :
    Follows (ReportStep manual) (streamAndControl h264 config c viewerCodecs)
      (fun _ φ => φ.told = true) (.admitted c) := by
  refine (reports_newEncoder config.codec _).bind ?_
  rintro (e | _) φ rfl
  · exact reports_giveUp _ _
  refine reports_silent ?_ fun _ => follows_call.mpr fun created => ?_
  · exact silent_log "negotiated" (startsWith_append _ rfl) rfl (by decide)
  rcases created with e | _
  · exact ⟨_, .fail rfl, reports_giveUp _ _⟩
  refine ⟨_, .prepare (.inl rfl) rfl, follows_call.mpr fun listed => ?_⟩
  rcases listed with e | _ | ⟨head, rest⟩
  · exact ⟨_, .fail rfl, reports_giveUp _ _⟩
  · exact ⟨_, .fail rfl, reports_giveUp _ _⟩
  refine ⟨_, .prepare (.inr (.inl rfl)) rfl, reports_silent rfl fun _ => ?_⟩
  refine follows_call.mpr fun _ => ⟨_, .announce, reports_silent rfl fun session => ?_⟩
  refine (reports_controlLoop session _ _).bind ?_
  rintro reason φ rfl
  exact reports_teardown session reason

theorem reports_runSession {h264 : Bool} (config : HostConfig) (guard : Guard) :
    Follows (ReportStep config.requireManualApproval) (runSession h264 config c code guard)
      (fun _ φ => φ.told = true) (.greeting c) := by
  refine reports_silent rfl fun accepted => ?_
  cases accepted with
  | error e => exact reports_silent rfl fun _ => rfl
  | ok _ =>
    refine (reports_authenticate config guard).bind ?_
    rintro ⟨guard, _ | _⟩ φ hφ
    · obtain rfl := hφ
      exact (reports_streamAndControl config _).bind fun _ φ hφ => hφ
    · exact reports_silent rfl fun _ => hφ

theorem reports_serve {h264 : Bool} (config : HostConfig)
    (registration : Option InternetRegistration) (guard : Guard) (hφ : φ.told = true) :
    Follows (ReportStep config.requireManualApproval) (serve h264 config registration code guard)
      (fun _ φ => φ.told = true) φ := by
  have hunregister {r : Guard ⊕ Unit} {φ : Reporting} (hφ : φ.told = true) :
      Follows (ReportStep config.requireManualApproval) (do
        unregisterInternet registration
        return r) (fun _ φ => φ.told = true) φ := by
    refine (reports_registration (registers_unregisterInternet registration)).bind ?_
    rintro _ φ rfl
    exact hφ
  refine follows_call.mpr fun heard => ⟨_, .offer hφ, ?_⟩
  cases heard with
  | false => rfl
  | true =>
    refine follows_call.mpr fun accepted => ?_
    rcases accepted with _ | e | c
    · exact ⟨_, .nobody (by simp), hunregister rfl⟩
    · exact ⟨_, .nobody (by simp), reports_silent rfl fun _ => hunregister rfl⟩
    · refine ⟨_, .connect, (reports_runSession config guard).bind ?_⟩
      exact fun guard φ hφ => hunregister hφ

theorem reports_run {h264 : Bool} (config : HostConfig) (advertised : SocketAddrV4) :
    Follows (ReportStep config.requireManualApproval) (run h264 config advertised)
      (fun _ φ => φ.told = true) .idle := by
  refine Follows.repeatFrom rfl fun guard φ hφ => ?_
  refine (reports_registration (registers_registerInternet config)).bind ?_
  rintro (_ | registration) φ rfl
  · refine (show Follows (ReportStep config.requireManualApproval) (generateCode advertised)
      (fun _ φ' => φ' = φ) φ from fun _ => ⟨φ, .silent rfl, rfl⟩).bind ?_
    rintro code φ rfl
    exact reports_serve config none guard hφ
  · exact reports_serve config (some registration) guard hφ

end Controlis.Host
