import Controlis.Host.Program

/-!
# The handshake of viewer and host

One connection, with the viewer's `connectOver` at one end and the host's
`runSession` at the other. The control stream delivers messages in order, after
any delay; either side may close it, and it may be lost at any moment. The
viewer is a state machine that waits in one place at a time. The log keeps the
host's effects, what the viewer returned, timeouts and cuts.
-/

namespace Controlis.Viewer.Handshake
open Protocol Host Session Interaction

inductive ViewerError
  | rejected (reason : String)
  | incompatibleProtocol
  | unexpectedMessage
  | transport
deriving DecidableEq, Repr

inductive Stage
  | openControl
  | sendHello
  | sendAuthRequest
  | recvOutcome
  | recvMonitors
  | returned (result : Except ViewerError (List MonitorInfo))

def hello (h264 : Bool) : ControlMessage :=
  .hello ⟨protocolVersion, "0.1.0", .viewer, supportedCodecs h264⟩

def outcome : ControlMessage → Stage
  | .authResponse (.accepted _) => .recvMonitors
  | .authResponse .pendingApproval => .recvOutcome
  | .authResponse (.rejected reason) => .returned (.error (.rejected reason))
  | .error _ _ => .returned (.error .incompatibleProtocol)
  | _ => .returned (.error .unexpectedMessage)

def monitorsOf : ControlMessage → List MonitorInfo
  | .monitorList monitors => monitors
  | _ => []

inductive Entry
  | host (e : Effect) (answer : e.Answer)
  | returned (result : Except ViewerError (List MonitorInfo))
  | timedOut
  | cut

/-- The stream is over: lost, closed by the host, or dropped by a viewer that gave up. -/
def Entry.endsStream : Entry → Bool
  | .cut => true
  | .host (.close _ _) _ => true
  | .returned (.error _) => true
  | _ => false

structure World where
  viewer : Stage
  toHost : List ControlMessage
  toViewer : List ControlMessage
  expired : Bool
  log : List Entry

def World.start : World := ⟨.openControl, [], [], false, []⟩

def World.lost (w : World) : Bool := w.log.any Entry.endsStream

def World.record (w : World) (x : Entry) : World := { w with log := w.log ++ [x] }

def World.deliver (w : World) (m : ControlMessage) : Option World :=
  match w.toHost with
  | [] => none
  | m' :: rest => if m' = m then some { w with toHost := rest } else none

/-- A read fails when the stream is over, and the handshake timer ends it too. A send may fail at
any time; then nothing reaches the viewer. All other answers are arbitrary. -/
def World.settle (w : World) : (e : Effect) → e.Answer → Option World
  | .recvTimeout _, some m => w.deliver m
  | .recvTimeout _, none => if w.expired || w.lost then some w else none
  | .select _, .message (some m) => w.deliver m
  | .select _, .message none => if w.lost then some w else none
  | .send _ m, sent => some (if sent then { w with toViewer := w.toViewer ++ [m] } else w)
  | _, _ => some w

def World.respond (w : World) (e : Effect) (a : e.Answer) : Option World :=
  (w.settle e a).map (·.record (.host e a))

inductive Drift
  /-- The viewer's next operation succeeds, as soon as there is a message to receive. -/
  | viewer
  | viewerFails
  /-- A connected viewer sends whatever the user does. -/
  | input (m : ControlMessage)
  | expire
  | cut

def World.goTo (w : World) : Stage → World
  | .returned result => { w with viewer := .returned result }.record (.returned result)
  | viewer => { w with viewer := viewer }

def World.say (w : World) (m : ControlMessage) (viewer : Stage) : World :=
  { w with toHost := w.toHost ++ [m], viewer := viewer }

def World.hear (w : World) (next : ControlMessage → Stage) : World :=
  match w.toViewer with
  | [] => w
  | m :: rest => { w with toViewer := rest }.goTo (next m)

def World.connectOver (h264 : Bool) (code : String) (w : World) : World :=
  match w.viewer with
  | .openControl => { w with viewer := .sendHello }
  | .sendHello => w.say (hello h264) .sendAuthRequest
  | .sendAuthRequest => w.say (.authRequest code) .recvOutcome
  | .recvOutcome => w.hear outcome
  | .recvMonitors => w.hear fun m => .returned (.ok (monitorsOf m))
  | .returned _ => w

def World.drift (h264 : Bool) (code : String) (w : World) : Drift → World
  | .viewer => w.connectOver h264 code
  | .viewerFails =>
    match w.viewer with
    | .returned _ => w
    | _ => w.goTo (.returned (.error .transport))
  | .input m =>
    match w.viewer with
    | .returned (.ok _) => { w with toHost := w.toHost ++ [m] }
    | _ => w
  | .expire => { w with expired := true }.record .timedOut
  | .cut => w.record .cut

def machine (h264 : Bool) (code : String) : Machine Effect Effect.Answer World Drift :=
  ⟨World.respond, World.drift h264 code⟩

def Interrupted (log : List Entry) : Prop := ∃ x ∈ log, x = .timedOut ∨ x.endsStream = true

def handshakeReasons : List String :=
  ["handshake: expected Hello", "handshake: expected AuthRequest"]

/-- What each side may conclude, given what has happened so far. -/
def Agreed (c : Connection) (log : List Entry) : Entry → Prop
  | .returned (.error .unexpectedMessage) => False
  | .returned (.error .incompatibleProtocol) => False
  | .returned (.ok monitors) =>
    (∃ id, .host (.send c (.authResponse (.accepted id))) true ∈ log) ∧
      .host (.listMonitors c) (.ok monitors) ∈ log ∧ monitors ≠ []
  | .host (.send _ (.authResponse (.rejected reason))) _ =>
    reason ∈ handshakeReasons → Interrupted log
  | _ => True

inductive Phase
  | expectHello
  | expectAuthRequest
  | missing
  | judging
  | refused (sent : List ControlMessage)
  | admitted (sent : List ControlMessage)
  | listed (id : UInt64) (head : MonitorInfo) (rest : List MonitorInfo)
  | answering
  /-- The viewer said something that `connect_over` does not say. -/
  | garbled

def silent : Effect → Bool
  | .recvTimeout _ => false
  | .send _ _ => false
  | .listMonitors _ => false
  | .select _ => false
  | _ => true

def accepted (id : UInt64) : ControlMessage := .authResponse (.accepted id)

def ifSent (sent : Bool) (m : ControlMessage) : List ControlMessage := if sent then [m] else []

inductive Step (c : Connection) : Phase → (e : Effect) → e.Answer → Phase → Prop
  | silent {φ e a} (h : silent e = true) : Step c φ e a φ
  | hello {h : Hello} (hversion : h.protocolVersion = protocolVersion) :
      Step c .expectHello (.recvTimeout c) (some (.hello h)) .expectAuthRequest
  | noHello : Step c .expectHello (.recvTimeout c) none .missing
  | strangeHello {m} (hm : ∀ h, m = .hello h → h.protocolVersion ≠ protocolVersion) :
      Step c .expectHello (.recvTimeout c) (some m) .garbled
  | request {code} : Step c .expectAuthRequest (.recvTimeout c) (some (.authRequest code)) .judging
  | noRequest : Step c .expectAuthRequest (.recvTimeout c) none .missing
  | strangeRequest {m} (hm : ∀ code, m ≠ .authRequest code) :
      Step c .expectAuthRequest (.recvTimeout c) (some m) .garbled
  | rejectMissing {reason b} :
      Step c .missing (.send c (rejected reason)) b (.refused (ifSent b (rejected reason)))
  | reject {reason b} (h : reason ∉ handshakeReasons) :
      Step c .judging (.send c (rejected reason)) b (.refused (ifSent b (rejected reason)))
  | pending {b} : Step c .judging (.send c (.authResponse .pendingApproval)) b .judging
  | accept {id} : Step c .judging (.send c (accepted id)) true (.admitted [accepted id])
  | lost {id} : Step c .judging (.send c (accepted id)) false (.refused [])
  | monitors {id head rest} : Step c (.admitted [accepted id]) (.listMonitors c)
      (.ok (head :: rest)) (.listed id head rest)
  | noMonitors {sent a} : Step c (.admitted sent) (.listMonitors c) a (.admitted sent)
  | announce {id head rest b} : Step c (.listed id head rest)
      (.send c (.monitorList (head :: rest))) b
      (.admitted ([accepted id] ++ ifSent b (.monitorList (head :: rest))))
  | select {sent a} (h : ∀ m, a ≠ .message (some m)) :
      Step c (.admitted sent) (.select c) a (.admitted sent)
  | read {sent m} : Step c (.admitted sent) (.select c) (.message (some m)) .answering
  | readOn {a} : Step c .answering (.select c) a .answering
  | reply {m b} (h : sessionReply m = true) : Step c .answering (.send c m) b .answering
  | garbled {e a} : Step c .garbled e a .garbled

variable {c : Connection} {φ : Phase}

abbrev Silent {R : Type} (p : HostM R) : Prop := p.Only (silent · = true)

theorem follows_silent {R : Type} {p : HostM R} (hp : Silent p) :
    Follows (Step c) p (fun _ φ' => φ' = φ) φ :=
  Follows.of_only hp fun _ _ he => .silent he

theorem follows_silently {R : Type} {e : Effect} {f : e.Answer → HostM R} {post : R → Phase → Prop}
    (h : silent e = true) (hf : ∀ a, Follows (Step c) (f a) post φ) :
    Follows (Step c) (perform e >>= f) post φ :=
  follows_call.mpr fun a => ⟨φ, .silent h, hf a⟩

/-- Nothing is promised to a viewer that does not speak the protocol. -/
theorem follows_garbled {R : Type} (p : HostM R) :
    Follows (Step c) p (fun _ φ => φ = .garbled) .garbled := by
  have hany : p.Only fun _ => True := by
    induction p with
    | ret r => trivial
    | call e k ih => exact ⟨trivial, ih⟩
    | loop body s k ihbody ihk => exact ⟨ihbody, ihk⟩
  exact Follows.of_only hany fun _ _ _ => .garbled

def Judged : Guard × AuthResult → Phase → Prop
  | (_, .accepted _), φ => (∃ id, φ = .admitted [accepted id]) ∨ φ = .garbled
  | (_, .ended), _ => True

theorem judged_garbled (r : Guard × AuthResult) : Judged r .garbled := by
  obtain ⟨guard, _ | _⟩ := r
  · exact .inr rfl
  · trivial

theorem follows_reject (guard : Guard) (reason : String) :
    Follows (Step c) (reject c guard reason) Judged .missing :=
  follows_call.mpr fun _ => ⟨_, .rejectMissing, follows_silently rfl fun _ => trivial⟩

theorem follows_accept (guard : Guard) (hello : Hello) :
    Follows (Step c) (Host.accept c guard hello) Judged .judging := by
  refine follows_silently rfl fun id => follows_call.mpr fun sent => ?_
  cases sent with
  | false => exact ⟨_, .lost, trivial⟩
  | true => exact ⟨_, .accept, follows_silently rfl fun _ => .inl ⟨id, rfl⟩⟩

theorem follows_awaitApproval :
    Follows (Step c) (awaitApproval c) (fun ok φ => ok = true → φ = .judging) .judging := by
  refine follows_call.mpr fun _ => ⟨_, .pending, follows_silently rfl fun _ => ?_⟩
  refine follows_silently rfl fun command => ?_
  split
  · exact fun _ => rfl
  · refine follows_call.mpr fun _ => ⟨_, .reject (by decide), follows_silently rfl fun _ => ?_⟩
    exact fun hok => nomatch hok

theorem blocked_reason (seconds : ℕ) :
    s!"too many attempts; retry in {seconds}s" ∉ handshakeReasons := by
  intro h
  simp only [handshakeReasons, List.mem_cons, List.not_mem_nil, or_false] at h
  rcases h with h | h
  all_goals
    change "too many attempts; retry in " ++ toString seconds ++ "s" = _ at h
    have hhead := congrArg (·.toList.head?) h
    simp [String.toList_append] at hhead

theorem follows_judge (config : HostConfig) (code : Security.ConnectCode) (guard : Guard)
    (hello : Hello) (candidate : String) :
    Follows (Step c) (judge config c code guard hello candidate) Judged .judging := by
  refine follows_silently rfl fun now => ?_
  cases guard.check c.remoteIp now with
  | mk decision guard =>
    refine follows_silently rfl fun _ => ?_
    cases decision with
    | blocked retryAfter =>
      refine follows_call.mpr fun _ => ⟨_, .reject (blocked_reason _), ?_⟩
      exact follows_silently rfl fun _ => trivial
    | allow =>
      refine follows_silently rfl fun _ => ?_
      dsimp only
      split_ifs
      · refine follows_awaitApproval.bind fun ok φ hφ => ?_
        cases ok with
        | false => trivial
        | true =>
          rw [hφ rfl]
          exact follows_accept guard hello
      · exact follows_accept guard hello
      · refine follows_silently rfl fun _ => ?_
        refine follows_call.mpr fun _ => ⟨_, .reject (by decide), ?_⟩
        exact follows_silently rfl fun _ => trivial

theorem follows_authenticate (config : HostConfig) (code : Security.ConnectCode) (guard : Guard) :
    Follows (Step c) (authenticate config c code guard) Judged .expectHello := by
  have hgarbled (p : HostM (Guard × AuthResult)) : Follows (Step c) p Judged .garbled := by
    refine (follows_garbled p).mono ?_
    rintro r φ rfl
    exact judged_garbled r
  refine follows_call.mpr fun message => ?_
  rcases message with _ | message
  · exact ⟨_, .noHello, follows_reject guard _⟩
  cases message with
  | hello h =>
    by_cases hversion : h.protocolVersion = protocolVersion
    · refine ⟨_, .hello hversion, ?_⟩
      dsimp only
      rw [if_neg (not_not.mpr hversion)]
      refine follows_call.mpr fun message => ?_
      rcases message with _ | message
      · exact ⟨_, .noRequest, follows_reject guard _⟩
      cases message with
      | authRequest candidate => exact ⟨_, .request, follows_judge config code guard h candidate⟩
      | _ => exact ⟨_, .strangeRequest (by simp), hgarbled _⟩
    · refine ⟨_, .strangeHello ?_, hgarbled _⟩
      rintro _ ⟨⟩
      exact hversion
  | _ => exact ⟨_, .strangeHello (by simp), hgarbled _⟩

def InSession (φ : Phase) : Prop := (∃ sent, φ = .admitted sent) ∨ φ = .answering

theorem silent_teardown (session : ℕ) (reason : String) : Silent (teardown c session reason) := by
  refine Prog.only_call rfl fun _ => Prog.only_call rfl fun _ => Prog.only_call rfl fun _ => ?_
  refine Prog.only_call rfl fun _ => Prog.only_call rfl fun _ => ?_
  exact Prog.only_call rfl fun _ => trivial

theorem follows_performArm {session : ℕ} {active : Active} {arm : Arm}
    (hφ : InSession φ) (hreply : ∀ next input m, arm = .next next input (some m) →
      φ = .answering ∧ sessionReply m = true) :
    Follows (Step c) (performArm c session active arm) (fun _ φ => InSession φ) φ := by
  cases arm with
  | exit reason => exact hφ
  | next next input reply =>
    refine (follows_silent (only_storeActive active next fun _ => rfl)).bind ?_
    rintro _ φ rfl
    refine (follows_silent (only_forwardInput input fun _ => rfl)).bind ?_
    rintro _ φ rfl
    cases reply with
    | none => exact hφ
    | some m =>
      obtain ⟨rfl, hm⟩ := hreply next input m rfl
      have hsend : Follows (Step c) (sendReply c (some m)) (fun _ φ => φ = .answering) .answering :=
        fun _ => ⟨_, .reply hm, rfl⟩
      refine hsend.bind ?_
      rintro _ φ rfl
      exact hφ

theorem follows_controlLoop (session : ℕ) (monitors : List MonitorInfo) (active : Active)
    (hφ : InSession φ) :
    Follows (Step c) (controlLoop c session monitors active) (fun _ φ => InSession φ) φ := by
  refine Follows.repeatFrom hφ fun active φ hφ => follows_call.mpr fun selected => ?_
  rcases hφ with ⟨sent, rfl⟩ | rfl
  · cases selected with
    | command command =>
      refine ⟨_, .select (by simp), follows_performArm (.inl ⟨sent, rfl⟩) ?_⟩
      rintro next input m h
      rcases command with _ | _ | _ | _ <;> cases h
    | message message =>
      cases message with
      | none =>
        refine ⟨_, .select (by simp), follows_performArm (.inl ⟨sent, rfl⟩) ?_⟩
        rintro next input m ⟨⟩
      | some message =>
        refine ⟨_, .read, follows_performArm (.inr rfl) fun next input m h => ⟨rfl, ?_⟩⟩
        exact messageArm_reply h
  · refine ⟨_, .readOn, follows_performArm (.inr rfl) fun next input m h => ⟨rfl, ?_⟩⟩
    cases selected with
    | command command => exact commandArm_reply h
    | message message => exact messageArm_reply h

theorem follows_streamAndControl (h264 : Bool) (config : HostConfig)
    (viewerCodecs : List VideoCodec) (id : UInt64) :
    Follows (Step c) (streamAndControl h264 config c viewerCodecs) (fun _ _ => True)
      (.admitted [accepted id]) := by
  have hclose {φ : Phase} (message reason : String) : Follows (Step c) (do
      let _ ← emit (.error message)
      perform (.close c reason)) (fun _ _ => True) φ :=
    follows_silently rfl fun _ => fun _ => ⟨φ, .silent rfl, trivial⟩
  refine (follows_silent (only_newEncoder h264 _ rfl)).bind ?_
  rintro (e | _) φ rfl
  · exact hclose _ _
  refine follows_silently rfl fun _ => follows_silently rfl fun created => ?_
  rcases created with e | _
  · exact hclose _ _
  refine follows_call.mpr fun monitors => ?_
  rcases monitors with e | _ | ⟨head, rest⟩
  · exact ⟨_, .noMonitors, hclose _ _⟩
  · exact ⟨_, .noMonitors, hclose _ _⟩
  refine ⟨_, .monitors, follows_call.mpr fun _ => ⟨_, .announce, ?_⟩⟩
  refine follows_silently rfl fun _ => follows_silently rfl fun session => ?_
  refine (follows_controlLoop session _ _ (.inl ⟨_, rfl⟩)).bind fun reason φ _ => ?_
  exact (follows_silent (silent_teardown session reason)).mono fun _ _ _ => trivial

theorem follows_runSession (h264 : Bool) (config : HostConfig) (code : Security.ConnectCode)
    (guard : Guard) :
    Follows (Step c) (runSession h264 config c code guard) (fun _ _ => True) .expectHello := by
  refine follows_silently rfl fun opened => ?_
  cases opened with
  | error e => exact follows_silently rfl fun _ => trivial
  | ok _ =>
    refine (follows_authenticate config code guard).bind ?_
    rintro ⟨guard, viewerCodecs | _⟩ φ hφ
    · rcases hφ with ⟨id, rfl⟩ | rfl
      · exact (follows_streamAndControl h264 config viewerCodecs id).bind fun _ _ _ => trivial
      · exact (follows_garbled _).mono fun _ _ _ => trivial
    · exact follows_silently rfl fun _ => trivial

end Controlis.Viewer.Handshake
