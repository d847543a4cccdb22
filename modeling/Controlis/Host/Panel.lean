import Controlis.Host.EventTrace

/-!
# What the user at the host sees

`pump_events` forwards the events of the host to the panel of the app: the code to
read out, a dialog while a viewer asks for approval, a banner while a session runs,
and a log. Seen from the panel the host task only has to keep its events in step with
what it does. It captures and sends the screen only while the banner names the viewer,
and it takes the user's decision only while the dialog does.
-/

namespace Controlis.Host
open Protocol Security Session Interaction

inductive HostUiEvent
  | codeReady (code : String)
  | approvalRequested (peerAddr : String) (fingerprint : Option String)
  | sessionStarted (peerAddr : String)
  | sessionEnded (reason : String)
  | log (line : String)
  | error (message : String)
  | stopped
deriving DecidableEq, Repr

def HostEvent.ui : HostEvent → HostUiEvent
  | .codeReady code => .codeReady code
  | .approvalRequested request => .approvalRequested request.peerAddr request.fingerprint
  | .sessionStarted peerAddr => .sessionStarted peerAddr
  | .sessionEnded reason => .sessionEnded reason
  | .log line => .log line
  | .error message => .error message

structure HostPanel.Pending where
  peerAddr : String
  fingerprint : Option String
deriving DecidableEq, Repr

structure HostPanel where
  code : Option String
  pending : Option HostPanel.Pending
  sessionPeer : Option String
  log : List String
deriving DecidableEq, Repr

def maxLogLines : ℕ := 200

namespace HostPanel

def mounted : HostPanel := ⟨none, none, none, []⟩

def pushLog (p : HostPanel) (line : String) : HostPanel :=
  { p with log := (line :: p.log).take maxLogLines }

def onEvent (p : HostPanel) : HostUiEvent → HostPanel
  | .codeReady code => { p with code := some code, sessionPeer := none, pending := none }
  | .approvalRequested peerAddr fingerprint =>
    { p with pending := some ⟨peerAddr, fingerprint⟩ }
  | .sessionStarted peerAddr => { p with pending := none, sessionPeer := some peerAddr }
  | .sessionEnded reason => { p with sessionPeer := none }.pushLog s!"Sessão encerrada: {reason}"
  | .log line => p.pushLog line
  | .error message => p.pushLog s!"Erro: {message}"
  | .stopped => p

def after (events : List HostEvent) : HostPanel :=
  events.foldl (fun p event => p.onEvent event.ui) mounted

end HostPanel

def HostEvent.line : HostEvent → Option String
  | .sessionEnded reason => some s!"Sessão encerrada: {reason}"
  | .log line => some line
  | .error message => some s!"Erro: {message}"
  | _ => none

variable {p : HostPanel} {event : HostEvent} {events : List HostEvent}

theorem after_snoc (events : List HostEvent) (event : HostEvent) :
    HostPanel.after (events ++ [event]) = (HostPanel.after events).onEvent event.ui := by
  simp [HostPanel.after]

theorem take_cons_take (x : String) (xs : List String) (n : ℕ) :
    (x :: xs.take n).take n = (x :: xs).take n := by
  cases n with
  | zero => rfl
  | succ n => simp [List.take_take]

theorem log_after (events : List HostEvent) :
    (HostPanel.after events).log = (events.filterMap HostEvent.line).reverse.take maxLogLines := by
  induction events using List.reverseRecOn with
  | nil => rfl
  | append_singleton events event ih =>
    rw [after_snoc, List.filterMap_append, List.reverse_append]
    have hpush (line : String) (hline : event.line = some line)
        (hlog : ((HostPanel.after events).onEvent event.ui).log =
          (line :: (HostPanel.after events).log).take maxLogLines) :
        ((HostPanel.after events).onEvent event.ui).log =
          (([event].filterMap HostEvent.line).reverse ++
            (events.filterMap HostEvent.line).reverse).take maxLogLines := by
      rw [hlog, ih, take_cons_take, List.filterMap_cons_some hline]
      rfl
    cases event with
    | sessionEnded reason => exact hpush _ rfl rfl
    | log line => exact hpush _ rfl rfl
    | error message => exact hpush _ rfl rfl
    | codeReady code => exact ih
    | approvalRequested request => exact ih
    | sessionStarted peerAddr => exact ih

def HostPanel.unlogged (p : HostPanel) : HostPanel := { p with log := [] }

theorem unlogged_onEvent (p : HostPanel) (event : HostUiEvent) :
    (p.onEvent event).unlogged = (p.unlogged.onEvent event).unlogged := by
  cases event <;> rfl

theorem unlogged_of_plain (p : HostPanel) (h : event.milestone = false) :
    (p.onEvent event.ui).unlogged = p.unlogged := by
  cases event with
  | log line => rfl
  | error message => rfl
  | _ => cases h

theorem after_milestones (events : List HostEvent) :
    (HostPanel.after events).unlogged =
      (HostPanel.after (events.filter (·.milestone))).unlogged := by
  induction events using List.reverseRecOn with
  | nil => rfl
  | append_singleton events event ih =>
    rw [after_snoc, List.filter_append]
    cases hm : event.milestone with
    | false =>
      rw [unlogged_of_plain _ hm, List.filter_singleton, hm]
      simpa using ih
    | true =>
      rw [List.filter_singleton, hm, unlogged_onEvent, ih, ← unlogged_onEvent]
      exact congrArg HostPanel.unlogged (after_snoc _ _).symm

/-- What the panel shows once it was handed the events of the log. -/
def shownAfter (log : List Entry) : HostPanel := HostPanel.after (milestones log)

def Connection.pending (c : Connection) : HostPanel.Pending := ⟨c.remoteLabel, c.peerFingerprint⟩

/-- The panel while the host task is in a phase. A dialog stays up after the decision, until
the session starts or the next code is shown. -/
def Phase.Shows (p : HostPanel) : Phase → Prop
  | .idle => p.sessionPeer = none
  | .drawn _ => p.sessionPeer = none
  | .offering code => p.code = some code.code ∧ p.pending = none ∧ p.sessionPeer = none
  | .greeting _ code => p.code = some code.code ∧ p.pending = none ∧ p.sessionPeer = none
  | .greeted _ code => p.code = some code.code ∧ p.pending = none ∧ p.sessionPeer = none
  | .presented _ code _ => p.code = some code.code ∧ p.pending = none ∧ p.sessionPeer = none
  | .allowed _ code _ => p.code = some code.code ∧ p.pending = none ∧ p.sessionPeer = none
  | .verified _ => p.pending = none ∧ p.sessionPeer = none
  | .asked c => p.pending = some c.pending ∧ p.sessionPeer = none
  | .cleared _ => p.sessionPeer = none
  | .admitted _ => p.sessionPeer = none
  | .started c => p.pending = none ∧ p.sessionPeer = some c.remoteLabel
  | .streaming c _ => p.pending = none ∧ p.sessionPeer = some c.remoteLabel
  | .closed _ => True

/-- Waiting for a viewer, comparing what it presents, taking the user's decision and serving it
are each done before a panel that says so. -/
def Entry.Announced (p : HostPanel) : Entry → Prop
  | .host (.accept _) _ => p.code.isSome ∧ p.pending = none ∧ p.sessionPeer = none
  | .host (.compared _ code _ _) _ =>
    p.code = some code.code ∧ p.pending = none ∧ p.sessionPeer = none
  | .host (.takeCommand c) _ => p.pending = some c.pending ∧ p.sessionPeer = none
  | .host (.select c) _ => p.pending = none ∧ p.sessionPeer = some c.remoteLabel
  | _ => True

section Decisions
variable {manual : Bool} {φ φ' : Phase} {e : Effect} {a : e.Answer} {log : List Entry} {x : Entry}

theorem shownAfter_still (h : ∀ event, x.event = some event → event.milestone = false) :
    shownAfter (log ++ [x]) = shownAfter log := by
  have hnone : x.event.toList.filter (·.milestone) = [] := by
    cases hx : x.event with
    | none => rfl
    | some event => simp [h event hx]
  rw [shownAfter, milestones_snoc, hnone, List.append_nil, shownAfter]

theorem shownAfter_none (h : x.event = none) : shownAfter (log ++ [x]) = shownAfter log := by
  refine shownAfter_still fun event hevent => ?_
  rw [h] at hevent
  cases hevent

theorem shownAfter_emit (log : List Entry) (event : HostEvent) (heard : Bool)
    (h : event.milestone = true) :
    shownAfter (log ++ [.host (.emit event) heard]) = (shownAfter log).onEvent event.ui := by
  have hevent : (Entry.host (.emit event) heard).event.toList.filter (·.milestone) = [event] := by
    simp [Entry.event, h]
  rw [shownAfter, milestones_snoc, hevent, after_snoc, shownAfter]

theorem shownAfter_quiet (h : e.quiet = true) :
    shownAfter (log ++ [.host e a]) = shownAfter log := by
  refine shownAfter_still fun event hevent => ?_
  cases e with
  | emit event' =>
    obtain rfl : event' = event := by simpa [Entry.event] using hevent
    cases event' with
    | log line => rfl
    | error message => rfl
    | _ => cases h
  | _ => cases hevent

theorem shows_unoffered (hφ : φ.unoffered) (h : φ.Shows p) : p.sessionPeer = none := by
  cases φ with
  | idle => exact h
  | drawn code => exact h
  | _ => exact hφ.elim

theorem shows_step (h : φ.Shows (shownAfter log)) (hstep : Step manual φ e a φ') :
    φ'.Shows (shownAfter (log ++ [.host e a])) := by
  have hsame (hx : (Entry.host e a).event = none) (hshows : φ'.Shows (shownAfter log)) :
      φ'.Shows (shownAfter (log ++ [.host e a])) := by
    rw [shownAfter_none hx]
    exact hshows
  cases hstep with
  | quiet hq =>
    rw [shownAfter_quiet hq]
    exact h
  | draw hφ => exact hsame rfl (shows_unoffered hφ h)
  | publish =>
    rw [shownAfter_emit log _ true rfl]
    exact ⟨rfl, rfl, rfl⟩
  | unheard =>
    rw [shownAfter_emit log _ false rfl]
    rfl
  | right => cases manual <;> exact hsame rfl (by first | exact h.2 | exact h.2.2)
  | ask hmanual =>
    rw [shownAfter_emit log _ _ rfl]
    exact ⟨rfl, h.2⟩
  | approve => exact hsame rfl h.2
  | decline _ => exact hsame rfl h.2
  | announce =>
    rw [shownAfter_emit log _ _ rfl]
    exact ⟨rfl, rfl⟩
  | sayEnded =>
    rw [shownAfter_emit log _ _ rfl]
    rfl
  | nobody _ | noControl | noHello | noRequest | block | wrong _ => exact hsame rfl h.2.2
  | leave | joinCapture | awaitMedia => exact hsame rfl trivial
  | _ => exact hsame rfl h

theorem announced_step (h : φ.Shows (shownAfter log)) (hstep : Step manual φ e a φ') :
    (Entry.host e a).Announced (shownAfter log) := by
  cases hstep with
  | quiet hq =>
    cases e with
    | accept | compared | takeCommand | select => cases hq
    | _ => trivial
  | connect => exact ⟨by rw [h.1]; rfl, h.2⟩
  | nobody _ => exact ⟨by rw [h.1]; rfl, h.2⟩
  | wrong _ => exact h
  | right => exact h
  | approve => exact h
  | decline _ => exact h
  | select => exact h
  | _ => trivial

theorem machine_shows : machine.Keeps (Step manual) World.log
    (fun φ w => φ.Shows (shownAfter w.log)) (fun before x => x.Announced (shownAfter before)) where
  respond := by
    intro φ φ' w w' e a h hstep hrespond
    obtain ⟨v, -, hsettled, rfl⟩ := respond_spec hrespond
    rw [hsettled.record_log]
    exact ⟨shows_step h hstep, .inr ⟨_, rfl, announced_step h hstep⟩⟩
  drift := by
    intro φ w d h
    rcases (drift_spec w d).plain with hsame | ⟨x, hx, hforeign, hplain⟩
    · rw [machine, hsame]
      exact ⟨h, .inl rfl⟩
    · rw [machine, hx, shownAfter_still fun event hevent => (hplain event hevent).1]
      refine ⟨h, .inr ⟨x, rfl, ?_⟩⟩
      cases x with
      | host e a => cases hforeign
      | _ => trivial

end Decisions

/-- What the host task has of a session: announced, running, and then torn down thread by
thread. -/
inductive Airing
  | off
  | announced (c : Connection)
  | live (c : Connection) (session : ℕ)
  | joined (c : Connection) (session : ℕ)
  | drained (c : Connection)

def Effect.airs : Effect → Bool
  | .emit (.sessionStarted _) => true
  | .emit (.sessionEnded _) => true
  | .spawn _ _ _ => true
  | .forward _ _ => true
  | .joinCapture _ => true
  | .awaitMedia _ => true
  | _ => false

def Effect.heralds : Effect → Bool
  | .emit event => event.milestone
  | _ => false

inductive AirStep : Airing → (e : Effect) → e.Answer → Airing → Prop
  | calm {e a} (h : e.airs = false) : AirStep .off e a .off
  | plain {φ e a} (h : e.airs = false) (h' : e.heralds = false) : AirStep φ e a φ
  | announce {c b} : AirStep .off (.emit (.sessionStarted c.remoteLabel)) b (.announced c)
  | spawn {c codec id s} : AirStep (.announced c) (.spawn c codec id) s (.live c s)
  | forward {c s action b} : AirStep (.live c s) (.forward s action) b (.live c s)
  | join {c s} : AirStep (.live c s) (.joinCapture s) () (.joined c s)
  | await {c s} : AirStep (.joined c s) (.awaitMedia s) () (.drained c)
  | finish {c reason b} : AirStep (.drained c) (.emit (.sessionEnded reason)) b .off

theorem airs_plain {R : Type} {e : Effect} {f : e.Answer → HostM R} {post : R → Airing → Prop}
    {φ : Airing} (h : e.airs = false) (h' : e.heralds = false)
    (hf : ∀ a, Follows AirStep (f a) post φ) : Follows AirStep (perform e >>= f) post φ :=
  follows_call.mpr fun a => ⟨φ, .plain h h', hf a⟩

theorem airs_calm {R : Type} {p : HostM R} (hp : p.Only (·.airs = false)) :
    Follows AirStep p (fun _ φ => φ = .off) .off :=
  Follows.of_only hp fun _ _ he => .calm he

abbrev Calm {R : Type} (p : HostM R) : Prop := p.Only (·.airs = false)

theorem airs_of_ofRegistration (e : Effect) (h : e.ofRegistration = true) : e.airs = false := by
  cases e with
  | emit event =>
    cases event with
    | log line => rfl
    | _ => cases h
  | spawn | forward | joinCapture | awaitMedia => cases h
  | _ => rfl

theorem calm_accept (c : Connection) (guard : Guard) (hello : Hello) :
    Calm (accept c guard hello) := by
  refine Prog.only_call rfl fun id => Prog.only_call rfl fun sent => ?_
  cases sent with
  | false => trivial
  | true => exact Prog.only_call rfl fun _ => trivial

theorem calm_judge (config : HostConfig) (c : Connection) (code : ConnectCode) (guard : Guard)
    (hello : Hello) (candidate : String) : Calm (judge config c code guard hello candidate) := by
  have hawait : Calm (awaitApproval c) := by
    refine Prog.only_call rfl fun _ => Prog.only_call rfl fun _ =>
      Prog.only_call rfl fun command => ?_
    split
    · trivial
    · exact Prog.only_call rfl fun _ => Prog.only_call rfl fun _ => trivial
  refine Prog.only_call rfl fun now => ?_
  cases guard.check c.remoteIp now with
  | mk decision guard =>
    refine Prog.only_call rfl fun _ => ?_
    cases decision with
    | blocked retryAfter => exact Prog.only_call rfl fun _ => Prog.only_call rfl fun _ => trivial
    | allow =>
      refine Prog.only_call rfl fun _ => ?_
      dsimp only
      split_ifs
      · refine Prog.only_bind hawait fun ok => ?_
        cases ok with
        | false => trivial
        | true => exact calm_accept c guard hello
      · exact calm_accept c guard hello
      · refine Prog.only_call rfl fun _ => Prog.only_call rfl fun _ => ?_
        exact Prog.only_call rfl fun _ => trivial

theorem calm_authenticate (config : HostConfig) (c : Connection) (code : ConnectCode)
    (guard : Guard) : Calm (authenticate config c code guard) := by
  have hreject (reason : String) : Calm (reject c guard reason) :=
    Prog.only_call rfl fun _ => Prog.only_call rfl fun _ => trivial
  refine Prog.only_call rfl fun message => ?_
  split
  · dsimp only
    split_ifs
    · exact Prog.only_call rfl fun _ => Prog.only_call rfl fun _ => trivial
    · refine Prog.only_call rfl fun message => ?_
      split
      · exact calm_judge config c code guard _ _
      · exact hreject _
  · exact hreject _

theorem airs_controlLoop (c : Connection) (session : ℕ) (monitors : List MonitorInfo)
    (active : Active) : Follows AirStep (controlLoop c session monitors active)
      (fun _ φ => φ = .live c session) (.live c session) := by
  have honly : (controlLoop c session monitors active).Only fun e =>
      e.airs = false ∧ e.heralds = false ∨ ∃ action, e = .forward session action :=
    only_controlLoop c session monitors active (.inl ⟨rfl, rfl⟩) (fun _ => .inl ⟨rfl, rfl⟩)
      (fun action => .inr ⟨action, rfl⟩) fun m _ => .inl ⟨rfl, rfl⟩
  refine Follows.of_only honly ?_
  rintro e a (⟨hairs, hheralds⟩ | ⟨action, rfl⟩)
  · exact .plain hairs hheralds
  · exact .forward

theorem airs_teardown (c : Connection) (session : ℕ) (reason : String) :
    Follows AirStep (teardown c session reason) (fun _ φ => φ = .off) (.live c session) := by
  refine airs_plain rfl rfl fun _ => airs_plain rfl rfl fun _ => airs_plain rfl rfl fun _ => ?_
  refine follows_call.mpr fun _ => ⟨_, .join, ?_⟩
  refine follows_call.mpr fun _ => ⟨_, .await, ?_⟩
  exact follows_call.mpr fun _ => ⟨_, .finish, rfl⟩

theorem airs_streamAndControl {h264 : Bool} (config : HostConfig) (c : Connection)
    (viewerCodecs : List VideoCodec) :
    Follows AirStep (streamAndControl h264 config c viewerCodecs) (fun _ φ => φ = .off) .off := by
  have hclose (message reason : String) : Follows AirStep (do
      let _ ← emit (.error message)
      perform (.close c reason)) (fun _ φ => φ = .off) .off :=
    airs_plain rfl rfl fun _ => fun _ => ⟨_, .plain rfl rfl, rfl⟩
  refine (airs_calm (only_newEncoder h264 _ rfl)).bind ?_
  rintro (e | _) φ rfl
  · exact hclose _ _
  refine airs_plain rfl rfl fun _ => airs_plain rfl rfl fun created => ?_
  rcases created with e | _
  · exact hclose _ _
  refine airs_plain rfl rfl fun listed => ?_
  rcases listed with e | _ | ⟨head, rest⟩
  · exact hclose _ _
  · exact hclose _ _
  -- nothing was announced so far, so every return above leaves the phase off
  refine airs_plain rfl rfl fun _ => ?_
  refine follows_call.mpr fun _ => ⟨_, .announce, ?_⟩
  refine follows_call.mpr fun session => ⟨_, .spawn, ?_⟩
  refine (airs_controlLoop c session _ _).bind ?_
  rintro reason φ rfl
  exact airs_teardown c session reason

theorem airs_runSession {h264 : Bool} (config : HostConfig) (c : Connection) (code : ConnectCode)
    (guard : Guard) :
    Follows AirStep (runSession h264 config c code guard) (fun _ φ => φ = .off) .off := by
  refine airs_plain rfl rfl fun opened => ?_
  cases opened with
  | error e => exact airs_plain rfl rfl fun _ => rfl
  | ok _ =>
    refine (airs_calm (calm_authenticate config c code guard)).bind ?_
    rintro ⟨guard, _ | _⟩ φ rfl
    · refine (airs_streamAndControl config c _).bind ?_
      rintro _ φ rfl
      rfl
    · exact airs_plain rfl rfl fun _ => rfl

theorem airs_serve {h264 : Bool} (config : HostConfig)
    (registration : Option InternetRegistration) (code : ConnectCode) (guard : Guard) :
    Follows AirStep (serve h264 config registration code guard) (fun _ φ => φ = .off) .off := by
  have hunregister {r : Guard ⊕ Unit} : Follows AirStep (do
      unregisterInternet registration
      return r) (fun _ φ => φ = .off) .off := by
    have hcalm : Calm (unregisterInternet registration) :=
      (registers_unregisterInternet registration).mono airs_of_ofRegistration
    refine (airs_calm hcalm).bind ?_
    rintro _ φ rfl
    rfl
  refine follows_call.mpr fun heard => ⟨_, .calm rfl, ?_⟩
  cases heard with
  | false => rfl
  | true =>
    refine airs_plain rfl rfl fun accepted => ?_
    rcases accepted with _ | e | c
    · exact hunregister
    · exact airs_plain rfl rfl fun _ => hunregister
    · refine (airs_runSession config c code guard).bind ?_
      rintro guard φ rfl
      exact hunregister

theorem airs_run {h264 : Bool} (config : HostConfig) (advertised : SocketAddrV4) :
    Follows AirStep (run h264 config advertised) (fun _ φ => φ = .off) .off := by
  refine Follows.repeatFrom rfl fun guard φ hφ => ?_
  subst hφ
  have hcalm : Calm (registerInternet config) :=
    (registers_registerInternet config).mono airs_of_ofRegistration
  refine (airs_calm hcalm).bind ?_
  rintro (_ | registration) φ rfl
  · have hdraw : Calm (generateCode advertised) := ⟨rfl, fun _ => trivial⟩
    refine (airs_calm hdraw).bind ?_
    rintro code φ rfl
    exact airs_serve config none code guard
  · exact airs_serve config (some registration) registration.code guard

def Airing.peer : Airing → Option Connection
  | .off => none
  | .announced c => some c
  | .live c _ => some c
  | .joined c _ => some c
  | .drained c => some c

def Helpers.dark (h : Helpers) : Prop := h.capture = .done ∧ h.media = .done

def Airing.Serves (session : ℕ) (h : Helpers) : Airing → Prop
  | .live c s => session = s ∧ h.connection = c
  | .joined c s => session = s ∧ h.connection = c ∧ h.capture = .done
  | _ => False

/-- The banner names the viewer while any thread may be at work for it. -/
structure OnAir (φ : Airing) (w : World) : Prop where
  banner : (shownAfter w.log).sessionPeer = φ.peer.map (·.remoteLabel)
  dialog : ∀ c, φ.peer = some c → (shownAfter w.log).pending = none
  threads : ∀ s h, w.sessions[s]? = some h → h.dark ∨ φ.Serves s h
  spawned : w.sessions.map (·.connection) = w.log.filterMap Entry.newSession
  current : ∀ c s, φ = .live c s → (w.sessions.map (·.connection))[s]? = some c

def Entry.OnScreen (p : HostPanel) (before : List Entry) : Entry → Prop
  | .helper _ c (.captured _) => p.sessionPeer = some c.remoteLabel ∧ p.pending = none
  | .helper _ c (.media _ _) => p.sessionPeer = some c.remoteLabel ∧ p.pending = none
  | .host (.forward s _) _ => ∃ c, (before.filterMap Entry.newSession)[s]? = some c ∧
    p.sessionPeer = some c.remoteLabel ∧ p.pending = none
  | _ => True

def Helpers.stage (h : Helpers) : Connection × CaptureThread × MediaTask :=
  (h.connection, h.capture, h.media)

section Threads
variable {φ φ' : Airing} {e : Effect} {a : e.Answer} {w w' : World} {h h' : Helpers}

theorem modify_stages {sessions : List Helpers} {session : ℕ} {f : Helpers → Helpers}
    (hf : ∀ h, (f h).stage = h.stage) :
    (sessions.modify session f).map Helpers.stage = sessions.map Helpers.stage := by
  apply List.ext_getElem?
  intro i
  rw [List.getElem?_map, List.getElem?_map, List.getElem?_modify]
  cases sessions[i]? with
  | none => rfl
  | some h =>
    split_ifs
    · exact congrArg some (hf h)
    · rfl

theorem settle_stages (hsettle : w.settle e a = some w') :
    w'.sessions.map Helpers.stage = w.sessions.map Helpers.stage ++
      (Entry.host e a).newSession.toList.map fun c => (c, .waiting, .waiting) := by
  have hsame {e : Effect} {a : e.Answer} (hs : (Entry.host e a).newSession = none)
      (h : w'.sessions.map Helpers.stage = w.sessions.map Helpers.stage) :
      w'.sessions.map Helpers.stage = w.sessions.map Helpers.stage ++
        (Entry.host e a).newSession.toList.map fun c => (c, .waiting, .waiting) := by
    rw [hs, h]
    exact (List.append_nil _).symm
  have htake {answer : Option HostCommand} (h : w.take answer = some w') :
      w'.sessions.map Helpers.stage = w.sessions.map Helpers.stage := by
    rw [(take_some h).1]
  cases e with
  | takeCommand c => exact hsame rfl (htake hsettle)
  | select c =>
    cases a with
    | command answer => exact hsame rfl (htake hsettle)
    | message m =>
      cases hsettle
      exact hsame rfl rfl
  | accept internet =>
    rcases a with _ | e | c
    · cases hsettle
      exact hsame rfl rfl
    · cases hsettle
      exact hsame rfl rfl
    · simp only [World.settle] at hsettle
      split_ifs at hsettle
      cases hsettle
      exact hsame rfl rfl
  | spawn c codec activeId =>
    simp only [World.settle] at hsettle
    split_ifs at hsettle
    cases hsettle
    simp [Entry.newSession, Helpers.stage, Helpers.start]
  | forward session action =>
    simp only [World.settle] at hsettle
    split at hsettle
    · cases hsettle
    · split_ifs at hsettle
      · cases hsettle
        exact hsame rfl rfl
      · cases hsettle
        exact hsame rfl (modify_stages fun _ => rfl)
  | storeActive | stopCapture | dropInput =>
    cases hsettle
    exact hsame rfl (modify_stages fun _ => rfl)
  | emit | now | joinCapture | awaitMedia | spawnRefresh =>
    simp only [World.settle] at hsettle
    split_ifs at hsettle
    cases hsettle
    exact hsame rfl rfl
  | _ =>
    cases hsettle
    exact hsame rfl rfl

theorem settle_thread {s : ℕ} (hsettle : w.settle e a = some w')
    (hget : w'.sessions[s]? = some h') :
    (∃ h, w.sessions[s]? = some h ∧ h.stage = h'.stage) ∨
      ∃ c, (Entry.host e a).newSession = some c ∧ s = w.sessions.length ∧ h'.connection = c := by
  have hstage : (w'.sessions.map Helpers.stage)[s]? = some h'.stage := by
    rw [List.getElem?_map, hget]
    rfl
  rw [settle_stages hsettle] at hstage
  rcases lt_or_ge s w.sessions.length with hlt | hge
  · rw [List.getElem?_append_left (by simpa using hlt), List.getElem?_map] at hstage
    exact .inl (Option.map_eq_some_iff.mp hstage)
  · rw [List.getElem?_append_right (by simpa using hge)] at hstage
    cases hnew : (Entry.host e a).newSession with
    | none => simp [hnew] at hstage
    | some c =>
      rw [hnew] at hstage
      obtain ⟨hindex, hstage⟩ := List.getElem?_eq_some_iff.mp hstage
      simp only [Option.toList_some, List.map_cons, List.map_nil, List.length_singleton,
        List.length_map, Nat.lt_one_iff] at hindex
      refine .inr ⟨c, rfl, by omega, ?_⟩
      simp only [Option.toList_some, List.map_cons, List.map_nil, List.getElem_singleton] at hstage
      exact (congrArg Prod.fst hstage).symm

theorem dark_of_stage (hstage : h.stage = h'.stage) (hdark : h.dark) : h'.dark := by
  simp only [Helpers.stage, Prod.mk.injEq] at hstage
  exact ⟨hstage.2.1 ▸ hdark.1, hstage.2.2 ▸ hdark.2⟩

theorem serves_of_stage {s : ℕ} (hstage : h.stage = h'.stage) (hserves : φ.Serves s h) :
    φ.Serves s h' := by
  simp only [Helpers.stage, Prod.mk.injEq] at hstage
  cases φ with
  | live c k => exact ⟨hserves.1, hstage.1 ▸ hserves.2⟩
  | joined c k => exact ⟨hserves.1, hstage.1 ▸ hserves.2.1, hstage.2.1 ▸ hserves.2.2⟩
  | _ => exact hserves.elim

def HelperEvent.streams : HelperEvent → Bool
  | .captured _ => true
  | .media _ _ => true
  | _ => false

theorem stepInject_stage (h : Helpers) (result : Except String Unit) :
    (h.stepInject result).1.stage = h.stage := by
  unfold Helpers.stepInject
  cases h.injection with
  | creating => rfl
  | running =>
    cases h.inputs with
    | nil => dsimp only; split_ifs <;> rfl
    | cons action inputs => rfl
  | reporting message alive => cases alive <;> rfl
  | done => rfl

theorem stepInject_streams (h : Helpers) (result : Except String Unit) {event : HelperEvent}
    (hevent : (h.stepInject result).2 = some event) : event.streams = false := by
  unfold Helpers.stepInject at hevent
  cases hi : h.injection with
  | creating =>
    simp only [hi, Option.some.injEq] at hevent
    subst hevent
    rfl
  | running =>
    cases hq : h.inputs with
    | nil =>
      simp only [hi, hq] at hevent
      split_ifs at hevent
      cases hevent
      rfl
    | cons action inputs =>
      simp only [hi, hq, Option.some.injEq] at hevent
      subst hevent
      rfl
  | reporting message alive =>
    cases alive <;> simp only [hi, Option.some.injEq] at hevent <;> subst hevent <;> rfl
  | done => simp [hi] at hevent

theorem HelperStep.captured {closed : Bool} {r : Helpers × Option HelperEvent}
    (hstep : HelperStep closed h r) (hdone : h.capture = .done) : r.1.capture = .done := by
  cases hstep with
  | capture outcome => simp [Helpers.stepCapture, hdone]
  | media sent =>
    unfold Helpers.stepMedia
    cases h.media with
    | waiting =>
      cases h.channel with
      | none => simp [hdone]
      | some frame => exact hdone
    | _ => exact hdone
  | inject result => exact (congrArg (·.2.1) (stepInject_stage h result)).trans hdone

theorem HelperStep.dark {closed : Bool} {r : Helpers × Option HelperEvent}
    (hstep : HelperStep closed h r) (hdark : h.dark) :
    r.1.dark ∧ ∀ event, r.2 = some event → event.streams = false := by
  obtain ⟨hcapture, hmedia⟩ := hdark
  cases hstep with
  | capture outcome =>
    simp only [Helpers.stepCapture, hcapture]
    exact ⟨⟨hcapture, hmedia⟩, fun event hevent => by cases hevent⟩
  | media sent =>
    simp only [Helpers.stepMedia, hmedia]
    exact ⟨⟨hcapture, hmedia⟩, fun event hevent => by cases hevent⟩
  | inject result =>
    exact ⟨dark_of_stage (stepInject_stage h result).symm ⟨hcapture, hmedia⟩,
      fun event hevent => stepInject_streams h result hevent⟩

theorem serves_helper {s : ℕ} {closed : Bool} {r : Helpers × Option HelperEvent}
    (hserves : φ.Serves s h) (hstep : HelperStep closed h r) : φ.Serves s r.1 := by
  cases φ with
  | live c k => exact ⟨hserves.1, hstep.connection.trans hserves.2⟩
  | joined c k =>
    exact ⟨hserves.1, hstep.connection.trans hserves.2.1, hstep.captured hserves.2.2⟩
  | _ => exact hserves.elim

theorem peer_of_serves {s : ℕ} (hserves : φ.Serves s h) : φ.peer = some h.connection := by
  cases φ with
  | live c k => exact congrArg some hserves.2.symm
  | joined c k => exact congrArg some hserves.2.1.symm
  | _ => exact hserves.elim

end Threads

section OnAir
variable {φ φ' : Airing} {e : Effect} {a : e.Answer} {w w' v : World} {x : Entry} {log : List Entry}

theorem shownAfter_unheralded (log : List Entry) (a : e.Answer) (h : e.heralds = false) :
    shownAfter (log ++ [.host e a]) = shownAfter log := by
  refine shownAfter_still fun event hevent => ?_
  cases e with
  | emit event' =>
    obtain rfl : event' = event := by simpa [Entry.event] using hevent
    exact h
  | _ => cases hevent

theorem banner_calm (h : e.airs = false) (hbanner : (shownAfter log).sessionPeer = none) :
    (shownAfter (log ++ [.host e a])).sessionPeer = none := by
  cases hheralds : e.heralds with
  | false =>
    rw [shownAfter_unheralded log a hheralds]
    exact hbanner
  | true =>
    cases e with
    | emit event =>
      rw [shownAfter_emit log event a hheralds]
      cases event with
      | codeReady code => rfl
      | approvalRequested request => exact hbanner
      | sessionStarted | sessionEnded => cases h
      | log | error => cases hheralds
    | _ => cases hheralds

theorem newSession_of_calm (h : e.airs = false) : (Entry.host e a).newSession = none := by
  cases e with
  | spawn c codec id => cases h
  | _ => rfl

theorem OnAir.spawned_step (h : OnAir φ w) (hs : Settled w v e a) :
    v.sessions.map (·.connection) = (w.log ++ [Entry.host e a]).filterMap Entry.newSession := by
  rw [hs.sessions, h.spawned, List.filterMap_append]
  cases hx : (Entry.host e a).newSession <;> simp [hx]

theorem OnAir.threads_step (h : OnAir φ w) (hsettle : w.settle e a = some v)
    (hnew : (Entry.host e a).newSession = none) (s : ℕ) (y : Helpers)
    (hget : v.sessions[s]? = some y) : ∃ z, w.sessions[s]? = some z ∧ z.stage = y.stage ∧
      (z.dark ∨ φ.Serves s z) := by
  rcases settle_thread hsettle hget with ⟨z, hz, hstage⟩ | ⟨c, hc, -⟩
  · exact ⟨z, hz, hstage, h.threads s z hz⟩
  · rw [hnew] at hc
    cases hc

theorem OnAir.moved (h : OnAir φ w) (hs : Settled w v e a) (hheralds : e.heralds = false)
    (hpeer : φ'.peer = φ.peer)
    (hthreads : ∀ s y, v.sessions[s]? = some y → y.dark ∨ φ'.Serves s y)
    (hcurrent : ∀ c s, φ' = .live c s → (v.sessions.map (·.connection))[s]? = some c) :
    OnAir φ' (v.record (.host e a)) := by
  have hlog := hs.record_log
  have hshown := shownAfter_unheralded w.log a hheralds
  have hspawned := h.spawned_step hs
  refine ⟨?_, fun c hc => ?_, hthreads, ?_, hcurrent⟩
  · rw [hlog, hshown, hpeer]
    exact h.banner
  · rw [hlog, hshown]
    exact h.dialog c (hpeer ▸ hc)
  · rw [hlog]
    exact hspawned

theorem OnAir.unheralded (h : OnAir φ w) (hsettle : w.settle e a = some v) (hs : Settled w v e a)
    (hheralds : e.heralds = false) (hnew : (Entry.host e a).newSession = none) :
    OnAir φ (v.record (.host e a)) := by
  refine h.moved hs hheralds rfl (fun s y hget => ?_) fun c s hφ => ?_
  · obtain ⟨z, -, hstage, hz⟩ := h.threads_step hsettle hnew s y hget
    exact hz.imp (dark_of_stage hstage) (serves_of_stage hstage)
  · rw [hs.sessions, hnew, Option.toList_none, List.append_nil]
    exact h.current c s hφ

theorem OnAir.spawn {c : Connection} {codec : VideoCodec} {id : UInt32} {session : ℕ}
    (h : OnAir (.announced c) w) (hsettle : w.settle (.spawn c codec id) session = some v)
    (hs : Settled w v (.spawn c codec id) session) :
    OnAir (.live c session) (v.record (.host (.spawn c codec id) session)) := by
  have hindex : session = w.sessions.length := by
    simp only [World.settle] at hsettle
    split_ifs at hsettle with hindex
    exact hindex
  refine h.moved hs rfl rfl (fun s y hget => ?_) fun c' s hφ => ?_
  · rcases settle_thread hsettle hget with ⟨z, hz, hstage⟩ | ⟨c', hc', hs', hconnection⟩
    · exact .inl (dark_of_stage hstage ((h.threads s z hz).resolve_right fun hno => hno))
    · cases hc'
      exact .inr ⟨hs'.trans hindex.symm, hconnection⟩
  · cases hφ
    rw [hs.sessions, hindex]
    simp [Entry.newSession]

theorem OnAir.join {c : Connection} {session : ℕ} (h : OnAir (.live c session) w)
    (hsettle : w.settle (.joinCapture session) () = some v)
    (hs : Settled w v (.joinCapture session) ()) :
    OnAir (.joined c session) (v.record (.host (.joinCapture session) ())) := by
  refine h.moved hs rfl rfl (fun s y hget => ?_) fun _ _ hφ => by cases hφ
  obtain ⟨z, hz, hstage, hdark | ⟨rfl, hconnection⟩⟩ := h.threads_step hsettle rfl s y hget
  · exact .inl (dark_of_stage hstage hdark)
  · -- the join is answered when the capture thread has ended
    have hcapture : z.capture = .done := by
      simp only [World.settle, hz] at hsettle
      split_ifs at hsettle with hdone
      exact Option.some.inj hdone
    exact .inr (serves_of_stage hstage ⟨rfl, hconnection, hcapture⟩)

theorem OnAir.await {c : Connection} {session : ℕ} (h : OnAir (.joined c session) w)
    (hsettle : w.settle (.awaitMedia session) () = some v)
    (hs : Settled w v (.awaitMedia session) ()) :
    OnAir (.drained c) (v.record (.host (.awaitMedia session) ())) := by
  refine h.moved hs rfl rfl (fun s y hget => ?_) fun _ _ hφ => by cases hφ
  obtain ⟨z, hz, hstage, hdark | ⟨rfl, -, hcapture⟩⟩ := h.threads_step hsettle rfl s y hget
  · exact .inl (dark_of_stage hstage hdark)
  · have hmedia : z.media = .done := by
      simp only [World.settle, hz] at hsettle
      split_ifs at hsettle with hdone
      exact Option.some.inj hdone
    exact .inl (dark_of_stage hstage ⟨hcapture, hmedia⟩)

theorem OnAir.idle (hbanner : (shownAfter w.log).sessionPeer = none)
    (hthreads : ∀ (s : ℕ) (h : Helpers), w.sessions[s]? = some h → h.dark)
    (hspawned : w.sessions.map (·.connection) = w.log.filterMap Entry.newSession) :
    OnAir .off w :=
  ⟨hbanner, fun _ hc => (by cases hc), fun s h hget => .inl (hthreads s h hget), hspawned,
    fun _ _ hφ => (by cases hφ)⟩

theorem onAir_respond (h : OnAir φ w) (hstep : AirStep φ e a φ') (hsettle : w.settle e a = some v)
    (hs : Settled w v e a) : OnAir φ' (v.record (.host e a)) := by
  have hlog := hs.record_log
  have hspawned := h.spawned_step hs
  rw [← hlog] at hspawned
  -- before a session and behind one no thread is left that shows the screen
  have hdark (hφ : ∀ s y, ¬ φ.Serves s y) (hnew : (Entry.host e a).newSession = none) (s : ℕ)
      (y : Helpers) (hget : v.sessions[s]? = some y) : y.dark := by
    obtain ⟨z, -, hstage, hz⟩ := h.threads_step hsettle hnew s y hget
    exact dark_of_stage hstage (hz.resolve_right (hφ s z))
  cases hstep with
  | calm hairs =>
    refine OnAir.idle ?_ (hdark (fun _ _ hno => hno) (newSession_of_calm hairs)) hspawned
    rw [hlog]
    exact banner_calm hairs h.banner
  | plain hairs hheralds => exact h.unheralded hsettle hs hheralds (newSession_of_calm hairs)
  | forward => exact h.unheralded hsettle hs rfl rfl
  | @announce c b =>
    have hshown := shownAfter_emit w.log (.sessionStarted c.remoteLabel) b rfl
    refine ⟨?_, fun c' _ => ?_, fun s y hget => .inl (hdark (fun _ _ hno => hno) rfl s y hget),
      hspawned, fun _ _ hφ => (by cases hφ)⟩
    · rw [hlog, hshown]
      rfl
    · rw [hlog, hshown]
      rfl
  | spawn => exact h.spawn hsettle hs
  | join => exact h.join hsettle hs
  | await => exact h.await hsettle hs
  | @finish c reason b =>
    have hshown := shownAfter_emit w.log (.sessionEnded reason) b rfl
    refine OnAir.idle ?_ (hdark (fun _ _ hno => hno) rfl) hspawned
    rw [hlog, hshown]
    rfl

theorem onScreen_respond (h : OnAir φ w) (hstep : AirStep φ e a φ') :
    (Entry.host e a).OnScreen (shownAfter w.log) w.log := by
  cases hstep with
  | calm hairs =>
    cases e with
    | forward session action => cases hairs
    | _ => trivial
  | plain hairs _ =>
    cases e with
    | forward session action => cases hairs
    | _ => trivial
  | @forward c s action b =>
    refine ⟨c, ?_, h.banner, h.dialog c rfl⟩
    rw [← h.spawned]
    exact h.current c s rfl
  | _ => trivial

theorem onScreen_helper (h : OnAir φ w) {s : ℕ} {y : Helpers} {r : Helpers × Option HelperEvent}
    {event : HelperEvent} (hget : w.sessions[s]? = some y)
    (hstep : HelperStep (y.connection ∈ w.closed) y r) (hevent : r.2 = some event) :
    (Entry.helper s y.connection event).OnScreen (shownAfter w.log) w.log := by
  have hserved (hstreams : event.streams = true) :
      (shownAfter w.log).sessionPeer = some y.connection.remoteLabel ∧
        (shownAfter w.log).pending = none := by
    -- a thread that has ended shows nothing; any other works for the session of the banner
    rcases h.threads s y hget with hdark | hserves
    · have hquiet := (hstep.dark hdark).2 event hevent
      rw [hstreams] at hquiet
      cases hquiet
    · have hpeer := peer_of_serves hserves
      refine ⟨?_, h.dialog _ hpeer⟩
      rw [h.banner, hpeer]
      rfl
  cases event with
  | captured monitorId => exact hserved rfl
  | media frame sent => exact hserved rfl
  | _ => trivial

theorem OnAir.drift (h : OnAir φ w) (hsessions : w'.sessions = w.sessions)
    (hlog : shownAfter w'.log = shownAfter w.log)
    (hspawned : w'.log.filterMap Entry.newSession = w.log.filterMap Entry.newSession) :
    OnAir φ w' := by
  refine ⟨hlog ▸ h.banner, hlog ▸ h.dialog, hsessions ▸ h.threads, ?_, hsessions ▸ h.current⟩
  rw [hsessions, hspawned]
  exact h.spawned

theorem machine_onAir : machine.Keeps AirStep World.log OnAir
    (fun before x => x.OnScreen (shownAfter before) before) where
  respond := by
    intro φ φ' w w' e a h hstep hrespond
    obtain ⟨v, hsettle, hs, rfl⟩ := respond_spec hrespond
    exact ⟨onAir_respond h hstep hsettle hs, .inr ⟨_, hs.record_log, onScreen_respond h hstep⟩⟩
  drift := by
    intro φ w d h
    have hd := drift_spec w d
    change OnAir φ (w.drift d) ∧ Grows _ w.log (w.drift d).log
    generalize w.drift d = w' at hd
    have hkept : shownAfter w'.log = shownAfter w.log ∧
        w'.log.filterMap Entry.newSession = w.log.filterMap Entry.newSession := by
      rcases hd.plain with hlog | ⟨x, hlog, hforeign, hplain⟩
      · rw [hlog]
        exact ⟨rfl, rfl⟩
      · rw [hlog, shownAfter_still fun event hevent => (hplain event hevent).1,
          List.filterMap_append]
        simp [newSession_of_foreign hforeign]
    have hother (hsessions : w'.sessions = w.sessions) {x : Entry}
        (hscreen : x.OnScreen (shownAfter w.log) w.log) (hlog : w'.log = w.log ++ [x]) :
        OnAir φ w' ∧
          Grows (fun before x => x.OnScreen (shownAfter before) before) w.log w'.log :=
      ⟨h.drift hsessions hkept.1 hkept.2, .inr ⟨x, hlog, hscreen⟩⟩
    cases hd with
    | still => exact ⟨h, .inl rfl⟩
    | issue command _ => exact hother rfl (x := .issued command) trivial rfl
    | dropSenders _ => exact hother rfl (x := .sendersDropped) trivial rfl
    | dropReceiver _ => exact hother rfl (x := .receiverDropped) trivial rfl
    | refresh task => exact hother rfl (x := .refreshed task) trivial rfl
    -- a helper moves its own session on, and leaves the others and the panel alone
    | help session y y' event hget hstep =>
      refine ⟨⟨hkept.1 ▸ h.banner, hkept.1 ▸ h.dialog, fun s z hz => ?_, ?_, fun c s hφ => ?_⟩, ?_⟩
      · rcases eq_or_ne session s with rfl | hne
        · obtain rfl : y' = z := by
            rw [List.getElem?_set_self (List.getElem?_eq_some_iff.mp hget).1] at hz
            exact Option.some.inj hz
          exact (h.threads session y hget).imp (fun hdark => (hstep.dark hdark).1)
            fun hserves => serves_helper hserves hstep
        · rw [List.getElem?_set_ne hne] at hz
          exact h.threads s z hz
      · rw [hkept.2, ← h.spawned]
        exact set_connections hget hstep.connection
      · rw [set_connections hget hstep.connection]
        exact h.current c s hφ
      · cases event with
        | none => exact .inl (List.append_nil _)
        | some event => exact .inr ⟨_, rfl, onScreen_helper h hget hstep rfl⟩

end OnAir

theorem onAir_start : OnAir .off .start := .idle rfl (fun _ _ h => by cases h) rfl

theorem onScreen_runHost (h264 : Bool) (config : HostConfig) (port : UInt16)
    (ticks : List HostTick) : Lawful (fun before x => x.OnScreen (shownAfter before) before)
      (runHost h264 config port ticks).log := by
  have hnil : Lawful (fun before (x : Entry) => x.OnScreen (shownAfter before) before)
      World.start.log := Lawful.nil
  obtain ⟨φ, -, -, hlawful⟩ := machine_onAir.run (σ := ⟨start h264 config port, .start⟩)
    (airs_run config _) onAir_start hnil ticks
  exact hlawful

theorem unlogged_eq {p q : HostPanel} (h : p.unlogged = q.unlogged) :
    p.code = q.code ∧ p.pending = q.pending ∧ p.sessionPeer = q.sessionPeer := by
  cases p
  cases q
  simpa [HostPanel.unlogged] using h

theorem announced_congr {p q : HostPanel} {x : Entry} (h : p.unlogged = q.unlogged)
    (hp : x.Announced p) : x.Announced q := by
  obtain ⟨hcode, hpending, hpeer⟩ := unlogged_eq h
  unfold Entry.Announced at hp ⊢
  split at hp <;> simp only [← hcode, ← hpending, ← hpeer] <;> exact hp

theorem onScreen_congr {p q : HostPanel} {x : Entry} {before : List Entry}
    (h : p.unlogged = q.unlogged) (hp : x.OnScreen p before) : x.OnScreen q before := by
  obtain ⟨-, hpending, hpeer⟩ := unlogged_eq h
  unfold Entry.OnScreen at hp ⊢
  split at hp <;> simp only [← hpending, ← hpeer] <;> exact hp

/-- Whatever viewers, users and threads do, the host waits for a viewer, compares a code, takes a
decision, serves a viewer, captures the screen and sends it only when a panel that was handed the
events so far, with logs and errors anywhere in between, shows the code, the dialog or the banner
that tells so. -/
theorem panel_shows_what_the_host_does (h264 : Bool) (config : HostConfig) (port : UInt16)
    (ticks : List HostTick) :
    Lawful (fun before x => ∀ handed : List HostEvent,
      handed.filter (·.milestone) = milestones before →
      x.Announced (HostPanel.after handed) ∧ x.OnScreen (HostPanel.after handed) before ∧
        (HostPanel.after handed).log =
          (handed.filterMap HostEvent.line).reverse.take maxLogLines)
      (runHost h264 config port ticks).log := by
  intro before x after hlog handed hhanded
  -- logs and errors make no difference but to the log
  have hsame : (shownAfter before).unlogged = (HostPanel.after handed).unlogged := by
    rw [after_milestones handed, hhanded]
    rfl
  have hannounced := lawful_runHost machine_shows rfl h264 config port ticks rfl before x after hlog
  have hscreen := onScreen_runHost h264 config port ticks before x after hlog
  exact ⟨announced_congr hsame hannounced, onScreen_congr hsame hscreen, log_after handed⟩

end Controlis.Host
