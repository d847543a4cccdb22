import Controlis.Host.Machine

/-!
# The authentication gate

What the log shows before a viewer is accepted, and that nothing of a session
is touched before. The entries a handshake leaves, in a round that gets as far
as the code, the check of the address and the decision of the user, are the
fields of a `Round`; everything else in the log is beside the point.
-/

namespace Controlis.Host
open Protocol Security Session RateLimit Interaction

/-- The entries that make up a handshake. Messages of a session count, so that no
message of a viewer is passed over. -/
def Entry.formal : Entry → Bool
  | .host (.drawSecret _) _ => true
  | .host (.accept _) (some (.ok _)) => true
  | .host (.recvTimeout _) _ => true
  | .host (.select _) (.message _) => true
  | .host (.checked _ _ _) _ => true
  | .host (.compared _ _ _ _) _ => true
  | .host (.emit (.approvalRequested _)) _ => true
  | .host (.takeCommand _) _ => true
  | _ => false

structure Round where
  target : ConnectTarget
  secret : Fin (2 ^ secretBits)
  internet : Bool
  viewer : Connection
  hello : Hello
  candidate : String
  now : ℕ
  heard : Bool

namespace Round

def code (r : Round) : ConnectCode := assemble r.target (UInt32.ofNat r.secret)

def offered (r : Round) : List Entry := [.host (.drawSecret r.target) r.secret]

def connected (r : Round) : List Entry :=
  r.offered ++ [.host (.accept r.internet) (some (.ok r.viewer))]

def greeted (r : Round) : List Entry :=
  r.connected ++ [.host (.recvTimeout r.viewer) (some (.hello r.hello))]

def presented (r : Round) : List Entry :=
  r.greeted ++ [.host (.recvTimeout r.viewer) (some (.authRequest r.candidate))]

def allowed (r : Round) : List Entry := r.presented ++ [.host (.checked r.viewer r.now .allow) ()]

def verified (r : Round) : List Entry :=
  r.allowed ++ [.host (.compared r.viewer r.code r.candidate true) ()]

def asked (r : Round) : List Entry :=
  r.verified ++ [.host (.emit (.approvalRequested r.viewer.request)) r.heard]

def approved (r : Round) : List Entry :=
  r.asked ++ [.host (.takeCommand r.viewer) (some .approve)]

end Round

/-- The log ends in a handshake of `c` with everything a viewer must show, its
address allowed before the code was compared, and the user's approval if needed. -/
def Cleared (manual : Bool) (c : Connection) (log : List Entry) : Prop :=
  ∃ r : Round, r.viewer = c ∧ r.hello.protocolVersion = protocolVersion ∧
    r.code.verify r.candidate = true ∧
    EndsIn Entry.formal (bif manual then r.approved else r.verified) log

/-- The log ends in a handshake of `c` up to the check of its address; the code
was drawn in this round and compared with nothing yet. -/
def Unspent (c : Connection) (code : ConnectCode) (candidate : String) (log : List Entry) : Prop :=
  ∃ r : Round, r.viewer = c ∧ r.hello.protocolVersion = protocolVersion ∧ r.code = code ∧
    r.candidate = candidate ∧ EndsIn Entry.formal r.allowed log

def WasAccepted (c : Connection) (log : List Entry) : Prop :=
  ∃ id, .host (.send c (.authResponse (.accepted id))) true ∈ log

def Entry.privileged (c : Connection) : Entry → Prop
  | .host (.send d (.monitorList _)) _ => d = c
  | .host (.send d (.resize _ _)) _ => d = c
  | .host (.send d (.pong _)) _ => d = c
  | .host (.createCapturer d) _ => d = c
  | .host (.listMonitors d) _ => d = c
  | .helper _ d (.captured _) => d = c
  | .helper _ d (.media _ _) => d = c
  | .helper _ d (.injector _) => d = c
  | .helper _ d (.performed _ _) => d = c
  | .helper _ d (.released _) => d = c
  | _ => False

structure Legitimate (manual : Bool) (log : List Entry) (x : Entry) : Prop where
  privileged : ∀ c, x.privileged c → WasAccepted c log
  accepted : ∀ c id sent, x = .host (.send c (.authResponse (.accepted id))) sent →
    Cleared manual c log
  compared : ∀ c code candidate ok, x = .host (.compared c code candidate ok) () →
    Unspent c code candidate log

def Recorded (manual : Bool) (log : List Entry) : Phase → Prop
  | .drawn code => ∃ r : Round, r.code = code ∧ EndsIn Entry.formal r.offered log
  | .offering code => ∃ r : Round, r.code = code ∧ EndsIn Entry.formal r.offered log
  | .greeting c code =>
    ∃ r : Round, r.viewer = c ∧ r.code = code ∧ EndsIn Entry.formal r.connected log
  | .greeted c code =>
    ∃ r : Round, r.viewer = c ∧ r.hello.protocolVersion = protocolVersion ∧ r.code = code ∧
      EndsIn Entry.formal r.greeted log
  | .presented c code candidate =>
    ∃ r : Round, r.viewer = c ∧ r.hello.protocolVersion = protocolVersion ∧ r.code = code ∧
      r.candidate = candidate ∧ EndsIn Entry.formal r.presented log
  | .allowed c code candidate => Unspent c code candidate log
  | .verified c =>
    ∃ r : Round, r.viewer = c ∧ r.hello.protocolVersion = protocolVersion ∧
      r.code.verify r.candidate = true ∧ EndsIn Entry.formal r.verified log
  | .asked c => manual = true ∧
    ∃ r : Round, r.viewer = c ∧ r.hello.protocolVersion = protocolVersion ∧
      r.code.verify r.candidate = true ∧ EndsIn Entry.formal r.asked log
  | .cleared c => Cleared manual c log
  | .admitted c => WasAccepted c log
  | .started c => WasAccepted c log
  | .streaming c _ => WasAccepted c log
  | _ => True

structure Guarded (manual : Bool) (φ : Phase) (w : World) : Prop where
  recorded : Recorded manual w.log φ
  sessions : ∀ c ∈ w.sessions.map (·.connection), WasAccepted c w.log

variable {manual : Bool} {φ φ' : Phase} {e : Effect} {a : e.Answer} {log : List Entry} {x : Entry}
  {c : Connection} {w w' : World}

theorem WasAccepted.snoc (h : WasAccepted c log) : WasAccepted c (log ++ [x]) := by
  obtain ⟨id, hid⟩ := h
  exact ⟨id, List.mem_append_left _ hid⟩

theorem Recorded.skip (h : Recorded manual log φ) (hx : x.formal = false) :
    Recorded manual (log ++ [x]) φ := by
  cases φ with
  | idle => trivial
  | closed s => trivial
  | admitted c => exact WasAccepted.snoc h
  | started c => exact WasAccepted.snoc h
  | streaming c s => exact WasAccepted.snoc h
  | drawn code =>
    obtain ⟨r, hcode, hends⟩ := h
    exact ⟨r, hcode, hends.skip hx⟩
  | offering code =>
    obtain ⟨r, hcode, hends⟩ := h
    exact ⟨r, hcode, hends.skip hx⟩
  | greeting c code =>
    obtain ⟨r, hc, hcode, hends⟩ := h
    exact ⟨r, hc, hcode, hends.skip hx⟩
  | greeted c code =>
    obtain ⟨r, hc, hversion, hcode, hends⟩ := h
    exact ⟨r, hc, hversion, hcode, hends.skip hx⟩
  | presented c code candidate =>
    obtain ⟨r, hc, hversion, hcode, hcandidate, hends⟩ := h
    exact ⟨r, hc, hversion, hcode, hcandidate, hends.skip hx⟩
  | allowed c code candidate =>
    obtain ⟨r, hc, hversion, hcode, hcandidate, hends⟩ := h
    exact ⟨r, hc, hversion, hcode, hcandidate, hends.skip hx⟩
  | verified c =>
    obtain ⟨r, hc, hversion, hverify, hends⟩ := h
    exact ⟨r, hc, hversion, hverify, hends.skip hx⟩
  | asked c =>
    obtain ⟨hmanual, r, hc, hversion, hverify, hends⟩ := h
    exact ⟨hmanual, r, hc, hversion, hverify, hends.skip hx⟩
  | cleared c =>
    obtain ⟨r, hc, hversion, hverify, hends⟩ := h
    exact ⟨r, hc, hversion, hverify, hends.skip hx⟩

theorem formal_of_quiet (h : e.quiet = true) : (Entry.host e a).formal = false := by
  cases e with
  | emit event => cases event <;> first | rfl | cases h
  | drawSecret target => cases h
  | accept internet => cases h
  | recvTimeout c => cases h
  | select c => cases h
  | checked c now decision => cases h
  | compared c code candidate ok => cases h
  | takeCommand c => cases h
  | _ => rfl

theorem recorded_step (h : Recorded manual log φ) (hstep : Step manual φ e a φ') :
    Recorded manual (log ++ [.host e a]) φ' := by
  cases hstep with
  | quiet hq => exact h.skip (formal_of_quiet hq)
  | @draw _ target secret _ =>
    exact ⟨⟨target, secret, false, ⟨0, .iroh ""⟩, ⟨0, "", .viewer, []⟩, "", 0, false⟩, rfl,
      EndsIn.nil.snoc rfl⟩
  | publish => exact Recorded.skip (φ := .offering _) h rfl
  | @connect code c internet =>
    obtain ⟨r, hcode, hends⟩ := h
    exact ⟨{ r with internet := internet, viewer := c }, rfl, hcode, hends.snoc rfl⟩
  | @hello c code h' hversion =>
    obtain ⟨r, rfl, hcode, hends⟩ := h
    exact ⟨{ r with hello := h' }, rfl, hversion, hcode, hends.snoc rfl⟩
  | @request c code candidate =>
    obtain ⟨r, rfl, hversion, hcode, hends⟩ := h
    exact ⟨{ r with candidate := candidate }, rfl, hversion, hcode, rfl, hends.snoc rfl⟩
  | @allow c code candidate now =>
    obtain ⟨r, rfl, hversion, hcode, hcandidate, hends⟩ := h
    exact ⟨{ r with now := now }, rfl, hversion, hcode, hcandidate, hends.snoc rfl⟩
  | right hverify =>
    obtain ⟨r, rfl, hversion, rfl, rfl, hends⟩ := h
    cases manual with
    | false => exact ⟨r, rfl, hversion, hverify, hends.snoc rfl⟩
    | true => exact ⟨r, rfl, hversion, hverify, hends.snoc rfl⟩
  | @ask c b hmanual =>
    obtain ⟨r, rfl, hversion, hverify, hends⟩ := h
    exact ⟨hmanual, { r with heard := b }, rfl, hversion, hverify, hends.snoc rfl⟩
  | approve =>
    obtain ⟨rfl, r, rfl, hversion, hverify, hends⟩ := h
    exact ⟨r, rfl, hversion, hverify, hends.snoc rfl⟩
  | @grant c id => exact ⟨id, List.mem_append_right _ (List.mem_singleton_self _)⟩
  | capturer => exact WasAccepted.snoc h
  | listMonitors => exact WasAccepted.snoc h
  | monitors => exact WasAccepted.snoc h
  | announce => exact WasAccepted.snoc h
  | spawn => exact WasAccepted.snoc h
  | select => exact WasAccepted.snoc h
  | forward => exact WasAccepted.snoc h
  | storeActive => exact WasAccepted.snoc h
  | reply _ => exact WasAccepted.snoc h
  | stopCapture => exact WasAccepted.snoc h
  | dropInput => exact WasAccepted.snoc h
  | _ => trivial

def Entry.harmless : Entry → Bool
  | .host (.send _ (.monitorList _)) _ => false
  | .host (.send _ (.resize _ _)) _ => false
  | .host (.send _ (.pong _)) _ => false
  | .host (.send _ (.authResponse (.accepted _))) _ => false
  | .host (.createCapturer _) _ => false
  | .host (.listMonitors _) _ => false
  | .host (.compared _ _ _ _) _ => false
  | .helper _ _ (.reported _) => true
  | .helper _ _ _ => false
  | _ => true

def Entry.licensing : Entry → Bool
  | .host (.send _ (.authResponse (.accepted _))) _ => true
  | .host (.compared _ _ _ _) _ => true
  | _ => false

theorem legitimate_of_harmless (h : x.harmless = true) : Legitimate manual log x := by
  refine ⟨?_, ?_, ?_⟩
  · intro c hc
    unfold Entry.privileged at hc
    split at hc <;> first | cases h | exact hc.elim
  · rintro c id sent rfl
    cases h
  · rintro c code candidate ok rfl
    cases h

theorem legitimate_of_accepted (h : WasAccepted c log) (hx : ∀ d, x.privileged d → d = c)
    (hother : x.licensing = false) : Legitimate manual log x := by
  refine ⟨fun d hd => hx d hd ▸ h, ?_, ?_⟩
  · rintro c id sent rfl
    cases hother
  · rintro c code candidate ok rfl
    cases hother

theorem legitimate_accepted {id : UInt64} {sent : Bool} (h : Cleared manual c log) :
    Legitimate manual log (.host (.send c (.authResponse (.accepted id))) sent) := by
  refine ⟨fun _ hd => hd.elim, ?_, ?_⟩
  · rintro d id sent heq
    cases heq
    exact h
  · rintro d code candidate ok heq
    cases heq

theorem legitimate_compared {code : ConnectCode} {candidate : String} {ok : Bool}
    (h : Unspent c code candidate log) :
    Legitimate manual log (.host (.compared c code candidate ok) ()) := by
  refine ⟨fun _ hd => hd.elim, ?_, ?_⟩
  · rintro d id sent heq
    cases heq
  · rintro d code candidate ok heq
    cases heq
    exact h

theorem harmless_of_quiet (h : e.quiet = true) : (Entry.host e a).harmless = true := by
  cases e with
  | send c m =>
    cases m with
    | authResponse outcome => cases outcome <;> first | rfl | cases h
    | monitorList ms => cases h
    | resize w h => cases h
    | pong n => cases h
    | _ => rfl
  | createCapturer c => cases h
  | listMonitors c => cases h
  | compared c code candidate ok => cases h
  | _ => rfl

theorem guarded_step (h : Guarded manual φ w) (hstep : Step manual φ e a φ')
    (hrespond : w.respond e a = some w') :
    Guarded manual φ' w' ∧ Grows (Legitimate manual) w.log w'.log := by
  obtain ⟨v, hsettle, hs, rfl⟩ := respond_spec hrespond
  have hlog := hs.record_log
  have hrecorded := recorded_step h.recorded hstep
  have hsessions : ∀ c ∈ (v.record (.host e a)).sessions.map (·.connection),
      WasAccepted c (w.log ++ [.host e a]) := by
    intro c hc
    rw [show (v.record (.host e a)).sessions = v.sessions from rfl, hs.sessions] at hc
    rcases List.mem_append.mp hc with hc | hc
    · exact (h.sessions c hc).snoc
    · cases hstep with
      | spawn =>
        obtain rfl := List.mem_singleton.mp hc
        exact WasAccepted.snoc h.recorded
      | quiet hq =>
        rw [newSession_of_quiet hq] at hc
        cases hc
      | _ => cases hc
  refine ⟨⟨hlog ▸ hrecorded, hlog ▸ hsessions⟩, .inr ⟨_, hlog, ?_⟩⟩
  cases hstep with
  | quiet hq => exact legitimate_of_harmless (harmless_of_quiet hq)
  | wrong _ => exact legitimate_compared h.recorded
  | right _ => exact legitimate_compared h.recorded
  | grant => exact legitimate_accepted h.recorded
  | lost => exact legitimate_accepted h.recorded
  | capturer => exact legitimate_of_accepted h.recorded (fun _ hd => hd.symm) rfl
  | listMonitors => exact legitimate_of_accepted h.recorded (fun _ hd => hd.symm) rfl
  | monitors => exact legitimate_of_accepted h.recorded (fun _ hd => hd.symm) rfl
  | @reply c s m b hr =>
    cases m with
    | resize width height => exact legitimate_of_accepted h.recorded (fun _ hd => hd.symm) rfl
    | pong nonce => exact legitimate_of_accepted h.recorded (fun _ hd => hd.symm) rfl
    | _ => cases hr
  | _ => exact legitimate_of_harmless rfl

theorem guarded_drift (h : Guarded manual φ w) (d : Drift) :
    Guarded manual φ (w.drift d) ∧ Grows (Legitimate manual) w.log (w.drift d).log := by
  have hd := drift_spec w d
  generalize w.drift d = w' at hd ⊢
  have hrecord {v : World} {x : Entry} (hlog : v.log = w.log ++ [x]) (hformal : x.formal = false)
      (hsessions : v.sessions.map (·.connection) = w.sessions.map (·.connection))
      (hlegit : Legitimate manual w.log x) :
      Guarded manual φ v ∧ Grows (Legitimate manual) w.log v.log := by
    refine ⟨⟨hlog ▸ h.recorded.skip hformal, fun c hc => ?_⟩, .inr ⟨x, hlog, hlegit⟩⟩
    rw [hsessions] at hc
    rw [hlog]
    exact (h.sessions c hc).snoc
  cases hd with
  | still => exact ⟨h, .inl rfl⟩
  | issue command _ => exact hrecord rfl rfl rfl (legitimate_of_harmless rfl)
  | dropSenders _ => exact hrecord rfl rfl rfl (legitimate_of_harmless rfl)
  | dropReceiver _ => exact hrecord rfl rfl rfl (legitimate_of_harmless rfl)
  | refresh task => exact hrecord rfl rfl rfl (legitimate_of_harmless rfl)
  | help s g g' event hget hstep =>
    have hsame := set_connections hget hstep.connection
    cases event with
    | none =>
      refine ⟨⟨?_, fun c hc => ?_⟩, .inl (List.append_nil _)⟩
      · simpa using h.recorded
      · rw [hsame] at hc
        simpa using h.sessions c hc
    | some event =>
      have haccepted : WasAccepted g.connection w.log :=
        h.sessions _ (List.mem_map_of_mem (List.mem_of_getElem? hget))
      refine hrecord rfl rfl hsame ?_
      cases event with
      | reported event => exact legitimate_of_harmless rfl
      | _ => exact legitimate_of_accepted haccepted (fun _ hd => hd.symm) rfl

theorem machine_guarded : machine.Keeps (Step manual) World.log (Guarded manual)
    (Legitimate manual) :=
  ⟨guarded_step, fun d h => guarded_drift h d⟩

theorem guarded_start : Guarded manual .idle .start := ⟨trivial, by simp [World.start]⟩

def heardAt (hello : Hello) (candidate : String) (c : Connection) (now : ℕ) :
    List (Σ e : Effect, e.Answer) :=
  [⟨.recvTimeout c, some (.hello hello)⟩, ⟨.recvTimeout c, some (.authRequest candidate)⟩,
    ⟨.now, now⟩]

theorem authenticate_blocked (config : HostConfig) (code code' : ConnectCode) (guard : Guard)
    (hello : Hello) (candidate candidate' : String) {now d : ℕ}
    (hversion : hello.protocolVersion = protocolVersion)
    (hblocked : (guard.check c.remoteIp now).1 = .blocked d) :
    (authenticate config c code guard).resume (heardAt hello candidate c now) =
      (authenticate config c code' guard).resume (heardAt hello candidate' c now) := by
  have hjudge (code : ConnectCode) (candidate : String) :
      (authenticate config c code guard).resume (heardAt hello candidate c now) =
        (judge config c code guard hello candidate).resume [⟨.now, now⟩] := by
    unfold authenticate heardAt
    rw [perform, Prog.resume_perform]
    dsimp only
    rw [if_neg (not_not.mpr hversion), Prog.resume_perform]
  rw [hjudge, hjudge]
  unfold judge
  rw [perform, Prog.resume_perform, Prog.resume_perform]
  cases hcheck : guard.check c.remoteIp now with
  | mk decision guard' =>
    rw [hcheck] at hblocked
    dsimp only at hblocked
    subst hblocked
    rfl

/-- In every run, what a session does on a connection follows its `Accepted`, which ends a
full handshake of that connection; a code is compared once; and a viewer whose
address is blocked is treated alike whatever it presents. -/
theorem admission_gate (h264 : Bool) (config : HostConfig) (port : UInt16)
    (ticks : List HostTick) :
    (∀ before x after, (runHost h264 config port ticks).log = before ++ x :: after →
      Legitimate config.requireManualApproval before x) ∧
    ∀ (c : Connection) (code code' : ConnectCode) (guard : Guard) (hello : Hello)
      (candidate candidate' : String) (now d : ℕ), hello.protocolVersion = protocolVersion →
      (guard.check c.remoteIp now).1 = .blocked d →
      (authenticate config c code guard).resume (heardAt hello candidate c now) =
        (authenticate config c code' guard).resume (heardAt hello candidate' c now) := by
  constructor
  · exact lawful_runHost machine_guarded guarded_start h264 config port ticks rfl
  · intro c code code' guard hello candidate candidate' now d hversion hblocked
    exact authenticate_blocked config code code' guard hello candidate candidate' hversion hblocked

def plainVisit : List HostTick :=
  (sampleViewer 0 sampleHello).ticks 6 ++ (sampleViewer 0 sampleRequest).ticks 6

theorem admission_gate_visit :
    Cleared false ⟨0, .quinn (.v4 1) "10.0.0.1:5000" none⟩
      ((runHost false (sampleConfig false) 0 plainVisit).log.take 10) :=
  ((admission_gate false (sampleConfig false) 0 plainVisit).1 _ _ [] (by rfl)).accepted _ 0 true rfl

end Controlis.Host
