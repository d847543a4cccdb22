import Controlis.Host.Machine

/-!
# Whose attempts a guard decision counts

The guard files attempts under the address of the connection. On QUIC that is the
peer's own, but all Iroh endpoints share the placeholder `0.0.0.0`, so they share
one record. The log is folded into the attempts of the run; as long as no two
peers share an address, every decision is the one the peer's own attempts give.
-/

namespace Controlis.Host
open Protocol Security Session RateLimit Interaction
open Timeline (Ordered horizon)

inductive Origin
  | address (ip : IpAddr)
  | endpoint (id : String)
deriving DecidableEq, Repr

def Connection.origin (c : Connection) : Origin :=
  match c.peer with
  | .quinn ip _ _ => .address ip
  | .iroh remoteId => .endpoint remoteId

/-- The attempts of a run; after a wrong code the instant of the failure is still to come. -/
structure History where
  past : List (Attempt Connection)
  latest : Option (Attempt Connection)
  wrong : Bool

def History.attempts (h : History) : List (Attempt Connection) := h.past ++ h.latest.toList

def failedAt (t : ℕ) (a : Attempt Connection) : Attempt Connection :=
  { a with recordedAt := t, outcome := .failure }

def succeeded (a : Attempt Connection) : Attempt Connection := { a with outcome := .success }

def historyStep (h : History) : Entry → History
  | .host (.checked c now _) _ => ⟨h.attempts, some ⟨c, now, now, .abandoned⟩, false⟩
  | .host (.compared _ _ _ ok) _ => { h with wrong := !ok }
  | .host .now t =>
    if h.wrong then ⟨h.past, h.latest.map (failedAt t), false⟩ else h
  | .host (.send _ (.authResponse (.accepted _))) _ =>
    { h with latest := h.latest.map succeeded }
  | _ => h

def history (log : List Entry) : History := log.foldl historyStep ⟨[], none, false⟩

/-- The verdict of a guard that knows `c` by its origin and has seen nobody else's attempts. -/
def ownDecision (log : List Entry) (c : Connection) (now : ℕ) : GuardDecision :=
  let own := (history log).attempts.filter (·.source.origin = c.origin)
  ((BruteForceGuard.new.after (own.map (·.rename Connection.origin))).check c.origin now).1

def Entry.attempting : Entry → Option Connection
  | .host (.checked c _ _) _ => some c
  | _ => none

def SeparateAddresses (before : List Entry) (c : Connection) : Prop :=
  ∀ c' ∈ before.filterMap Entry.attempting, c'.remoteIp = c.remoteIp → c'.origin = c.origin

instance (before : List Entry) (c : Connection) : Decidable (SeparateAddresses before c) :=
  inferInstanceAs (Decidable (∀ c' ∈ before.filterMap Entry.attempting,
    c'.remoteIp = c.remoteIp → c'.origin = c.origin))

theorem remoteIp_of_origin {c c' : Connection} (h : c.origin = c'.origin) :
    c.remoteIp = c'.remoteIp := by
  unfold Connection.origin at h
  unfold Connection.remoteIp
  cases hc : c.peer <;> cases hc' : c'.peer <;> simp_all

theorem shared_address {c c' : Connection} (hip : c.remoteIp = c'.remoteIp)
    (hne : c.origin ≠ c'.origin) :
    c.remoteIp = .v4 0 ∧ ∃ id, c.peer = .iroh id ∨ c'.peer = .iroh id := by
  unfold Connection.origin at hne
  unfold Connection.remoteIp at hip ⊢
  cases hc : c.peer with
  | iroh id => exact ⟨rfl, id, .inl rfl⟩
  | quinn ip address fingerprint =>
    cases hc' : c'.peer with
    | iroh id =>
      simp only [hc, hc'] at hip
      exact ⟨hip, id, .inr rfl⟩
    | quinn ip' address' fingerprint' =>
      simp only [hc, hc'] at hip hne
      exact absurd (congrArg Origin.address hip) hne

theorem history_snoc (log : List Entry) (x : Entry) :
    history (log ++ [x]) = historyStep (history log) x := by
  simp [history]

theorem historyStep_sources {h : History} {x : Entry} {a : Attempt Connection}
    (ha : a ∈ (historyStep h x).attempts) :
    (∃ b ∈ h.attempts, b.source = a.source) ∨
      x.attempting = some a.source := by
  have hcorrect (f : Attempt Connection → Attempt Connection) (hf : ∀ b, (f b).source = b.source)
      (ha : a ∈ h.past ++ (h.latest.map f).toList) : ∃ b ∈ h.attempts, b.source = a.source := by
    rcases List.mem_append.mp ha with ha | ha
    · exact ⟨a, List.mem_append_left _ ha, rfl⟩
    · obtain ⟨b, hb, rfl⟩ := Option.map_eq_some_iff.mp (Option.mem_toList.mp ha)
      exact ⟨b, List.mem_append_right _ (Option.mem_toList.mpr hb), (hf b).symm⟩
  unfold historyStep at ha
  split at ha
  · rcases List.mem_append.mp ha with ha | ha
    · exact .inl ⟨a, ha, rfl⟩
    · obtain rfl := List.mem_singleton.mp ha
      exact .inr rfl
  · exact .inl ⟨a, ha, rfl⟩
  · split_ifs at ha
    · exact .inl (hcorrect (failedAt _) (fun _ => rfl) ha)
    · exact .inl ⟨a, ha, rfl⟩
  · exact .inl (hcorrect succeeded (fun _ => rfl) ha)
  · exact .inl ⟨a, ha, rfl⟩

theorem attempting_of_mem {log : List Entry} {a : Attempt Connection}
    (h : a ∈ (history log).attempts) : a.source ∈ log.filterMap Entry.attempting := by
  induction log using List.reverseRecOn generalizing a with
  | nil => simp [history, History.attempts] at h
  | append_singleton log x ih =>
    rw [history_snoc] at h
    rw [List.filterMap_append]
    rcases historyStep_sources h with ⟨b, hb, hsource⟩ | hx
    · exact List.mem_append_left _ (hsource ▸ ih hb)
    · exact List.mem_append_right _ (by simp [hx])

/-- The guard `g` is what the attempts `as` made of a new one, and none is later than `clock`. -/
structure Accounts (g : Guard) (as : List (Attempt Connection)) (clock : ℕ) : Prop where
  guard : g = BruteForceGuard.new.after (as.map (·.rename Connection.remoteIp))
  ordered : Ordered Attempt.checkedAt Attempt.recordedAt 0 as
  reached : horizon Attempt.recordedAt 0 as ≤ clock

section Accounts
variable {g g' : Guard} {as : List (Attempt Connection)} {c : Connection} {t u : ℕ}

theorem Accounts.mono (h : Accounts g as t) (htu : t ≤ u) : Accounts g as u :=
  ⟨h.guard, h.ordered, h.reached.trans htu⟩

theorem Accounts.snoc {o : Outcome} (h : Accounts g as t) (htu : t ≤ u) :
    Accounts (g.attempt ⟨c.remoteIp, t, u, o⟩).2 (as ++ [⟨c, t, u, o⟩]) u := by
  refine ⟨?_, ?_, ?_⟩
  · rw [List.map_append, after_append, ← h.guard]
    rfl
  · exact Timeline.ordered_append.mpr ⟨h.ordered, h.reached, htu, trivial⟩
  · rw [Timeline.horizon_append]
    exact le_refl u

theorem Accounts.settle {o : Outcome} (h : Accounts g as t)
    (hcheck : g.check c.remoteIp t = (.allow, g')) (htu : t ≤ u) :
    Accounts (g'.settle ⟨c.remoteIp, t, u, o⟩) (as ++ [⟨c, t, u, o⟩]) u := by
  have hsnoc := h.snoc (c := c) (o := o) htu
  simp only [BruteForceGuard.attempt, hcheck] at hsnoc
  exact hsnoc

theorem Accounts.block {d : ℕ} (h : Accounts g as t)
    (hcheck : g.check c.remoteIp t = (.blocked d, g')) :
    Accounts g' (as ++ [⟨c, t, t, .abandoned⟩]) t := by
  have hsnoc := h.snoc (c := c) (o := .abandoned) (le_refl t)
  simp only [BruteForceGuard.attempt, hcheck] at hsnoc
  exact hsnoc

theorem Accounts.decision {log : List Entry} (h : Accounts g (history log).attempts t)
    (hseparate : SeparateAddresses log c) :
    (g.check c.remoteIp t).1 = ownDecision log c t := by
  rw [h.guard]
  exact check_after h.ordered h.reached fun a ha =>
    ⟨hseparate a.source (attempting_of_mem ha), remoteIp_of_origin⟩

end Accounts

inductive GuardPhase
  | idle (guard : Guard)
  | timed (guard : Guard) (now : ℕ)
  | allowed (c : Connection) (guard : Guard)
  | wrong (c : Connection) (guard : Guard)

def Effect.guardless : Effect → Bool
  | .now => false
  | .checked _ _ _ => false
  | .compared _ _ _ _ => false
  | .takeCommand _ => false
  | .send _ (.authResponse (.accepted _)) => false
  | _ => true

inductive GuardStep : GuardPhase → (e : Effect) → e.Answer → GuardPhase → Prop
  | guardless {φ e a} (h : e.guardless = true) : GuardStep φ e a φ
  | time {guard now} : GuardStep (.idle guard) .now now (.timed guard now)
  | allow {guard guard' c now} (h : guard.check c.remoteIp now = (.allow, guard')) :
      GuardStep (.timed guard now) (.checked c now .allow) () (.allowed c guard')
  | block {guard guard' c now d} (h : guard.check c.remoteIp now = (.blocked d, guard')) :
      GuardStep (.timed guard now) (.checked c now (.blocked d)) () (.idle guard')
  | right {guard c code candidate} :
      GuardStep (.allowed c guard) (.compared c code candidate true) () (.allowed c guard)
  | wrong {guard c code candidate} :
      GuardStep (.allowed c guard) (.compared c code candidate false) () (.wrong c guard)
  | fail {guard c now} :
      GuardStep (.wrong c guard) .now now (.idle (guard.recordFailure c.remoteIp now))
  | approve {guard c} : GuardStep (.allowed c guard) (.takeCommand c) (some .approve)
      (.allowed c guard)
  | decline {guard c a} : GuardStep (.allowed c guard) (.takeCommand c) a (.idle guard)
  | succeed {guard c id sent} :
      GuardStep (.allowed c guard) (.send c (.authResponse (.accepted id))) sent
        (.idle (guard.recordSuccess c.remoteIp))

def HandsBack {R : Type} (r : Guard × R) (φ : GuardPhase) : Prop := φ = .idle r.1

section Follows
variable {c : Connection} {guard : Guard} {code : ConnectCode}

theorem guards_guardless {R : Type} {φ : GuardPhase} {e : Effect} {f : e.Answer → HostM R}
    {post : R → GuardPhase → Prop} (h : e.guardless = true)
    (hf : ∀ a, Follows GuardStep (f a) post φ) : Follows GuardStep (perform e >>= f) post φ :=
  follows_call.mpr fun a => ⟨φ, .guardless h, hf a⟩

theorem guardless_of_ofStream (e : Effect) (h : e.ofStream = true) : e.guardless = true := by
  cases e with
  | send c m =>
    cases m with
    | authResponse outcome => cases h
    | _ => rfl
  | now | checked | compared | takeCommand => cases h
  | _ => rfl

theorem guards_reject (reason : String) :
    Follows GuardStep (reject c guard reason) HandsBack (.idle guard) := by
  refine guards_guardless rfl fun _ => ?_
  exact guards_guardless rfl fun _ => rfl

theorem guards_accept (hello : Hello) :
    Follows GuardStep (accept c guard hello) HandsBack (.allowed c guard) := by
  refine guards_guardless rfl fun id => ?_
  refine follows_call.mpr fun sent => ⟨_, .succeed, ?_⟩
  cases sent with
  | false => rfl
  | true => exact guards_guardless rfl fun _ => rfl

theorem guards_awaitApproval :
    Follows GuardStep (awaitApproval c)
      (fun ok φ => φ = bif ok then .allowed c guard else .idle guard) (.allowed c guard) := by
  refine guards_guardless rfl fun _ => guards_guardless rfl fun _ => ?_
  refine follows_call.mpr fun command => ?_
  have hdecline {answer : Option HostCommand} : ∃ φ,
      GuardStep (.allowed c guard) (.takeCommand c) answer φ ∧ Follows GuardStep (do
        let _ ← send c (rejected "host declined the connection")
        let peer := c.remoteLabel
        let _ ← emit (.log s!"declined {peer}")
        return false) (fun ok φ => φ = bif ok then .allowed c guard else .idle guard) φ := by
    refine ⟨_, .decline, guards_guardless rfl fun _ => ?_⟩
    exact guards_guardless rfl fun _ => rfl
  rcases command with _ | _ | _ | _
  · exact hdecline
  · exact ⟨_, .approve, rfl⟩
  · exact hdecline
  · exact hdecline

theorem guards_judge (config : HostConfig) (hello : Hello) (candidate : String) :
    Follows GuardStep (judge config c code guard hello candidate) HandsBack (.idle guard) := by
  refine follows_call.mpr fun now => ⟨_, .time, ?_⟩
  cases hcheck : guard.check c.remoteIp now with
  | mk decision guard' =>
    refine follows_call.mpr fun _ => ?_
    cases decision with
    | blocked d =>
      refine ⟨_, .block hcheck, guards_guardless rfl fun _ => ?_⟩
      exact guards_guardless rfl fun _ => rfl
    | allow =>
      refine ⟨_, .allow hcheck, follows_call.mpr fun _ => ?_⟩
      cases code.verify candidate with
      | false =>
        refine ⟨_, .wrong, follows_call.mpr fun now => ⟨_, .fail, ?_⟩⟩
        refine guards_guardless rfl fun _ => ?_
        exact guards_guardless rfl fun _ => rfl
      | true =>
        refine ⟨_, .right, ?_⟩
        cases config.requireManualApproval with
        | false => exact guards_accept hello
        | true =>
          refine guards_awaitApproval.bind ?_
          rintro ok φ rfl
          cases ok with
          | false => rfl
          | true => exact guards_accept hello

theorem guards_authenticate (config : HostConfig) :
    Follows GuardStep (authenticate config c code guard) HandsBack (.idle guard) := by
  refine guards_guardless rfl fun message => ?_
  split
  · dsimp only
    split_ifs
    · refine guards_guardless rfl fun _ => ?_
      exact guards_guardless rfl fun _ => rfl
    · refine guards_guardless rfl fun message => ?_
      split
      · exact guards_judge config _ _
      · exact guards_reject _
  · exact guards_reject _

theorem guards_runSession {h264 : Bool} (config : HostConfig) :
    Follows GuardStep (runSession h264 config c code guard) (fun g φ => φ = .idle g)
      (.idle guard) := by
  refine guards_guardless rfl fun opened => ?_
  cases opened with
  | error e => exact guards_guardless rfl fun _ => rfl
  | ok _ =>
    refine (guards_authenticate config).bind ?_
    rintro ⟨guard, viewerCodecs | _⟩ φ rfl
    · have hstreams := streams_streamAndControl h264 config c viewerCodecs
      refine (Follows.of_only hstreams fun e _ he =>
        .guardless (guardless_of_ofStream e he)).bind ?_
      rintro _ φ rfl
      rfl
    · exact guards_guardless rfl fun _ => rfl

theorem guards_generateCode (addr : SocketAddrV4) (φ : GuardPhase) :
    Follows GuardStep (generateCode addr) (fun _ φ' => φ' = φ) φ :=
  guards_guardless rfl fun _ => rfl

theorem guardless_of_ofRegistration (e : Effect) (h : e.ofRegistration = true) :
    e.guardless = true := by
  cases e with
  | now | checked | compared | takeCommand | send => cases h
  | _ => rfl

theorem guards_registration {R : Type} {p : HostM R} (hp : Registers p) (φ : GuardPhase) :
    Follows GuardStep p (fun _ φ' => φ' = φ) φ :=
  Follows.of_only hp fun e _ he => .guardless (guardless_of_ofRegistration e he)

def Handed (r : Guard ⊕ Unit) (φ : GuardPhase) : Prop :=
  r.elim (fun guard => φ = .idle guard) (fun _ => True)

theorem guards_serve {h264 : Bool} (config : HostConfig)
    (registration : Option InternetRegistration) :
    Follows GuardStep (serve h264 config registration code guard) Handed (.idle guard) := by
  have hunregister {r : Guard ⊕ Unit} {φ : GuardPhase} (hr : Handed r φ) :
      Follows GuardStep (do
        unregisterInternet registration
        return r) Handed φ := by
    refine (guards_registration (registers_unregisterInternet registration) φ).bind ?_
    rintro _ φ rfl
    exact hr
  refine guards_guardless rfl fun heard => ?_
  cases heard with
  | false => trivial
  | true =>
    refine guards_guardless rfl fun accepted => ?_
    rcases accepted with _ | e | c
    · exact hunregister trivial
    · exact guards_guardless rfl fun _ => hunregister rfl
    · refine (guards_runSession config).bind ?_
      rintro guard φ rfl
      exact hunregister rfl

theorem guards_run {h264 : Bool} (config : HostConfig) (advertised : SocketAddrV4) :
    Follows GuardStep (run h264 config advertised) (fun _ _ => True) (.idle .new) := by
  refine Follows.loop (J := fun guard φ => φ = .idle guard) rfl fun guard φ hφ => ?_
  subst hφ
  refine (guards_registration (registers_registerInternet config) _).bind ?_
  rintro (_ | registration) φ rfl
  · refine (guards_generateCode advertised _).bind ?_
    rintro code φ rfl
    exact guards_serve config none
  · exact guards_serve config (some registration)

end Follows

inductive OnRecord : GuardPhase → History → ℕ → Prop
  | idle {guard h clock} (hw : h.wrong = false) (ha : Accounts guard h.attempts clock) :
      OnRecord (.idle guard) h clock
  | timed {guard h now clock} (hw : h.wrong = false) (ha : Accounts guard h.attempts now)
      (hle : now ≤ clock) : OnRecord (.timed guard now) h clock
  | allowed {guard guard' c as now clock} (ha : Accounts guard as now) (hle : now ≤ clock)
      (hcheck : guard.check c.remoteIp now = (.allow, guard')) :
      OnRecord (.allowed c guard') ⟨as, some ⟨c, now, now, .abandoned⟩, false⟩ clock
  | wrong {guard guard' c as now clock} (ha : Accounts guard as now) (hle : now ≤ clock)
      (hcheck : guard.check c.remoteIp now = (.allow, guard')) :
      OnRecord (.wrong c guard') ⟨as, some ⟨c, now, now, .abandoned⟩, true⟩ clock

theorem historyStep_guardless {e : Effect} {a : e.Answer} (h : History)
    (he : e.guardless = true) : historyStep h (.host e a) = h := by
  cases e with
  | send c m =>
    cases m with
    | authResponse outcome => cases outcome <;> first | rfl | cases he
    | _ => rfl
  | now | checked | compared => cases he
  | _ => rfl

theorem historyStep_foreign {x : Entry} (h : History) (hx : x.ofHost = false) :
    historyStep h x = h := by
  cases x with
  | host e a => cases hx
  | _ => rfl

section Keeping
variable {φ φ' : GuardPhase} {h : History} {w w' v : World} {e : Effect} {a : e.Answer}

theorem OnRecord.step (hr : OnRecord φ h w.clock) (hstep : GuardStep φ e a φ')
    (hsettle : w.settle e a = some v) : OnRecord φ' (historyStep h (.host e a)) v.clock := by
  have hclock (hne : e ≠ .now) : v.clock = w.clock := (settle_unrelated hsettle).clock hne
  cases hstep with
  | guardless he =>
    rw [historyStep_guardless h he, hclock (fun hnow => by subst hnow; cases he)]
    exact hr
  | @time guard now =>
    obtain ⟨hle, hv⟩ := settle_now hsettle
    cases hr with
    | idle hw ha =>
      have hsame : historyStep h (.host .now now) = h := by simp [historyStep, hw]
      rw [hsame, hv]
      exact .timed hw (ha.mono hle) (le_refl _)
  | allow hcheck =>
    rw [hclock (by simp)]
    cases hr with
    | timed hw ha hle => exact .allowed ha hle hcheck
  | block hcheck =>
    rw [hclock (by simp)]
    cases hr with
    | timed hw ha hle => exact .idle rfl ((ha.block hcheck).mono hle)
  | right =>
    rw [hclock (by simp)]
    cases hr with
    | allowed ha hle hcheck => exact .allowed ha hle hcheck
  | wrong =>
    rw [hclock (by simp)]
    cases hr with
    | allowed ha hle hcheck => exact .wrong ha hle hcheck
  | fail =>
    obtain ⟨hle', hv⟩ := settle_now hsettle
    rw [hv]
    cases hr with
    | wrong ha hle hcheck => exact .idle rfl (ha.settle (o := .failure) hcheck (hle.trans hle'))
  | approve =>
    rw [hclock (by simp)]
    exact hr
  | decline =>
    rw [hclock (by simp)]
    cases hr with
    | allowed ha hle hcheck =>
      exact .idle rfl ((ha.settle (o := .abandoned) hcheck (le_refl _)).mono hle)
  | succeed =>
    rw [hclock (by simp)]
    cases hr with
    | allowed ha hle hcheck =>
      exact .idle rfl ((ha.settle (o := .success) hcheck (le_refl _)).mono hle)

/-- A decision about `c` is its own, if nobody else has attempted anything under its address. -/
def DecidesOwn (before : List Entry) (x : Entry) : Prop :=
  ∀ c now d, x = .host (.checked c now d) () → SeparateAddresses before c →
    d = ownDecision before c now

theorem decidesOwn_step (hr : OnRecord φ (history w.log) w.clock) (hstep : GuardStep φ e a φ') :
    DecidesOwn w.log (.host e a) := by
  rintro c now d ⟨⟩ hseparate
  cases hstep with
  | guardless he => cases he
  | allow hcheck =>
    cases hr with
    | timed hw ha hle => exact (congrArg Prod.fst hcheck).symm.trans (ha.decision hseparate)
  | block hcheck =>
    cases hr with
    | timed hw ha hle => exact (congrArg Prod.fst hcheck).symm.trans (ha.decision hseparate)

theorem keeps_recorded : machine.Keeps GuardStep World.log
    (fun φ w => OnRecord φ (history w.log) w.clock) DecidesOwn where
  respond {φ φ' w w' e a} hr hstep hrespond := by
    obtain ⟨v, hsettle, hs, rfl⟩ := respond_spec hrespond
    refine ⟨?_, .inr ⟨_, hs.record_log, decidesOwn_step hr hstep⟩⟩
    rw [hs.record_log, history_snoc]
    have hclock : (v.record (.host e a)).clock = v.clock := rfl
    rw [hclock]
    exact hr.step hstep hsettle
  drift {φ w} d hr := by
    have hd : Drifted w (machine.drift w d) := drift_spec w d
    rcases hd.grows with hlog | ⟨x, hlog, hx⟩
    · exact ⟨by rw [hlog, hd.unrelated.2]; exact hr, .inl hlog⟩
    · refine ⟨?_, .inr ⟨x, hlog, ?_⟩⟩
      · rw [hlog, history_snoc, historyStep_foreign _ hx, hd.unrelated.2]
        exact hr
      · rintro c now d rfl
        cases hx

end Keeping

/-- Every decision about a peer whose address nobody else has used is the one that its own attempts
give, whoever shares addresses besides. -/
theorem penalties_stay_with_peer (h264 : Bool) (config : HostConfig) (port : UInt16)
    (ticks : List HostTick) :
    ∀ before c now d after,
      (runHost h264 config port ticks).log = before ++ .host (.checked c now d) () :: after →
      SeparateAddresses before c → d = ownDecision before c now := by
  have hstart : OnRecord (.idle .new) (history World.start.log) World.start.clock :=
    .idle rfl ⟨rfl, trivial, le_refl _⟩
  obtain ⟨φ, -, -, hlawful⟩ := keeps_recorded.run
    (σ := ⟨start h264 config port, .start⟩) (guards_run config _) hstart Lawful.nil ticks
  intro before c now d after hsplit hseparate
  exact hlawful before _ after hsplit c now d rfl hseparate

def sampleVisit (n : ℕ) (peer : Peer) (message : ControlMessage) : Script :=
  { sampleViewer n message with connection := ⟨n, peer⟩ }

def wrongTry (n : ℕ) (peer : Peer) : List HostTick :=
  (sampleVisit n peer sampleHello).ticks 6 ++
    (sampleVisit n peer (.authRequest "wrong")).ticks 8

def mixedLog : List Entry :=
  (runHost false (sampleConfig false) 5000 (wrongTry 0 (.iroh "a") ++ wrongTry 1 (.iroh "b") ++
    wrongTry 2 (.quinn (.v4 1) "10.0.0.1:5000" none))).log

set_option maxRecDepth 10000 in
theorem penalties_stay_with_peer_mixed :
    ownDecision (mixedLog.take 33) ⟨2, .quinn (.v4 1) "10.0.0.1:5000" none⟩ 0 = .allow := by
  have hentry : mixedLog[33]? = some (.host (.checked
      ⟨2, .quinn (.v4 1) "10.0.0.1:5000" none⟩ 0 .allow) ()) := rfl
  obtain ⟨hlt, hget⟩ := List.getElem?_eq_some_iff.mp hentry
  have hsplit : mixedLog = mixedLog.take 33 ++ mixedLog[33] :: mixedLog.drop 34 := by
    rw [List.getElem_cons_drop, List.take_append_drop]
  rw [hget] at hsplit
  exact (penalties_stay_with_peer false (sampleConfig false) 5000 _ _ _ _ _ _ hsplit
    (by decide)).symm

/-- Five wrong codes of one Iroh endpoint, and then an attempt of another one. -/
def irohTicks : List HostTick :=
  (List.range 5).flatMap (wrongTry · (.iroh "a")) ++ wrongTry 5 (.iroh "b")

def irohLog : List Entry := (runHost false (sampleConfig false) 5000 irohTicks).log

set_option maxRecDepth 10000 in
theorem iroh_endpoints_share_penalties :
    ¬ ∀ h264 config port ticks, Lawful (fun before x => ∀ c now d,
      x = .host (.checked c now d) () → d = ownDecision before c now)
      (runHost h264 config port ticks).log := by
  intro h
  have hentry : irohLog[72]? =
      some (.host (.checked ⟨5, .iroh "b"⟩ 0 (.blocked (Timeline.fromSecs 15))) ()) := rfl
  obtain ⟨hlt, hget⟩ := List.getElem?_eq_some_iff.mp hentry
  have hsplit : irohLog = irohLog.take 72 ++ irohLog[72] :: irohLog.drop 73 := by
    rw [List.getElem_cons_drop, List.take_append_drop]
  have hown := h false (sampleConfig false) 5000 irohTicks _ _ _ hsplit _ _ _ hget
  have hallow : ownDecision (irohLog.take 72) ⟨5, .iroh "b"⟩ 0 = .allow := rfl
  rw [hallow] at hown
  cases hown

end Controlis.Host
