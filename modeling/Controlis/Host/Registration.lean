import Controlis.Host.Machine

/-!
# Who takes an internet registration back

A round may register the host on the rendezvous server, and a refresh task then
keeps the registration alive. The round gives it back at its end by aborting the
task and unregistering, whatever the connection did. The one exit that does not
is the one of a host whose code nobody hears: it returns with the registration in
hand, and the task refreshes it for good.
-/

namespace Controlis.Host
open Protocol Security Rendezvous Session Interaction

structure Lease where
  client : Client
  request : UnregisterRequest
  task : ℕ

def Entry.lease : Entry → Option Lease
  | .host (.spawnRefresh client sessionId token _) task => some ⟨client, ⟨sessionId, token⟩, task⟩
  | _ => none

def CleanedUp (lease : Lease) (after : List Entry) : Prop :=
  .host (.abortRefresh lease.task) () ∈ after ∧
    ∃ a, .host (.unregister lease.client lease.request) a ∈ after

/-- Every registration is cleaned up, or `debt` accounts for it. -/
def Owing (debt : Lease → List Entry → Prop) (log : List Entry) : Prop :=
  ∀ before x after lease, log = before ++ x :: after → x.lease = some lease →
    CleanedUp lease after ∨ debt lease after

def Tidy (log : List Entry) : Prop :=
  ∀ before x after lease, log = before ++ x :: after → x.lease = some lease →
    CleanedUp lease after

def Entry.opensRound : Entry → Bool
  | .host (.bindIroh _ _) _ => true
  | .host (.drawSecret _) _ => true
  | _ => false

def Entry.unheardCode : Entry → Bool
  | .host (.emit (.codeReady _)) heard => !heard
  | _ => false

def registeredStep (registered : Bool) : Entry → Bool
  | .host (.spawnRefresh _ _ _ _) _ => true
  | .host (.accept _) _ => false
  | _ => registered

def registeredThisRound (log : List Entry) : Bool := log.foldl registeredStep false

def HeardWhenRegistered (log : List Entry) : Prop :=
  Lawful (fun before x => x.unheardCode = true → registeredThisRound before = false) log

section Logs
variable {log : List Entry} {x : Entry} {lease : Lease}

theorem registeredThisRound_snoc (log : List Entry) (x : Entry) :
    registeredThisRound (log ++ [x]) = registeredStep (registeredThisRound log) x := by
  simp [registeredThisRound]

theorem tidy_iff : Tidy log ↔ Owing (fun _ _ => False) log := by
  simp only [Tidy, Owing, or_false]

theorem CleanedUp.snoc {after : List Entry} (h : CleanedUp lease after) :
    CleanedUp lease (after ++ [x]) := by
  obtain ⟨habort, a, hunregister⟩ := h
  exact ⟨List.mem_append_left _ habort, a, List.mem_append_left _ hunregister⟩

theorem Owing.snoc {debt debt' : Lease → List Entry → Prop} (h : Owing debt log)
    (hx : x.lease = none)
    (hdebt : ∀ lease after, debt lease after →
      CleanedUp lease (after ++ [x]) ∨ debt' lease (after ++ [x])) :
    Owing debt' (log ++ [x]) := by
  intro before y after lease hsplit hlease
  rcases snoc_eq_append hsplit with ⟨-, hnil⟩ | ⟨rest, hrest, hlog⟩
  · cases hnil
  · cases rest with
    | nil =>
      cases hrest
      rw [hx] at hlease
      cases hlease
    | cons z rest =>
      cases hrest
      rcases h before y rest lease hlog hlease with hclean | howed
      · exact .inl hclean.snoc
      · exact hdebt lease rest howed

theorem Owing.register {debt : Lease → List Entry → Prop} (h : Tidy log)
    (hx : x.lease = some lease) (hdebt : debt lease []) : Owing debt (log ++ [x]) := by
  intro before y after lease' hsplit hlease
  rcases snoc_eq_append hsplit with ⟨-, hnil⟩ | ⟨rest, hrest, hlog⟩
  · cases hnil
  · cases rest with
    | nil =>
      cases hrest
      rw [hx] at hlease
      cases hlease
      exact .inr hdebt
    | cons z rest =>
      cases hrest
      exact .inl (h before y rest lease' hlog hlease).snoc

end Logs

/-- From `held` to `kept` the host goes to accept; `leaked` is left only by returning. -/
inductive Lending
  | idle
  | held (lease : Lease)
  | kept (lease : Lease)
  | aborted (lease : Lease)
  | leaked

def Effect.leaseless : Effect → Bool
  | .bindIroh _ _ => false
  | .drawSecret _ => false
  | .spawnRefresh _ _ _ _ => false
  | .abortRefresh _ => false
  | .unregister _ _ => false
  | .emit (.codeReady _) => false
  | .accept _ => false
  | _ => true

inductive LeaseStep : Lending → (e : Effect) → e.Answer → Lending → Prop
  | leaseless {φ e a} (h : e.leaseless = true) : LeaseStep φ e a φ
  | bind {secretKey relayUrl a} : LeaseStep .idle (.bindIroh secretKey relayUrl) a .idle
  | draw {target a} : LeaseStep .idle (.drawSecret target) a .idle
  | register {client sessionId token endpoint task} :
      LeaseStep .idle (.spawnRefresh client sessionId token endpoint) task
        (.held ⟨client, ⟨sessionId, token⟩, task⟩)
  | heard {φ code} : LeaseStep φ (.emit (.codeReady code)) true φ
  | unheard {code} : LeaseStep .idle (.emit (.codeReady code)) false .idle
  | leak {lease code} : LeaseStep (.held lease) (.emit (.codeReady code)) false .leaked
  | acceptLan {internet a} : LeaseStep .idle (.accept internet) a .idle
  | accept {lease internet a} : LeaseStep (.held lease) (.accept internet) a (.kept lease)
  | abort {lease} : LeaseStep (.kept lease) (.abortRefresh lease.task) () (.aborted lease)
  | unregister {lease a} :
      LeaseStep (.aborted lease) (.unregister lease.client lease.request) a .idle

theorem leaseless_of_ofVisit (e : Effect) (h : e.ofVisit = true) : e.leaseless = true := by
  cases e with
  | emit event => cases event <;> first | rfl | cases h
  | bindIroh | drawSecret | spawnRefresh | abortRefresh | unregister | accept => cases h
  | _ => rfl

theorem lends_leaseless {R : Type} {φ : Lending} {e : Effect} {f : e.Answer → HostM R}
    {post : R → Lending → Prop} (h : e.leaseless = true)
    (hf : ∀ a, Follows LeaseStep (f a) post φ) : Follows LeaseStep (perform e >>= f) post φ :=
  follows_call.mpr fun a => ⟨φ, .leaseless h, hf a⟩

def InternetRegistration.lease (registration : InternetRegistration) : Lease :=
  ⟨registration.client, ⟨registration.sessionId, registration.token⟩, registration.refreshTask⟩

def lendingOf (registration : Option InternetRegistration) (hold : Lease → Lending) : Lending :=
  (registration.map (hold ·.lease)).getD .idle

theorem lends_generateCode (addr : SocketAddrV4) :
    Follows LeaseStep (generateCode addr) (fun _ φ => φ = .idle) .idle :=
  follows_call.mpr fun _ => ⟨_, .draw, rfl⟩

theorem lends_generateRendezvousCode (sessionId : SessionId) :
    Follows LeaseStep (generateRendezvousCode sessionId) (fun _ φ => φ = .idle) .idle :=
  follows_call.mpr fun _ => ⟨_, .draw, rfl⟩

theorem lends_registerInternet (config : HostConfig) :
    Follows LeaseStep (registerInternet config) (fun r φ => φ = lendingOf r .held) .idle := by
  have hfallback (reason : String) : Follows LeaseStep (logInternetFallback reason)
      (fun r φ => φ = lendingOf r .held) .idle := lends_leaseless rfl fun _ => rfl
  unfold registerInternet
  cases config.internet with
  | none => rfl
  | some internet =>
    dsimp only
    cases Client.new internet.rendezvousUrl with
    | error e => exact hfallback _
    | ok client =>
      refine follows_call.mpr fun bound => ⟨_, .bind, ?_⟩
      cases bound with
      | error e => exact hfallback _
      | ok _ =>
        refine lends_leaseless rfl fun id => ?_
        refine (lends_generateRendezvousCode _).bind ?_
        rintro (e | code) φ rfl
        · exact hfallback _
        · refine lends_leaseless rfl fun endpoint => ?_
          refine lends_leaseless rfl fun response => ?_
          cases response with
          | error e => exact hfallback _
          | ok response =>
            refine lends_leaseless rfl fun _ => ?_
            refine lends_leaseless rfl fun endpoint => ?_
            exact follows_call.mpr fun task => ⟨_, .register, rfl⟩

theorem lends_unregisterInternet (registration : Option InternetRegistration) :
    Follows LeaseStep (unregisterInternet registration) (fun _ φ => φ = .idle)
      (lendingOf registration .kept) := by
  cases registration with
  | none => rfl
  | some registration =>
    refine follows_call.mpr fun _ => ⟨_, .abort, ?_⟩
    exact follows_call.mpr fun _ => ⟨_, @LeaseStep.unregister registration.lease _, rfl⟩

theorem lends_runSession {h264 : Bool} (config : HostConfig) (c : Connection) (code : ConnectCode)
    (guard : Guard) (φ : Lending) :
    Follows LeaseStep (runSession h264 config c code guard) (fun _ φ' => φ' = φ) φ :=
  Follows.of_only (visits_runSession h264 config c code guard)
    fun e _ he => .leaseless (leaseless_of_ofVisit e he)

def RoundEnd (r : Guard ⊕ Unit) (φ : Lending) : Prop :=
  r.elim (fun _ => φ = .idle) (fun _ => φ = .idle ∨ φ = .leaked)

theorem roundEnd_idle (r : Guard ⊕ Unit) : RoundEnd r .idle := by
  cases r with
  | inl guard => rfl
  | inr _ => exact .inl rfl

theorem lends_serve {h264 : Bool} (config : HostConfig)
    (registration : Option InternetRegistration) (code : ConnectCode) (guard : Guard) :
    Follows LeaseStep (serve h264 config registration code guard) RoundEnd
      (lendingOf registration .held) := by
  have hunregister {r : Guard ⊕ Unit} :
      Follows LeaseStep (do
        unregisterInternet registration
        return r) RoundEnd (lendingOf registration .kept) := by
    refine (lends_unregisterInternet registration).bind ?_
    rintro _ φ rfl
    exact roundEnd_idle r
  refine follows_call.mpr fun heard => ?_
  cases heard with
  | false =>
    cases registration with
    | none => exact ⟨_, .unheard, .inl rfl⟩
    | some registration => exact ⟨_, .leak, .inr rfl⟩
  | true =>
    refine ⟨_, .heard, follows_call.mpr fun accepted => ⟨lendingOf registration .kept, ?_, ?_⟩⟩
    · cases registration with
      | none => exact .acceptLan
      | some registration => exact .accept
    · rcases accepted with _ | e | c
      · exact hunregister
      · exact lends_leaseless rfl fun _ => hunregister
      · refine (lends_runSession config c code guard _).bind ?_
        rintro guard φ rfl
        exact hunregister

theorem lends_run {h264 : Bool} (config : HostConfig) (advertised : SocketAddrV4) :
    Follows LeaseStep (run h264 config advertised) (fun _ φ => φ = .idle ∨ φ = .leaked) .idle := by
  refine Follows.loop (J := fun _ φ => φ = .idle) rfl fun guard φ hφ => ?_
  subst hφ
  refine (lends_registerInternet config).bind ?_
  rintro (_ | registration) φ rfl
  · refine (lends_generateCode advertised).bind ?_
    rintro code φ rfl
    exact lends_serve config none code guard
  · exact lends_serve config (some registration) registration.code guard

def Lending.lease? : Lending → Option Lease
  | .held lease => some lease
  | .kept lease => some lease
  | _ => none

def Lending.isHeld : Lending → Bool
  | .held _ => true
  | _ => false

def Lending.debt : Lending → Lease → List Entry → Prop
  | .held lease, lease', _ => lease' = lease
  | .kept lease, lease', _ => lease' = lease
  | .aborted lease, lease', after => lease' = lease ∧ .host (.abortRefresh lease.task) () ∈ after
  | _, _, _ => False

structure Lent (φ : Lending) (w : World) : Prop where
  refreshing : ∀ task, w.refreshing[task]? = some true ↔ φ.lease?.map (·.task) = some task
  debts : Owing φ.debt w.log
  registered : registeredThisRound w.log = φ.isHeld
  heard : HeardWhenRegistered w.log

/-- A leak shows for good: a task is refreshing, and a code with a registration went unheard. -/
def Leaked (w : World) : Prop :=
  (∃ task : ℕ, w.refreshing[task]? = some true) ∧ ¬ HeardWhenRegistered w.log

def LentOrLeaked : Lending → World → Prop
  | .leaked, w => Leaked w
  | φ, w => Lent φ w

section Keeping
variable {φ φ' : Lending} {w w' v : World} {e : Effect} {a : e.Answer}

structure Neutral (x : Entry) : Prop where
  lease : x.lease = none
  registered : ∀ b, registeredStep b x = b
  heard : x.unheardCode = false

theorem refreshes_of_leaseless (he : e.leaseless = true) : e.refreshes = false := by
  cases e with
  | spawnRefresh | abortRefresh => cases he
  | _ => rfl

theorem neutral_of_leaseless (he : e.leaseless = true) : Neutral (.host e a) := by
  cases e with
  | emit event =>
    cases event with
    | codeReady code => cases he
    | _ => exact ⟨rfl, fun _ => rfl, rfl⟩
  | spawnRefresh | accept => cases he
  | _ => exact ⟨rfl, fun _ => rfl, rfl⟩

theorem neutral_of_foreign {x : Entry} (hx : x.ofHost = false) : Neutral x := by
  cases x with
  | host e a => cases hx
  | _ => exact ⟨rfl, fun _ => rfl, rfl⟩

theorem debt_snoc {lease : Lease} {after : List Entry} (x : Entry) (h : φ.debt lease after) :
    φ.debt lease (after ++ [x]) := by
  cases φ with
  | held lease => exact h
  | kept lease => exact h
  | aborted lease => exact ⟨h.1, List.mem_append_left _ h.2⟩
  | _ => exact h

theorem Lent.step {x : Entry} (h : Lent φ w) (hlog : w'.log = w.log ++ [x])
    (hrefreshing : ∀ task, w'.refreshing[task]? = some true ↔ φ'.lease?.map (·.task) = some task)
    (hdebts : Owing φ'.debt (w.log ++ [x]))
    (hregistered : registeredStep φ.isHeld x = φ'.isHeld)
    (hheard : x.unheardCode = true → φ.isHeld = false) : Lent φ' w' := by
  refine ⟨hrefreshing, hlog ▸ hdebts, ?_, ?_⟩
  · rw [hlog, registeredThisRound_snoc, h.registered, hregistered]
  · rw [hlog]
    exact Lawful.snoc h.heard fun hx => h.registered.trans (hheard hx)

theorem Lent.pass {x : Entry} (h : Lent φ w) (hlog : w'.log = w.log ++ [x])
    (hrefreshing : w'.refreshing = w.refreshing) (hlease : φ'.lease? = φ.lease?)
    (hx : x.lease = none) (hdebt : ∀ lease after, φ.debt lease after →
      CleanedUp lease (after ++ [x]) ∨ φ'.debt lease (after ++ [x]))
    (hregistered : registeredStep φ.isHeld x = φ'.isHeld)
    (hheard : x.unheardCode = true → φ.isHeld = false) : Lent φ' w' := by
  refine h.step hlog ?_ (h.debts.snoc hx hdebt) hregistered hheard
  rw [hrefreshing, hlease]
  exact h.refreshing

theorem LentOrLeaked.neutral {x : Entry} (h : LentOrLeaked φ w) (hlog : w'.log = w.log ++ [x])
    (hrefreshing : w'.refreshing = w.refreshing) (hx : Neutral x) : LentOrLeaked φ w' := by
  have hlent (h : Lent φ w) : Lent φ w' := by
    refine h.pass hlog hrefreshing rfl hx.lease (fun lease after hdebt => .inr (debt_snoc x hdebt))
      (hx.registered _) ?_
    rw [hx.heard]
    exact fun hfalse => nomatch hfalse
  cases φ with
  | leaked =>
    refine ⟨by rw [hrefreshing]; exact h.1, fun hheard => h.2 ?_⟩
    rw [hlog] at hheard
    exact Lawful.left hheard
  | _ => exact hlent h

theorem LentOrLeaked.still (h : LentOrLeaked φ w) (hlog : w'.log = w.log)
    (hrefreshing : w'.refreshing = w.refreshing) : LentOrLeaked φ w' := by
  cases φ with
  | leaked => exact ⟨by rw [hrefreshing]; exact h.1, by rw [hlog]; exact h.2⟩
  | _ =>
    exact ⟨by rw [hrefreshing]; exact h.refreshing, by rw [hlog]; exact h.debts,
      by rw [hlog]; exact h.registered, by rw [hlog]; exact h.heard⟩

theorem lent_register {client : Client} {sessionId : Rendezvous.SessionId} {token : String}
    {endpoint : EndpointDescriptor} {task : ℕ} (h : Lent .idle w)
    (hlog : w'.log = w.log ++ [.host (.spawnRefresh client sessionId token endpoint) task])
    (htask : task = w.refreshing.length) (hrefreshing : w'.refreshing = w.refreshing ++ [true]) :
    Lent (.held ⟨client, ⟨sessionId, token⟩, task⟩) w' := by
  refine h.step hlog (fun t => ?_) (Owing.register (tidy_iff.mpr h.debts) rfl rfl) rfl nofun
  have hidle : ¬w.refreshing[t]? = some true := by
    intro htrue
    cases (h.refreshing t).mp htrue
  rw [hrefreshing]
  rcases lt_trichotomy t w.refreshing.length with hlt | rfl | hgt
  · simp [List.getElem?_append_left hlt, hidle, htask, Lending.lease?, hlt.ne']
  · simp [htask, Lending.lease?]
  · have hnone : (w.refreshing ++ [true])[t]? = none :=
      List.getElem?_eq_none (by rw [List.length_append]; exact hgt)
    simp [hnone, htask, Lending.lease?, hgt.ne]

theorem lent_abort {lease : Lease} (h : Lent (.kept lease) w)
    (hlog : w'.log = w.log ++ [.host (.abortRefresh lease.task) ()])
    (hrefreshing : w'.refreshing = w.refreshing.set lease.task false) :
    Lent (.aborted lease) w' := by
  refine h.step hlog (fun task => ?_) ?_ rfl nofun
  · have hheld : w.refreshing[task]? = some true ↔ some lease.task = some task :=
      h.refreshing task
    rw [hrefreshing, List.getElem?_set]
    split_ifs with htask hlt
    · simp [Lending.lease?]
    · simp [Lending.lease?]
    · simp [Lending.lease?, hheld, htask]
  · refine h.debts.snoc rfl fun lease' after hdebt => .inr ⟨hdebt, ?_⟩
    exact List.mem_append_right _ (List.mem_singleton_self _)

theorem lent_leak {lease : Lease} {code : String} (h : Lent (.held lease) w)
    (hlog : w'.log = w.log ++ [.host (.emit (.codeReady code)) false])
    (hrefreshing : w'.refreshing = w.refreshing) : Leaked w' := by
  refine ⟨⟨_, hrefreshing ▸ (h.refreshing _).mpr rfl⟩, fun hheard => ?_⟩
  have hfalse := hheard w.log _ [] hlog rfl
  rw [h.registered] at hfalse
  cases hfalse

theorem lent_respond (h : LentOrLeaked φ w) (hstep : LeaseStep φ e a φ')
    (hsettle : w.settle e a = some v) (hlog : w'.log = w.log ++ [.host e a])
    (hrefreshing : w'.refreshing = v.refreshing) : LentOrLeaked φ' w' := by
  have hkept (he : e.refreshes = false) : w'.refreshing = w.refreshing :=
    hrefreshing.trans ((settle_unrelated hsettle).refreshing he)
  cases hstep with
  | leaseless he =>
    exact h.neutral hlog (hkept (refreshes_of_leaseless he)) (neutral_of_leaseless he)
  | bind | draw | heard => exact h.neutral hlog (hkept rfl) ⟨rfl, fun _ => rfl, rfl⟩
  | register =>
    simp only [World.settle] at hsettle
    split_ifs at hsettle with htask
    cases hsettle
    exact lent_register h hlog htask hrefreshing
  | unheard =>
    exact h.pass hlog (hkept rfl) rfl rfl (fun _ _ hdebt => hdebt.elim) rfl fun _ => rfl
  | leak => exact lent_leak h hlog (hkept rfl)
  | acceptLan =>
    exact h.pass hlog (hkept rfl) rfl rfl (fun _ _ hdebt => hdebt.elim) rfl fun _ => rfl
  | accept => exact h.pass hlog (hkept rfl) rfl rfl (fun _ _ hdebt => .inr hdebt) rfl fun h => by cases h
  | abort =>
    cases hsettle
    exact lent_abort h hlog hrefreshing
  | unregister =>
    refine h.pass hlog (hkept rfl) rfl rfl (fun lease' after hdebt => .inl ?_) rfl fun h => by cases h
    obtain ⟨rfl, habort⟩ := hdebt
    exact ⟨List.mem_append_left _ habort, _, List.mem_append_right _ (List.mem_singleton_self _)⟩

theorem keeps_lease : machine.Keeps LeaseStep World.log LentOrLeaked
    (fun before x => x.opensRound = true → Tidy before) where
  respond {φ φ' w w' e a} h hstep hrespond := by
    obtain ⟨v, hsettle, hs, rfl⟩ := respond_spec hrespond
    have hidle (hφ : φ = .idle) : Tidy w.log := by
      subst hφ
      exact tidy_iff.mpr h.debts
    refine ⟨lent_respond h hstep hsettle hs.record_log rfl, .inr ⟨_, hs.record_log, fun hx => ?_⟩⟩
    cases hstep with
    | bind | draw => exact hidle rfl
    | leaseless he =>
      cases e with
      | bindIroh | drawSecret => cases he
      | _ => cases hx
    | _ => cases hx
  drift {φ w} d h := by
    have hd := drift_spec w d
    rcases hd.grows with hlog | ⟨x, hlog, hx⟩
    · exact ⟨h.still hlog (hd.unrelated.1), .inl hlog⟩
    · refine ⟨h.neutral hlog (hd.unrelated.1) (neutral_of_foreign hx), .inr ⟨x, hlog, ?_⟩⟩
      cases x with
      | host e a => cases hx
      | _ => exact fun hopens => nomatch hopens

end Keeping

def hostAfter (h264 : Bool) (config : HostConfig) (port : UInt16) (ticks : List HostTick) :
    State Effect Effect.Answer World Unit :=
  machine.run ⟨start h264 config port, .start⟩ ticks

/-- A round starts with every earlier registration cleaned up. A host that has returned has
cleaned all of them up, and leaves no refresh task behind, exactly when no code of a
registered round went unheard. -/
theorem registrations_cleaned_up (h264 : Bool) (config : HostConfig) (port : UInt16)
    (ticks : List HostTick) :
    Lawful (fun before x => x.opensRound = true → Tidy before)
      (hostAfter h264 config port ticks).world.log ∧
    ((hostAfter h264 config port ticks).task = .ret () →
      ((Tidy (hostAfter h264 config port ticks).world.log ∧
          ∀ task : ℕ, (hostAfter h264 config port ticks).world.refreshing[task]? ≠ some true) ↔
        HeardWhenRegistered (hostAfter h264 config port ticks).world.log)) := by
  have hstart : LentOrLeaked .idle World.start := by
    refine ⟨fun task => by simp [World.start, Lending.lease?], ?_, rfl, Lawful.nil⟩
    intro before x after lease h
    simp [World.start] at h
  have hfollows : Follows LeaseStep (start h264 config port)
      (fun _ φ => φ = .idle ∨ φ = .leaked) .idle := lends_run config _
  obtain ⟨φ, hpost, hlent, hlawful⟩ := keeps_lease.run
    (σ := ⟨start h264 config port, .start⟩) hfollows hstart Lawful.nil ticks
  refine ⟨hlawful, fun hreturned => ?_⟩
  change Follows LeaseStep (hostAfter h264 config port ticks).task _ φ at hpost
  rw [hreturned] at hpost
  rcases hpost with rfl | rfl
  · have hidle : Lent .idle (hostAfter h264 config port ticks).world := hlent
    refine iff_of_true ⟨tidy_iff.mpr hidle.debts, fun task htrue => ?_⟩ hidle.heard
    exact nomatch (hidle.refreshing task).mp htrue
  · obtain ⟨⟨task, htask⟩, hunheard⟩ := hlent
    exact iff_of_false (fun h => h.2 task htask) hunheard

def sampleInternet : InternetHostConfig := ⟨"http://rendezvous.local", "http://relay.local", []⟩

def registeringAnswer (heard : Bool) : (e : Effect) → e.Answer
  | .bindIroh _ _ => .ok ()
  | .register _ _ => .ok ⟨"token", 300⟩
  | .emit _ => heard
  | .accept _ => none
  | e => (sampleViewer 0 sampleHello).answer e

/-- The UI drops the event receiver while the host registers. -/
def unheardTicks : List HostTick :=
  .replicate 9 (.host (registeringAnswer true)) ++
    [.drift .dropReceiver, .host (registeringAnswer false)]

theorem unheard_code_leaks :
    ¬ ∀ h264 config port ticks, (hostAfter h264 config port ticks).task = .ret () →
      Tidy (hostAfter h264 config port ticks).world.log ∧
        ∀ task : ℕ, (hostAfter h264 config port ticks).world.refreshing[task]? ≠ some true := by
  intro h
  have hleft := h false { sampleConfig false with internet := some sampleInternet } 0 unheardTicks
  exact (hleft rfl).2 0 rfl

end Controlis.Host
