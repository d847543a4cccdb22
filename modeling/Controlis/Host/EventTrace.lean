import Controlis.Host.Reporting

/-!
# The trace of host events

In every run the events that drive the UI come in rounds: a code, the question
for the user's approval, and a session with its start and its end, each of the
latter two optional. So the pump always knows whose session ends.
-/

namespace Controlis.Host
open Session Interaction

def HostEvent.milestone : HostEvent → Bool
  | .log _ => false
  | .error _ => false
  | _ => true

/-- What a round may tell: its code, whose approval was asked for, and a session with the
reason of its end. -/
structure EventRound where
  code : String
  approval : Option Connection
  session : Option (Connection × String)

def EventRound.events (r : EventRound) : List HostEvent :=
  .codeReady r.code :: (r.approval.toList.map (fun c => .approvalRequested c.request) ++
    r.session.toList.flatMap fun s => [.sessionStarted s.1.remoteLabel, .sessionEnded s.2])

def Visited (c : Connection) (log : List Entry) : Prop :=
  ∃ internet, .host (.accept internet) (some (.ok c)) ∈ log

structure EventRound.Permitted (manual : Bool) (log : List Entry) (r : EventRound) : Prop where
  approved : manual = true → ∀ c reason, r.session = some (c, reason) → r.approval = some c
  unasked : manual = false → r.approval = none
  visited : ∀ c reason, r.session = some (c, reason) → Visited c log

def Connection.addressed (c : Connection) : Prop :=
  match c.peer with
  | .quinn _ address _ => ':' ∈ address.toList
  | .iroh _ => True

/-- A row about the end of a session follows the row about its start, and names the same
viewer of the host. -/
def Attributed (log : List Entry) (before : List ConnectionLog) (row : ConnectionLog) : Prop :=
  startsWith row.detail "session ended" = true → ∃ c, Visited c log ∧
    row.peerAddr = c.remoteLabel ∧ (c.addressed → row.peerAddr ≠ "unknown") ∧
    ∃ earlier, before = earlier ++ [⟨c.remoteLabel, none, true, "session started"⟩]

def milestones (log : List Entry) : List HostEvent := (emitted log).filter (·.milestone)

def Reporting.viewer : Reporting → Option Connection
  | .greeting c => some c
  | .greeted c => some c
  | .presented c => some c
  | .allowed c => some c
  | .verified c => some c
  | .asked c => some c
  | .cleared c => some c
  | .admitted c => some c
  | .live c => some c
  | _ => none

def Reporting.approval (manual : Bool) : Reporting → Option (Option Connection)
  | .idle => none
  | .refused => none
  | .failed => none
  | .over => none
  | .asked c => some (some c)
  | .cleared c => some (bif manual then some c else none)
  | .admitted c => some (bif manual then some c else none)
  | .live c => some (bif manual then some c else none)
  | _ => some none

def Reporting.session : Reporting → Option Connection
  | .live c => some c
  | _ => none

/-- The milestones behind the last round that is over. -/
def Unfinished (manual : Bool) (φ : Reporting) (events : List HostEvent) : Prop :=
  match φ.approval manual with
  | none => events = []
  | some approval => (manual = false → approval = none) ∧ ∃ code, events =
      EventRound.events ⟨code, approval, none⟩ ++
        φ.session.toList.map fun c => .sessionStarted c.remoteLabel

structure Traced (manual : Bool) (φ : Reporting) (log : List Entry) : Prop where
  viewer : ∀ c, φ.viewer = some c → Visited c log
  rounds : ∃ (rounds : List EventRound) (events : List HostEvent),
    (∀ r ∈ rounds, r.Permitted manual log) ∧ Unfinished manual φ events ∧
    milestones log = rounds.flatMap EventRound.events ++ events

structure Kept (φ : Reporting) (log : List Entry) (p : Pump) : Prop where
  peer : p.currentPeer = φ.session.map (·.remoteLabel)
  started : ∀ c, φ = .live c → ∃ earlier,
    p.rows = earlier ++ [⟨c.remoteLabel, none, true, "session started"⟩]
  rows : Lawful (Attributed log) p.rows

def Entry.plain (x : Entry) : Prop :=
  ∀ event, x.event = some event → event.milestone = false ∧ ∀ p : Pump, p.handle event = p

variable {manual : Bool} {φ φ' : Reporting} {e : Effect} {a : e.Answer} {log : List Entry}
  {x : Entry} {c : Connection} {w w' : World} {p : Pump}

theorem emitted_snoc (log : List Entry) (x : Entry) :
    emitted (log ++ [x]) = emitted log ++ x.event.toList := by
  rw [emitted_append]
  cases hx : x.event <;> simp [emitted, hx]

theorem milestones_snoc (log : List Entry) (x : Entry) :
    milestones (log ++ [x]) = milestones log ++ x.event.toList.filter (·.milestone) := by
  rw [milestones, emitted_snoc, List.filter_append, milestones]

theorem milestones_plain (log : List Entry) (h : x.plain) :
    milestones (log ++ [x]) = milestones log := by
  rw [milestones_snoc]
  cases hx : x.event with
  | none => exact List.append_nil _
  | some event => simp [(h event hx).1]

theorem pumped_plain (log : List Entry) (h : x.plain) :
    pumpEvents p (emitted (log ++ [x])) = pumpEvents p (emitted log) := by
  rw [emitted_snoc, pumpEvents_append]
  cases hx : x.event with
  | none => rfl
  | some event => exact (h event hx).2 _

theorem plain_of_silent (h : e.silent = true) : (Entry.host e a).plain := by
  intro event hevent
  cases e with
  | emit event' =>
    obtain rfl : event' = event := by simpa [Entry.event] using hevent
    cases event' with
    | log line =>
      have hline : auditedLine line = false := by simpa [Effect.silent] using h
      exact ⟨rfl, fun p => by simp [Pump.handle, hline]⟩
    | error message => exact ⟨rfl, fun _ => rfl⟩
    | _ => cases h
  | _ => cases hevent

theorem Visited.snoc (h : Visited c log) : Visited c (log ++ [x]) := by
  obtain ⟨internet, hmem⟩ := h
  exact ⟨internet, List.mem_append_left _ hmem⟩

theorem EventRound.Permitted.snoc {r : EventRound} (h : r.Permitted manual log) :
    r.Permitted manual (log ++ [x]) :=
  ⟨h.approved, h.unasked, fun c reason hs => (h.visited c reason hs).snoc⟩

theorem Attributed.snoc {rows : List ConnectionLog} {row : ConnectionLog}
    (h : Attributed log rows row) : Attributed (log ++ [x]) rows row := by
  intro hdetail
  obtain ⟨c, hvisited, hrow⟩ := h hdetail
  exact ⟨c, hvisited.snoc, hrow⟩

/-- Unless a session runs, every round so far may count as over. -/
theorem Traced.rounds_over (h : Traced manual φ log) (hsession : φ.session = none) :
    ∃ rounds : List EventRound, (∀ r ∈ rounds, r.Permitted manual log) ∧
      milestones log = rounds.flatMap EventRound.events := by
  obtain ⟨rounds, events, hpermitted, hunfinished, hlog⟩ := h.rounds
  unfold Unfinished at hunfinished
  cases happroval : φ.approval manual with
  | none =>
    rw [happroval] at hunfinished
    refine ⟨rounds, hpermitted, ?_⟩
    rw [hlog, hunfinished, List.append_nil]
  | some approval =>
    rw [happroval, hsession] at hunfinished
    obtain ⟨hunasked, code, rfl⟩ := hunfinished
    refine ⟨rounds ++ [⟨code, approval, none⟩], ?_, ?_⟩
    · intro r hr
      rcases List.mem_append.mp hr with hr | hr
      · exact hpermitted r hr
      · obtain rfl := List.mem_singleton.mp hr
        exact ⟨fun _ c reason hs => (by cases hs), hunasked, fun c reason hs => (by cases hs)⟩
    · rw [hlog, List.flatMap_append]
      simp

theorem Traced.move (h : Traced manual φ log) (hx : x.plain)
    (happroval : φ'.approval manual = φ.approval manual) (hsession : φ'.session = φ.session)
    (hviewer : ∀ c, φ'.viewer = some c → Visited c (log ++ [x])) :
    Traced manual φ' (log ++ [x]) := by
  obtain ⟨rounds, events, hpermitted, hunfinished, hlog⟩ := h.rounds
  refine ⟨hviewer, rounds, events, fun r hr => (hpermitted r hr).snoc, ?_, ?_⟩
  · unfold Unfinished at hunfinished ⊢
    rw [happroval, hsession]
    exact hunfinished
  · rw [milestones_plain log hx, hlog]

theorem Traced.advance (h : Traced manual φ log) (hx : x.plain)
    (happroval : φ'.approval manual = φ.approval manual) (hsession : φ'.session = φ.session)
    (hviewer : φ'.viewer = φ.viewer) : Traced manual φ' (log ++ [x]) :=
  h.move hx happroval hsession fun c hc => (h.viewer c (hviewer ▸ hc)).snoc

theorem Traced.close (h : Traced manual φ log) (hx : x.plain) (hsession : φ.session = none)
    (happroval : φ'.approval manual = none) (hviewer : φ'.viewer = none) :
    Traced manual φ' (log ++ [x]) := by
  obtain ⟨rounds, hpermitted, hlog⟩ := h.rounds_over hsession
  refine ⟨fun c hc => (by rw [hviewer] at hc; cases hc), rounds, [],
    fun r hr => (hpermitted r hr).snoc, ?_, ?_⟩
  · unfold Unfinished
    rw [happroval]
  · rw [milestones_plain log hx, hlog, List.append_nil]

theorem Traced.offer {code : String} {heard : Bool} (h : Traced manual φ log)
    (hsession : φ.session = none) :
    Traced manual .offered (log ++ [.host (.emit (.codeReady code)) heard]) := by
  obtain ⟨rounds, hpermitted, hlog⟩ := h.rounds_over hsession
  refine ⟨fun c hc => (by cases hc), rounds, [.codeReady code],
    fun r hr => (hpermitted r hr).snoc, ⟨fun _ => rfl, code, rfl⟩, ?_⟩
  rw [milestones_snoc, hlog]
  rfl

theorem Traced.ask {heard : Bool} (h : Traced manual (.verified c) log) (hmanual : manual = true) :
    Traced manual (.asked c) (log ++ [.host (.emit (.approvalRequested c.request)) heard]) := by
  obtain ⟨rounds, events, hpermitted, ⟨-, code, rfl⟩, hlog⟩ := h.rounds
  refine ⟨fun c' hc => (h.viewer c' hc).snoc, rounds, _, fun r hr => (hpermitted r hr).snoc,
    ⟨fun hfalse => (by rw [hmanual] at hfalse; cases hfalse), code, rfl⟩, ?_⟩
  rw [milestones_snoc, hlog, List.append_assoc]
  rfl

theorem Traced.approve (h : Traced manual (.asked c) log) (hx : x.plain) :
    Traced manual (.cleared c) (log ++ [x]) := by
  obtain ⟨_, _, -, ⟨hunasked, -⟩, -⟩ := h.rounds
  have hmanual : manual = true := by
    cases manual with
    | true => rfl
    | false => cases hunasked rfl
  subst hmanual
  exact h.advance hx rfl rfl rfl

theorem Traced.announce {heard : Bool} (h : Traced manual (.admitted c) log) :
    Traced manual (.live c) (log ++ [.host (.emit (.sessionStarted c.remoteLabel)) heard]) := by
  obtain ⟨rounds, events, hpermitted, ⟨hunasked, code, rfl⟩, hlog⟩ := h.rounds
  refine ⟨fun c' hc => (h.viewer c' hc).snoc, rounds, _, fun r hr => (hpermitted r hr).snoc,
    ⟨hunasked, code, rfl⟩, ?_⟩
  rw [milestones_snoc, hlog, List.append_assoc]
  cases manual <;> rfl

theorem Traced.completed (h : Traced manual (.live c) log) (reason : String) :
    ∃ rounds : List EventRound, (∀ r ∈ rounds, r.Permitted manual log) ∧
      milestones log ++ [.sessionEnded reason] = rounds.flatMap EventRound.events := by
  obtain ⟨rounds, events, hpermitted, ⟨hunasked, code, rfl⟩, hlog⟩ := h.rounds
  refine ⟨rounds ++ [⟨code, bif manual then some c else none, some (c, reason)⟩], ?_, ?_⟩
  · intro r hr
    rcases List.mem_append.mp hr with hr | hr
    · exact hpermitted r hr
    · obtain rfl := List.mem_singleton.mp hr
      refine ⟨fun hmanual c' reason' hs => ?_, hunasked, fun c' reason' hs => ?_⟩
      · cases hs
        rw [hmanual]
        rfl
      · cases hs
        exact h.viewer c rfl
  · rw [hlog, List.append_assoc, List.flatMap_append]
    cases manual <;> rfl

theorem Traced.finish {reason : String} {heard : Bool} (h : Traced manual (.live c) log) :
    Traced manual .over (log ++ [.host (.emit (.sessionEnded reason)) heard]) := by
  obtain ⟨rounds, hpermitted, hlog⟩ := h.completed reason
  refine ⟨fun c' hc => (by cases hc), rounds, [], fun r hr => (hpermitted r hr).snoc, rfl, ?_⟩
  rw [milestones_snoc, List.append_nil, ← hlog]
  rfl

theorem plain_of_none (h : x.event = none) : x.plain := by
  intro event hevent
  rw [h] at hevent
  cases hevent

theorem plain_of_breaks {e : Effect} {a : e.Answer} (h : (Entry.host e a).breaks = true) :
    (Entry.host e a).plain := by
  apply plain_of_none
  cases e with
  | emit event => cases h
  | _ => rfl

theorem traced_step (h : Traced manual φ log) (hstep : ReportStep manual φ e a φ') :
    Traced manual φ' (log ++ [.host e a]) := by
  cases hstep with
  | silent hs => exact h.advance (plain_of_silent hs) rfl rfl rfl
  | offer hφ =>
    refine h.offer ?_
    cases φ <;> first | rfl | cases hφ
  | connect =>
    refine h.move (plain_of_none rfl) rfl rfl fun c' hc => ?_
    cases hc
    exact ⟨_, List.mem_append_right _ (List.mem_singleton_self _)⟩
  | nobody _ => exact h.advance (plain_of_none rfl) rfl rfl rfl
  | hello _ => exact h.advance (plain_of_none rfl) rfl rfl rfl
  | request _ => exact h.advance (plain_of_none rfl) rfl rfl rfl
  | allow => exact h.advance (plain_of_none rfl) rfl rfl rfl
  | right =>
    cases manual with
    | true => exact h.advance (plain_of_none rfl) rfl rfl rfl
    | false => exact h.advance (plain_of_none rfl) rfl rfl rfl
  | noHello _ => exact h.close (plain_of_none rfl) rfl rfl rfl
  | noRequest _ => exact h.close (plain_of_none rfl) rfl rfl rfl
  | block => exact h.close (plain_of_none rfl) rfl rfl rfl
  | wrong => exact h.close (plain_of_none rfl) rfl rfl rfl
  | ask hmanual => exact h.ask hmanual
  | approve => exact h.approve (plain_of_none rfl)
  | decline _ => exact h.close (plain_of_none rfl) rfl rfl rfl
  | refuse hline =>
    obtain ⟨rounds, hpermitted, hlog⟩ := h.rounds_over rfl
    refine ⟨fun c hc => (by cases hc), rounds, [], fun r hr => (hpermitted r hr).snoc, rfl, ?_⟩
    rw [milestones_snoc, hlog]
    rfl
  | grant => exact h.advance (plain_of_none rfl) rfl rfl rfl
  | lose hbreaks => exact h.close (plain_of_breaks hbreaks) rfl rfl rfl
  | prepare he _ =>
    refine h.advance (plain_of_none ?_) rfl rfl rfl
    rcases he with rfl | rfl | ⟨fps, rfl⟩ <;> rfl
  | fail hbreaks => exact h.close (plain_of_breaks hbreaks) rfl rfl rfl
  | announce => exact h.announce
  | finish => exact h.finish

theorem Connection.label_ne_unknown (h : c.addressed) : c.remoteLabel ≠ "unknown" := by
  have hcolon : ':' ∈ c.remoteLabel.toList := by
    obtain ⟨id, peer⟩ := c
    cases peer with
    | quinn ip address fingerprint => exact h
    | iroh remoteId =>
      rw [Connection.remoteLabel, String.toList_append]
      exact List.mem_append_left _ (by decide)
  intro hunknown
  rw [hunknown] at hcolon
  exact absurd hcolon (by decide)

theorem Kept.plain (h : Kept φ log p) (hlive : φ'.session = φ.session) :
    Kept φ' (log ++ [x]) p := by
  refine ⟨hlive ▸ h.peer, fun c hc => ?_, fun before row after hrow => ?_⟩
  · subst hc
    cases φ with
    | live c' =>
      cases hlive
      exact h.started c rfl
    | _ => cases hlive
  · exact (h.rows before row after hrow).snoc

theorem Kept.write {peer detail : String} {accepted : Bool} (h : Kept φ log p)
    (hdetail : startsWith detail "session ended" = false) :
    Lawful (Attributed (log ++ [x])) (p.audit peer accepted detail).rows := by
  have hrows : Lawful (Attributed (log ++ [x])) p.rows :=
    fun before row after hrow => (h.rows before row after hrow).snoc
  refine hrows.snoc fun hended => ?_
  rw [hdetail] at hended
  cases hended

theorem not_ended_of_audited {line : String} (h : auditedLine line = true) :
    startsWith line "session ended" = false := by
  simp only [auditedLine, Bool.or_eq_true] at h
  rcases h with (h | h) | h
  · exact not_startsWith h rfl rfl (by decide)
  · exact not_startsWith h rfl rfl (by decide)
  · exact not_startsWith h rfl rfl (by decide)

theorem kept_step (h : Kept φ log p) (ht : Traced manual φ log)
    (hstep : ReportStep manual φ e a φ') :
    Kept φ' (log ++ [.host e a]) (pumpEvents p (Entry.host e a).event.toList) := by
  have hplain {x : Entry} (hx : x.plain) (hlive : φ'.session = φ.session) :
      Kept φ' (log ++ [x]) (pumpEvents p x.event.toList) := by
    have hsame : pumpEvents p x.event.toList = p := by
      cases hevent : x.event with
      | none => rfl
      | some event => exact (hx event hevent).2 p
    rw [hsame]
    exact h.plain hlive
  have hnone (hevent : (Entry.host e a).event = none) (hlive : φ'.session = φ.session) :
      Kept φ' (log ++ [.host e a]) (pumpEvents p (Entry.host e a).event.toList) :=
    hplain (plain_of_none hevent) hlive
  cases hstep with
  | silent hs => exact hplain (plain_of_silent hs) rfl
  | offer hφ =>
    refine h.plain ?_
    cases φ <;> first | rfl | cases hφ
  | ask _ => exact h.plain rfl
  | right => cases manual <;> exact hnone rfl rfl
  | refuse hline =>
    simp only [Entry.event, Option.toList_some, pumpEvents_cons, pumpEvents_nil, Pump.handle,
      hline, if_true]
    exact ⟨h.peer, fun c hc => (by cases hc), h.write (not_ended_of_audited hline)⟩
  | lose hbreaks => exact hplain (plain_of_breaks hbreaks) rfl
  | fail hbreaks => exact hplain (plain_of_breaks hbreaks) rfl
  | prepare he _ =>
    refine hnone ?_ rfl
    rcases he with rfl | rfl | ⟨fps, rfl⟩ <;> rfl
  | announce =>
    refine ⟨rfl, fun c hc => ?_, h.write rfl⟩
    cases hc
    exact ⟨p.rows, rfl⟩
  | @finish c reason b =>
    have hpeer : p.currentPeer = some c.remoteLabel := h.peer
    obtain ⟨earlier, hearlier⟩ := h.started c rfl
    simp only [Entry.event, Option.toList_some, pumpEvents_cons, pumpEvents_nil, Pump.handle,
      hpeer, Option.getD_some]
    refine ⟨rfl, fun c hc => (by cases hc), ?_⟩
    have hrows : Lawful (Attributed (log ++ [.host (.emit (.sessionEnded reason)) b])) p.rows :=
      fun before row after hrow => (h.rows before row after hrow).snoc
    refine hrows.snoc fun _ => ⟨c, (ht.viewer c rfl).snoc, rfl, fun haddressed => ?_, earlier,
      hearlier⟩
    exact Connection.label_ne_unknown haddressed
  | _ => exact hnone rfl rfl

theorem HelperStep.reported {closed : Bool} {h : Helpers} {r : Helpers × Option HelperEvent}
    {event : HostEvent} (hstep : HelperStep closed h r) (hr : r.2 = some (.reported event)) :
    ∃ message, event = .error message := by
  cases hstep with
  | capture outcome =>
    unfold Helpers.stepCapture at hr
    cases hc : h.capture with
    | reserved monitorId => cases outcome <;> simp [hc] at hr
    | done => simp [hc] at hr
    | _ =>
      simp only [hc] at hr
      split_ifs at hr
  | media sent =>
    unfold Helpers.stepMedia at hr
    cases hm : h.media with
    | waiting => cases hchannel : h.channel <;> simp [hm, hchannel] at hr
    | _ => simp [hm] at hr
  | inject result =>
    unfold Helpers.stepInject at hr
    cases hi : h.injection with
    | running =>
      cases hq : h.inputs with
      | nil =>
        simp only [hi, hq] at hr
        split_ifs at hr
        cases hr
      | cons action inputs => simp [hi, hq] at hr
    | reporting message alive =>
      refine ⟨message, ?_⟩
      cases alive <;> simp only [hi, Option.some.injEq, HelperEvent.reported.injEq] at hr <;>
        exact hr.symm
    | _ => simp [hi] at hr

theorem Drifted.plain (hd : Drifted w w') :
    w'.log = w.log ∨ ∃ x : Entry, w'.log = w.log ++ [x] ∧ x.ofHost = false ∧ x.plain := by
  cases hd with
  | still => exact .inl rfl
  | help session h h' event _ hstep =>
    cases event with
    | none => exact .inl (List.append_nil _)
    | some event =>
      refine .inr ⟨_, rfl, rfl, fun told htold => ?_⟩
      cases event with
      | reported event =>
        obtain rfl : event = told := by simpa [Entry.event] using htold
        obtain ⟨message, rfl⟩ := hstep.reported rfl
        exact ⟨rfl, fun _ => rfl⟩
      | _ => cases htold
  | _ => exact .inr ⟨_, rfl, rfl, plain_of_none rfl⟩

structure Chronicled (manual : Bool) (φ : Reporting) (log : List Entry) : Prop where
  traced : Traced manual φ log
  kept : Kept φ log (pumpEvents .start (emitted log))

theorem Chronicled.plain (h : Chronicled manual φ log) (hx : x.plain) :
    Chronicled manual φ (log ++ [x]) := by
  refine ⟨h.traced.advance hx rfl rfl rfl, ?_⟩
  rw [pumped_plain log hx]
  exact h.kept.plain rfl

theorem machine_chronicled : machine.Keeps (ReportStep manual) World.log
    (fun φ w => Chronicled manual φ w.log) (fun _ _ => True) where
  respond := by
    intro φ φ' w w' e a h hstep hrespond
    obtain ⟨v, -, hsettled, rfl⟩ := respond_spec hrespond
    rw [hsettled.record_log]
    refine ⟨⟨traced_step h.traced hstep, ?_⟩, .inr ⟨_, rfl, trivial⟩⟩
    rw [emitted_snoc, pumpEvents_append]
    exact kept_step h.kept h.traced hstep
  drift := by
    intro φ w d h
    rcases (drift_spec w d).plain with hsame | ⟨x, hx, -, hplain⟩
    · rw [machine, hsame]
      exact ⟨h, .inl rfl⟩
    · rw [machine, hx]
      exact ⟨h.plain hplain, .inr ⟨x, rfl, trivial⟩⟩

theorem reported_runHost {I : Reporting → World → Prop} {P : List Entry → Entry → Prop}
    (h : machine.Keeps (ReportStep manual) World.log I P) (hstart : I .idle .start) (h264 : Bool)
    (config : HostConfig) (port : UInt16) (ticks : List HostTick)
    (hmanual : config.requireManualApproval = manual) :
    (∃ φ, I φ (runHost h264 config port ticks)) ∧
      Lawful P (runHost h264 config port ticks).log := by
  subst hmanual
  have hnil : Lawful P World.start.log := Lawful.nil
  obtain ⟨φ, -, hI, hlawful⟩ :=
    h.run (σ := ⟨start h264 config port, .start⟩) (reports_run config _) hstart hnil ticks
  exact ⟨⟨φ, hI⟩, hlawful⟩

theorem chronicled_start : Chronicled manual .idle [] where
  traced := ⟨fun c hc => (by cases hc), [], [], fun r hr => (by cases hr), rfl, rfl⟩
  kept := ⟨rfl, fun c hc => (by cases hc), Lawful.nil⟩

theorem Traced.within (h : Traced manual φ log) :
    ∃ rounds : List EventRound, (∀ r ∈ rounds, r.Permitted manual log) ∧
      milestones log <+: rounds.flatMap EventRound.events := by
  cases hsession : φ.session with
  | none =>
    obtain ⟨rounds, hpermitted, hlog⟩ := h.rounds_over hsession
    exact ⟨rounds, hpermitted, hlog ▸ List.prefix_refl _⟩
  | some c =>
    obtain rfl : φ = .live c := by
      cases φ <;> cases hsession
      rfl
    obtain ⟨rounds, hpermitted, hlog⟩ := h.completed ""
    exact ⟨rounds, hpermitted, _, hlog⟩

/-- In every run the milestones begin a sequence of rounds, and however much of the events the
pump takes, with throughput lines anywhere, it writes the end of a session behind its start. -/
theorem events_come_in_rounds (h264 : Bool) (config : HostConfig) (port : UInt16)
    (ticks : List HostTick) :
    (∃ rounds : List EventRound,
      (∀ r ∈ rounds, r.Permitted config.requireManualApproval
        (runHost h264 config port ticks).log) ∧
      milestones (runHost h264 config port ticks).log <+: rounds.flatMap EventRound.events) ∧
    ∀ taken : List HostEvent,
      taken.filter (!·.throughput) <+: emitted (runHost h264 config port ticks).log →
      Lawful (Attributed (runHost h264 config port ticks).log) (pumpEvents .start taken).rows := by
  obtain ⟨⟨φ, h⟩, -⟩ :=
    reported_runHost machine_chronicled chronicled_start h264 config port ticks rfl
  refine ⟨h.traced.within, fun taken htaken => ?_⟩
  obtain ⟨rest, hrest⟩ := htaken
  have hrows := h.kept.rows
  rw [← hrest, pumpEvents_append, pumpEvents_filter] at hrows
  obtain ⟨more, hmore⟩ := pumpEvents_rows (pumpEvents .start taken) rest
  rw [← hmore] at hrows
  exact hrows.left

end Controlis.Host
