import Controlis.Host.EventTrace

/-!
# What the audit log covers

A round is over when the next code is shown. The entries of the round alone
decide whether its viewer was refused or cleared, and the rows written in the
round are compared with that. A refusal always leaves its one row; a viewer who
was cleared leaves one unless the session breaks before it starts.
-/

namespace Controlis.Host
open Protocol Security Session RateLimit Interaction

inductive Progress
  | waiting
  | greeted
  | presented
  | allowed
  | verified
  | refused
  | granted
deriving DecidableEq, Repr

def Progress.next (manual : Bool) : Progress → Entry → Progress
  | .waiting, .host (.recvTimeout _) message => bif greets message then .greeted else .refused
  | .greeted, .host (.recvTimeout _) message => bif presents message then .presented else .refused
  | .presented, .host (.checked _ _ .allow) _ => .allowed
  | .presented, .host (.checked _ _ (.blocked _)) _ => .refused
  | .allowed, .host (.compared _ _ _ false) _ => .refused
  | .allowed, .host (.compared _ _ _ true) _ => bif manual then .verified else .granted
  | .verified, .host (.takeCommand _) answer =>
    if answer = some .approve then .granted else .refused
  | p, _ => p

def verdict (manual : Bool) (round : List Entry) : Progress :=
  round.foldl (Progress.next manual) .waiting

def Entry.offers : Entry → Bool
  | .host (.emit (.codeReady _)) _ => true
  | _ => false

def RoundOver (log opened round : List Entry) : Prop :=
  (∃ before x, opened = before ++ [x] ∧ x.offers = true) ∧ (∀ x ∈ round, x.offers = false) ∧
    ∃ x after, log = opened ++ round ++ x :: after ∧ x.offers = true

def rowsOf (opened round : List Entry) : List ConnectionLog :=
  (pumpEvents .start (emitted (opened ++ round))).rows.drop
    (pumpEvents .start (emitted opened)).rows.length

structure Audited (manual : Bool) (opened round : List Entry) : Prop where
  granted : verdict manual round = .granted → ∃ row ∈ rowsOf opened round, row.accepted = true
  refused : verdict manual round = .refused →
    ((rowsOf opened round).filter (!·.accepted)).length = 1

def HostEvent.outcomes : HostEvent → List Bool
  | .sessionStarted _ => [true]
  | .sessionEnded _ => [false]
  | .log line => if auditedLine line then [false] else []
  | _ => []

def outcomes (round : List Entry) : List Bool := (emitted round).flatMap HostEvent.outcomes

variable {manual : Bool} {φ φ' : Reporting} {e : Effect} {a : e.Answer} {x : Entry}
  {log opened round : List Entry} {progress : Progress} {outs : List Bool} {broken : Bool}

theorem handle_outcomes (p : Pump) (event : HostEvent) :
    (p.handle event).rows.map (·.accepted) = p.rows.map (·.accepted) ++ event.outcomes := by
  cases event with
  | log line =>
    simp only [Pump.handle, HostEvent.outcomes]
    split_ifs <;> simp [Pump.audit]
  | _ => simp [Pump.handle, HostEvent.outcomes, Pump.audit]

theorem pumpEvents_outcomes (p : Pump) (events : List HostEvent) :
    (pumpEvents p events).rows.map (·.accepted) =
      p.rows.map (·.accepted) ++ events.flatMap HostEvent.outcomes := by
  induction events generalizing p with
  | nil => simp
  | cons event events ih =>
    rw [pumpEvents_cons, ih, handle_outcomes, List.flatMap_cons, List.append_assoc]

theorem rowsOf_outcomes (opened round : List Entry) :
    (rowsOf opened round).map (·.accepted) = outcomes round := by
  rw [rowsOf, List.map_drop, emitted_append, pumpEvents_append, pumpEvents_outcomes]
  exact List.drop_left' (by simp)

theorem outcomes_snoc (round : List Entry) (x : Entry) :
    outcomes (round ++ [x]) = outcomes round ++ x.event.toList.flatMap HostEvent.outcomes := by
  rw [outcomes, emitted_snoc, List.flatMap_append, outcomes]

theorem outcomes_plain (h : x.plain) : x.event.toList.flatMap HostEvent.outcomes = [] := by
  cases hx : x.event with
  | none => rfl
  | some event =>
    have hrows := handle_outcomes .start event
    rw [(h event hx).2 .start] at hrows
    simpa using hrows

/-- The verdict on the viewer, the outcomes in the rows and whether the session broke. -/
inductive Stands : Reporting → Progress → List Bool → Bool → Prop
  | idle : Stands .idle .waiting [] false
  | offered : Stands .offered .waiting [] false
  | greeting {c} : Stands (.greeting c) .waiting [] false
  | greeted {c} : Stands (.greeted c) .greeted [] false
  | presented {c} : Stands (.presented c) .presented [] false
  | allowed {c} : Stands (.allowed c) .allowed [] false
  | verified {c} : Stands (.verified c) .verified [] false
  | asked {c} : Stands (.asked c) .verified [] false
  | refused : Stands .refused .refused [] false
  | told : Stands .over .refused [false] false
  | cleared {c} : Stands (.cleared c) .granted [] false
  | admitted {c} : Stands (.admitted c) .granted [] false
  | failed : Stands .failed .granted [] true
  | live {c} : Stands (.live c) .granted [true] false
  | ended : Stands .over .granted [true, false] false

theorem next_of_silent (h : e.silent = true) : progress.next manual (.host e a) = progress := by
  cases e with
  | recvTimeout | checked | compared | takeCommand => cases h
  | _ => cases progress <;> rfl

theorem next_of_foreign (h : x.ofHost = false) : progress.next manual x = progress := by
  cases x with
  | host e a => cases h
  | _ => cases progress <;> rfl

theorem breaks_of_silent (h : e.silent = true) : (Entry.host e a).breaks = false := by
  cases e with
  | send c m =>
    cases m with
    | authResponse outcome => cases outcome <;> first | rfl | cases h
    | _ => rfl
  | newH264Encoder | createCapturer | listMonitors => cases h
  | _ => rfl

theorem breaks_of_foreign (h : x.ofHost = false) : x.breaks = false := by
  cases x with
  | host e a => cases h
  | _ => rfl

theorem next_granted (x : Entry) : Progress.granted.next manual x = .granted := by
  cases x with
  | host e a => cases e <;> rfl
  | _ => rfl

theorem Stands.silent (h : Stands φ progress outs broken) (hs : e.silent = true) :
    Stands φ (progress.next manual (.host e a))
      (outs ++ (Entry.host e a).event.toList.flatMap HostEvent.outcomes)
      (broken || (Entry.host e a).breaks) := by
  rw [next_of_silent hs, outcomes_plain (plain_of_silent hs), List.append_nil,
    breaks_of_silent hs, Bool.or_false]
  exact h

theorem stands_broken (hbreaks : (Entry.host e a).breaks = true) :
    Stands .failed (Progress.granted.next manual (.host e a))
      ([] ++ (Entry.host e a).event.toList.flatMap HostEvent.outcomes)
      (false || (Entry.host e a).breaks) := by
  rw [next_granted, outcomes_plain (plain_of_breaks hbreaks), hbreaks]
  exact .failed

theorem stands_told {line : String} {b : Bool} (hline : auditedLine line = true) :
    Stands .over (Progress.refused.next manual (.host (.emit (.log line)) b))
      ([] ++ (Entry.host (.emit (.log line)) b).event.toList.flatMap HostEvent.outcomes)
      (false || (Entry.host (.emit (.log line)) b).breaks) := by
  simp only [Entry.event, Option.toList_some, List.flatMap_cons, HostEvent.outcomes, hline]
  exact .told

theorem Stands.step (h : Stands φ progress outs broken) (hstep : ReportStep manual φ e a φ')
    (hoffers : (Entry.host e a).offers = false) :
    Stands φ' (progress.next manual (.host e a))
      (outs ++ (Entry.host e a).event.toList.flatMap HostEvent.outcomes)
      (broken || (Entry.host e a).breaks) := by
  cases hstep with
  | silent hs => exact h.silent hs
  | offer _ => cases hoffers
  | connect | nobody | allow | block | wrong | ask | approve | grant | announce | finish =>
    cases h
    constructor
  | hello hgreets | noHello hgreets =>
    cases h
    simp only [Progress.next, hgreets]
    constructor
  | request hpresents | noRequest hpresents =>
    cases h
    simp only [Progress.next, hpresents]
    constructor
  | right =>
    cases h
    cases manual with
    | true => exact .verified
    | false => exact .cleared
  | decline hne =>
    cases h
    simp only [Progress.next, if_neg hne]
    exact .refused
  | refuse hline =>
    cases h
    exact stands_told hline
  | lose hbreaks | fail hbreaks =>
    cases h
    exact stands_broken hbreaks
  | prepare he hbreaks =>
    cases h
    rw [next_granted, hbreaks]
    rcases he with rfl | rfl | ⟨fps, rfl⟩ <;> exact .admitted

def roundStep (round : List Entry) (x : Entry) : List Entry :=
  bif x.offers then [] else round ++ [x]

def roundOf (log : List Entry) : List Entry := log.foldl roundStep []

def StandsIn (manual : Bool) (φ : Reporting) (round : List Entry) : Prop :=
  Stands φ (verdict manual round) (outcomes round) (round.any Entry.breaks)

theorem roundOf_snoc (log : List Entry) (x : Entry) :
    roundOf (log ++ [x]) = roundStep (roundOf log) x := by
  simp [roundOf]

theorem roundOf_append (hround : ∀ x ∈ round, x.offers = false) :
    round.foldl roundStep opened = opened ++ round := by
  induction round generalizing opened with
  | nil => exact (List.append_nil _).symm
  | cons x round ih =>
    rw [List.foldl_cons, roundStep, hround x (by simp), cond_false,
      ih fun y hy => hround y (by simp [hy]), List.append_assoc]
    rfl

theorem roundOf_over (h : RoundOver log opened round) : roundOf (opened ++ round) = round := by
  obtain ⟨⟨before, x, rfl, hx⟩, hround, -⟩ := h
  have hopened : roundOf (before ++ [x]) = [] := by
    rw [roundOf_snoc, roundStep, hx]
    rfl
  rw [roundOf, List.foldl_append, ← roundOf, hopened, roundOf_append hround]
  rfl

theorem StandsIn.snoc {x : Entry} {φ' : Reporting}
    (h : Stands φ' ((verdict manual round).next manual x)
      (outcomes round ++ x.event.toList.flatMap HostEvent.outcomes)
      (round.any Entry.breaks || x.breaks)) : StandsIn manual φ' (round ++ [x]) := by
  unfold StandsIn
  rw [outcomes_snoc, verdict, List.foldl_append, List.any_append]
  simpa [verdict] using h

theorem offered_of_offers (hstep : ReportStep manual φ e a φ')
    (hoffers : (Entry.host e a).offers = true) : φ.told = true ∧ φ' = .offered := by
  obtain ⟨code, rfl⟩ : ∃ code, e = .emit (.codeReady code) := by
    cases e with
    | emit event =>
      cases event with
      | codeReady code => exact ⟨code, rfl⟩
      | _ => cases hoffers
    | _ => cases hoffers
  cases hstep with
  | offer hφ => exact ⟨hφ, rfl⟩
  | silent hs => cases hs
  | lose hbreaks => cases hbreaks
  | fail hbreaks => cases hbreaks
  | prepare he _ => rcases he with he | he | ⟨fps, he⟩ <;> cases he

/-- When a code is shown, the round before it stands where nothing is owed. -/
def RoundTold (manual : Bool) (log : List Entry) (x : Entry) : Prop :=
  x.offers = true → ∃ φ : Reporting, φ.told = true ∧ StandsIn manual φ (roundOf log)

theorem machine_stands : machine.Keeps (ReportStep manual) World.log
    (fun φ w => StandsIn manual φ (roundOf w.log)) (RoundTold manual) where
  respond := by
    intro φ φ' w w' e a h hstep hrespond
    obtain ⟨v, -, hsettled, rfl⟩ := respond_spec hrespond
    rw [hsettled.record_log, roundOf_snoc, roundStep]
    cases hoffers : (Entry.host e a).offers with
    | false => exact ⟨StandsIn.snoc (h.step hstep hoffers), .inr ⟨_, rfl, fun hx => (by
        rw [hoffers] at hx
        cases hx)⟩⟩
    | true =>
      obtain ⟨htold, rfl⟩ := offered_of_offers hstep hoffers
      exact ⟨.offered, .inr ⟨_, rfl, fun _ => ⟨φ, htold, h⟩⟩⟩
  drift := by
    intro φ w d h
    rcases (drift_spec w d).plain with hsame | ⟨x, hx, hforeign, hplain⟩
    · rw [machine, hsame]
      exact ⟨h, .inl rfl⟩
    · have hoffers : x.offers = false := by
        cases x with
        | host e a => cases hforeign
        | _ => rfl
      rw [machine, hx, roundOf_snoc, roundStep, hoffers]
      refine ⟨StandsIn.snoc ?_, .inr ⟨x, rfl, fun hx => (by rw [hoffers] at hx; cases hx)⟩⟩
      rw [next_of_foreign hforeign, outcomes_plain hplain, List.append_nil,
        breaks_of_foreign hforeign, Bool.or_false]
      exact h

theorem StandsIn.audited_iff (h : StandsIn manual φ round) (htold : φ.told = true)
    (opened : List Entry) : Audited manual opened round ↔ round.any Entry.breaks = false := by
  have houtcomes := rowsOf_outcomes opened round
  unfold StandsIn at h
  generalize hverdict : verdict manual round = progress at h
  generalize hbroken : round.any Entry.breaks = broken at h
  generalize outcomes round = outs at h houtcomes
  have hopen (hw : progress = .waiting) : Audited manual opened round :=
    ⟨fun hg => (by rw [hverdict, hw] at hg; cases hg),
      fun hr => (by rw [hverdict, hw] at hr; cases hr)⟩
  cases h with
  | idle => exact ⟨fun _ => rfl, fun _ => hopen rfl⟩
  | offered => exact ⟨fun _ => rfl, fun _ => hopen rfl⟩
  | greeting => exact ⟨fun _ => rfl, fun _ => hopen rfl⟩
  | told =>
    refine ⟨fun _ => rfl, fun _ => ⟨fun hg => (by rw [hverdict] at hg; cases hg), fun _ => ?_⟩⟩
    obtain ⟨row, hrows, hrow⟩ := List.map_eq_singleton_iff.mp houtcomes
    rw [hrows]
    simp [hrow]
  | ended =>
    refine ⟨fun _ => rfl, fun _ => ⟨fun _ => ?_, fun hr => (by rw [hverdict] at hr; cases hr)⟩⟩
    have hmem : true ∈ (rowsOf opened round).map (·.accepted) := by
      rw [houtcomes]
      exact List.mem_cons_self
    obtain ⟨row, hrow, haccepted⟩ := List.mem_map.mp hmem
    exact ⟨row, hrow, haccepted⟩
  | failed =>
    refine ⟨fun haudited => ?_, fun hb => (by cases hb)⟩
    obtain ⟨row, hrow, -⟩ := haudited.granted hverdict
    rw [List.map_eq_nil_iff.mp houtcomes] at hrow
    cases hrow
  | _ => cases htold

/-- The log shows every verdict of a run exactly when no session breaks before it starts. -/
theorem audited_iff_unbroken (h264 : Bool) (config : HostConfig) (port : UInt16)
    (ticks : List HostTick) :
    (∀ opened round, RoundOver (runHost h264 config port ticks).log opened round →
      Audited config.requireManualApproval opened round) ↔
    ∀ opened round, RoundOver (runHost h264 config port ticks).log opened round →
      ∀ x ∈ round, x.breaks = false := by
  have hlawful := (reported_runHost machine_stands .idle h264 config port ticks rfl).2
  have hround {opened round : List Entry}
      (h : RoundOver (runHost h264 config port ticks).log opened round) :
      Audited config.requireManualApproval opened round ↔ ∀ x ∈ round, x.breaks = false := by
    obtain ⟨x, after, hlog, hx⟩ := h.2.2
    obtain ⟨φ, htold, hstands⟩ := hlawful (opened ++ round) x after hlog hx
    rw [roundOf_over h] at hstands
    rw [hstands.audited_iff htold opened, List.any_eq_false]
    simp
  exact ⟨fun h opened round hf => (hround hf).mp (h opened round hf),
    fun h opened round hf => (hround hf).mpr (h opened round hf)⟩

/-- An accepted viewer whose session finds no screen to capture. -/
def blindAnswer : (e : Effect) → e.Answer
  | .createCapturer _ => .error "no display"
  | e => (sampleViewer 0 sampleRequest).answer e

def blindVisit : List HostTick :=
  (sampleViewer 0 sampleHello).ticks 6 ++ List.replicate 14 (.host blindAnswer)

def blindLog : List Entry := (runHost false (sampleConfig false) 0 blindVisit).log

def blindRound : List Entry := (blindLog.drop 2).take 15

set_option maxRecDepth 4000 in
theorem blindRound_over : RoundOver blindLog (blindLog.take 2) blindRound := by
  refine ⟨⟨blindLog.take 1, _, rfl, rfl⟩, ?_, _, [], rfl, rfl⟩
  have hall : blindRound.all (!·.offers) = true := rfl
  simpa using List.all_eq_true.mp hall

set_option maxRecDepth 4000 in
theorem blind_session_leaves_no_row :
    ¬ ∀ (h264 : Bool) (config : HostConfig) (port : UInt16) (ticks : List HostTick)
      (opened round : List Entry), RoundOver (runHost h264 config port ticks).log opened round →
      Audited config.requireManualApproval opened round := by
  intro h
  have haudited : Audited false (blindLog.take 2) blindRound :=
    h false (sampleConfig false) 0 blindVisit _ _ blindRound_over
  obtain ⟨row, hrow, -⟩ := haudited.granted rfl
  have hrows : rowsOf (blindLog.take 2) blindRound = [] := rfl
  rw [hrows] at hrow
  cases hrow

end Controlis.Host
