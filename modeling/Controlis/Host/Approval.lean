import Controlis.Host.Machine

/-!
# Which request a command decides

The UI pushes its commands into one queue, and whoever waits for a command next
takes the oldest. A command therefore decides the request or the session it was
meant for only if nothing was left in the queue when that was announced.
-/

namespace Controlis.Host
open Protocol Security Session Interaction

/-- The event was emitted for `c` while it was the connection at hand, and nobody
connected since. The queue is sound at that point. -/
def Announced (event : HostEvent) (c : Connection) (log : List Entry) : Prop :=
  ∃ before heard after, log = before ++ .host (.emit event) heard :: after ∧
    visitor before = some c ∧ (∀ y ∈ after, y.newVisitor = none) ∧ taken before <+: issued before

def IssuedSince (event : HostEvent) (c : Connection) (command : HostCommand) (log : List Entry) :
    Prop :=
  ∃ before heard after, log = before ++ .host (.emit event) heard :: after ∧
    visitor before = some c ∧ (∀ y ∈ after, y.newVisitor = none) ∧ command ∈ issued after

/-- No command is queued when an approval is requested, and no `Stop` when a session starts. -/
def FreshCommands (log : List Entry) : Prop :=
  ∀ before event heard after, log = before ++ .host (.emit event) heard :: after →
    (∀ request, event = .approvalRequested request → queued before = []) ∧
    (∀ peerAddr, event = .sessionStarted peerAddr → .stop ∉ queued before)

def Timely (log : List Entry) (x : Entry) : Prop :=
  (∀ c id sent, x = .host (.send c (.authResponse (.accepted id))) sent →
    IssuedSince (.approvalRequested c.request) c .approve log) ∧
  (∀ c command, x = .host (.takeCommand c) (some command) →
    IssuedSince (.approvalRequested c.request) c command log) ∧
  (∀ c, x = .host (.select c) (.command (some .stop)) →
    IssuedSince (.sessionStarted c.remoteLabel) c .stop log)

variable {manual : Bool} {φ φ' : Phase} {e : Effect} {a : e.Answer} {log : List Entry} {x : Entry}
  {event : HostEvent} {c : Connection} {command : HostCommand} {w w' : World}

theorem Announced.snoc (h : Announced event c log) (hx : x.newVisitor = none) :
    Announced event c (log ++ [x]) := by
  obtain ⟨before, heard, after, rfl, hvisitor, hafter, hprefix⟩ := h
  refine ⟨before, heard, after ++ [x], by simp, hvisitor, ?_, hprefix⟩
  intro y hy
  rcases List.mem_append.mp hy with hy | hy
  · exact hafter y hy
  · rwa [List.mem_singleton.mp hy]

theorem IssuedSince.snoc (h : IssuedSince event c command log) (hx : x.newVisitor = none) :
    IssuedSince event c command (log ++ [x]) := by
  obtain ⟨before, heard, after, rfl, hvisitor, hafter, hissued⟩ := h
  refine ⟨before, heard, after ++ [x], by simp, hvisitor, ?_, by simp [hissued]⟩
  intro y hy
  rcases List.mem_append.mp hy with hy | hy
  · exact hafter y hy
  · rwa [List.mem_singleton.mp hy]

theorem Fifo.announced (h : Fifo w) (hvisitor : visitor w.log = some c) (heard : Bool) :
    Announced event c (w.log ++ [.host (.emit event) heard]) :=
  ⟨w.log, heard, [], rfl, hvisitor, by simp, by rw [h]; exact List.prefix_append ..⟩

theorem Announced.issuedSince (h : Announced event c w.log) (hfifo : Fifo w)
    (hqueued : command ∈ w.commands)
    (hfresh : ∀ before heard after, w.log = before ++ .host (.emit event) heard :: after →
      command ∉ queued before) : IssuedSince event c command w.log := by
  obtain ⟨before, heard, after, heq, hvisitor, hafter, hprefix⟩ := h
  refine ⟨before, heard, after, heq, hvisitor, hafter, ?_⟩
  obtain ⟨rest, hrest⟩ := hprefix
  have hbefore : queued before = rest := by rw [queued, ← hrest, List.drop_left]
  have hqueue : rest ++ issued after = taken after ++ w.commands := by
    have h := hfifo
    rw [Fifo, heq, issued_append, taken_append, issued_cons, taken_cons, ← hrest,
      List.append_assoc, List.append_assoc] at h
    simpa [Entry.issuedCommand, Entry.takenCommand] using List.append_cancel_left h
  have hmem : command ∈ rest ++ issued after := by
    rw [hqueue]
    exact List.mem_append_right _ hqueued
  rcases List.mem_append.mp hmem with hmem | hmem
  · exact absurd (hbefore ▸ hmem) (hfresh before heard after heq)
  · exact hmem

theorem FreshCommands.of_snoc (h : FreshCommands (log ++ [x])) : FreshCommands log := by
  intro before event heard after heq
  exact h before event heard (after ++ [x]) (by rw [heq]; simp)

def Phase.connection : Phase → Option Connection
  | .greeting c _ => some c
  | .greeted c _ => some c
  | .presented c _ _ => some c
  | .allowed c _ _ => some c
  | .verified c => some c
  | .asked c => some c
  | .cleared c => some c
  | .admitted c => some c
  | .started c => some c
  | .streaming c _ => some c
  | _ => none

/-- What the log shows about the decision the host waits for or acts on. -/
def Pending (log : List Entry) : Phase → Prop
  | .asked c => Announced (.approvalRequested c.request) c log
  | .cleared c => IssuedSince (.approvalRequested c.request) c .approve log
  | .started c => Announced (.sessionStarted c.remoteLabel) c log
  | .streaming c _ => Announced (.sessionStarted c.remoteLabel) c log
  | _ => True

structure Attentive (φ : Phase) (w : World) : Prop where
  fifo : Fifo w
  visitor : ∀ c, φ.connection = some c → visitor w.log = some c
  pending : FreshCommands w.log → Pending w.log φ

theorem Pending.snoc (h : Pending log φ) (hx : x.newVisitor = none) : Pending (log ++ [x]) φ := by
  cases φ with
  | asked c => exact Announced.snoc h hx
  | cleared c => exact IssuedSince.snoc h hx
  | started c => exact Announced.snoc h hx
  | streaming c s => exact Announced.snoc h hx
  | _ => trivial

theorem step_visitor (hstep : Step manual φ e a φ') (hc : φ'.connection = some c) :
    (Entry.host e a).newVisitor = some c ∨
      (Entry.host e a).newVisitor = none ∧ φ.connection = some c := by
  cases hstep with
  | quiet h => exact .inr ⟨newVisitor_of_quiet h, hc⟩
  | right h => cases manual <;> exact .inr ⟨rfl, hc⟩
  | connect => exact .inl hc
  | _ => first | exact .inr ⟨rfl, hc⟩ | cases hc

theorem visitor_step (hlog : w'.log = w.log ++ [.host e a]) (hstep : Step manual φ e a φ')
    (h : ∀ c, φ.connection = some c → visitor w.log = some c) (hc : φ'.connection = some c) :
    visitor w'.log = some c := by
  rw [hlog]
  rcases step_visitor hstep hc with hnew | ⟨hnone, hc⟩
  · exact visitor_snoc hnew
  · rw [visitor_append (by simpa using hnone)]
    exact h c hc

def Entry.decides : Entry → Bool
  | .host (.send _ (.authResponse (.accepted _))) _ => true
  | .host (.takeCommand _) (some _) => true
  | .host (.select _) (.command (some .stop)) => true
  | _ => false

theorem timely_of_idle (h : x.decides = false) : Timely log x := by
  refine ⟨?_, ?_, ?_⟩
  · rintro c id sent rfl
    cases h
  · rintro c command rfl
    cases h
  · rintro c rfl
    cases h

theorem decides_of_quiet (h : e.quiet = true) : (Entry.host e a).decides = false := by
  cases e with
  | send c m =>
    cases m with
    | authResponse outcome => cases outcome <;> first | rfl | cases h
    | _ => rfl
  | takeCommand c => cases h
  | select c => cases h
  | _ => rfl

theorem Attentive.command_fresh (h : Attentive (.asked c) w) (hfresh : FreshCommands w.log)
    (hmem : command ∈ w.commands) :
    IssuedSince (.approvalRequested c.request) c command w.log := by
  refine (h.pending hfresh).issuedSince h.fifo hmem fun before heard after heq => ?_
  rw [(hfresh before _ heard after heq).1 _ rfl]
  exact List.not_mem_nil

theorem Attentive.stop_fresh {s : ℕ} (h : Attentive (.streaming c s) w)
    (hfresh : FreshCommands w.log) (hmem : .stop ∈ w.commands) :
    IssuedSince (.sessionStarted c.remoteLabel) c .stop w.log :=
  (h.pending hfresh).issuedSince h.fifo hmem fun before heard after heq =>
    (hfresh before _ heard after heq).2 _ rfl

theorem timely_accepted {id : UInt64} {sent : Bool}
    (h : IssuedSince (.approvalRequested c.request) c .approve log) :
    Timely log (.host (.send c (.authResponse (.accepted id))) sent) := by
  refine ⟨?_, ?_, ?_⟩
  · rintro c id sent heq
    cases heq
    exact h
  · rintro c command heq
    cases heq
  · rintro c heq
    cases heq

theorem timely_taken (h : IssuedSince (.approvalRequested c.request) c command log) :
    Timely log (.host (.takeCommand c) (some command)) := by
  refine ⟨?_, ?_, ?_⟩
  · rintro c id sent heq
    cases heq
  · rintro c command heq
    cases heq
    exact h
  · rintro c heq
    cases heq

theorem timely_stop (h : IssuedSince (.sessionStarted c.remoteLabel) c .stop log) :
    Timely log (.host (.select c) (.command (some .stop))) := by
  refine ⟨?_, ?_, ?_⟩
  · rintro c id sent heq
    cases heq
  · rintro c command heq
    cases heq
  · rintro c heq
    cases heq
    exact h

theorem attentive_step (h : Attentive φ w) (hstep : Step true φ e a φ')
    (hrespond : w.respond e a = some w') :
    Attentive φ' w' ∧
      Grows (fun log x => FreshCommands log → Timely log x) w.log w'.log := by
  obtain ⟨v, hsettle, hs, rfl⟩ := respond_spec hrespond
  have hlog := hs.record_log
  have hfifo := h.fifo.settled hs
  have hvisitor (c : Connection) (hc : φ'.connection = some c) :=
    visitor_step hlog hstep h.visitor hc
  have hdone (hpending : FreshCommands w.log → Pending (w.log ++ [.host e a]) φ')
      (htimely : FreshCommands w.log → Timely w.log (.host e a)) :
      Attentive φ' (v.record (.host e a)) ∧ Grows (fun log x => FreshCommands log → Timely log x)
        w.log (v.record (.host e a)).log := by
    refine ⟨⟨hfifo, hvisitor, ?_⟩, .inr ⟨_, hlog, htimely⟩⟩
    intro hfresh
    rw [hlog] at hfresh ⊢
    exact hpending hfresh.of_snoc
  cases hstep with
  | quiet hq =>
    exact hdone (fun hf => (h.pending hf).snoc (newVisitor_of_quiet hq))
      fun _ => timely_of_idle (decides_of_quiet hq)
  | ask hm =>
    exact hdone (fun _ => h.fifo.announced (h.visitor _ rfl) _) fun _ => timely_of_idle rfl
  | approve =>
    have hmem : HostCommand.approve ∈ w.commands := by
      rw [hs.commands]
      exact List.mem_cons_self ..
    exact hdone (fun hf => (h.command_fresh hf hmem).snoc rfl)
      fun hf => timely_taken (h.command_fresh hf hmem)
  | @decline c a hne =>
    refine hdone (fun _ => trivial) fun hf => ?_
    cases a with
    | none => exact timely_of_idle rfl
    | some command =>
      refine timely_taken (h.command_fresh hf ?_)
      rw [hs.commands]
      exact List.mem_cons_self ..
  | grant => exact hdone (fun _ => trivial) fun hf => timely_accepted (h.pending hf)
  | lost => exact hdone (fun _ => trivial) fun hf => timely_accepted (h.pending hf)
  | announce =>
    exact hdone (fun _ => h.fifo.announced (h.visitor _ rfl) _) fun _ => timely_of_idle rfl
  | @select c s a =>
    refine hdone (fun hf => Pending.snoc (h.pending hf) rfl) fun hf => ?_
    rcases a with (_ | _ | _ | _) | m
    · exact timely_of_idle rfl
    · exact timely_of_idle rfl
    · exact timely_of_idle rfl
    · refine timely_stop (h.stop_fresh hf ?_)
      rw [hs.commands]
      exact List.mem_cons_self ..
    · exact timely_of_idle rfl
  | right hv => exact hdone (fun _ => trivial) fun _ => timely_of_idle rfl
  | @reply c s m b hr =>
    refine hdone (fun hf => Pending.snoc (h.pending hf) rfl) fun _ => timely_of_idle ?_
    cases m with
    | authResponse outcome => cases hr
    | _ => rfl
  | _ =>
    first
    | exact hdone (fun _ => trivial) fun _ => timely_of_idle rfl
    | exact hdone (fun hf => Pending.snoc (h.pending hf) rfl) fun _ => timely_of_idle rfl

theorem decides_of_foreign (h : x.ofHost = false) : x.decides = false := by
  cases x with
  | host e a => cases h
  | _ => rfl

theorem attentive_drift (h : Attentive φ w) (d : Drift) :
    Attentive φ (w.drift d) ∧
      Grows (fun log x => FreshCommands log → Timely log x) w.log (w.drift d).log := by
  have hd := drift_spec w d
  have hfifo := h.fifo.drifted hd
  rcases hd.grows with hlog | ⟨x, hlog, hforeign⟩
  · exact ⟨⟨hfifo, hlog ▸ h.visitor, hlog ▸ h.pending⟩, .inl hlog⟩
  · have hx := newVisitor_of_foreign hforeign
    refine ⟨⟨hfifo, fun c hc => ?_, fun hfresh => ?_⟩,
      .inr ⟨x, hlog, fun _ => timely_of_idle (decides_of_foreign hforeign)⟩⟩
    · rw [hlog, visitor_append (by simpa using hx)]
      exact h.visitor c hc
    · rw [hlog] at hfresh ⊢
      exact (h.pending hfresh.of_snoc).snoc hx

theorem machine_attentive : machine.Keeps (Step true) World.log Attentive
    (fun log x => FreshCommands log → Timely log x) :=
  ⟨attentive_step, fun d h => attentive_drift h d⟩

theorem attentive_start : Attentive .idle .start :=
  ⟨rfl, fun _ h => (by cases h), fun _ => trivial⟩

/-- As long as the queue is empty at every request and free of `Stop` at every start, a
command decides the very request or session it was issued for, in every run. -/
theorem decisions_are_fresh (h264 : Bool) (config : HostConfig) (port : UInt16)
    (ticks : List HostTick) (hmanual : config.requireManualApproval = true)
    (hfresh : FreshCommands (runHost h264 config port ticks).log) :
    ∀ before x after, (runHost h264 config port ticks).log = before ++ x :: after →
      Timely before x := by
  have hlawful := lawful_runHost machine_attentive attentive_start h264 config port ticks hmanual
  intro before x after heq
  refine hlawful before x after heq fun earlier event heard later hearlier => ?_
  refine hfresh earlier event heard (later ++ x :: after) ?_
  rw [heq, hearlier]
  simp

def Entry.announces : Entry → Bool
  | .host (.emit (.approvalRequested _)) _ => true
  | .host (.emit (.sessionStarted _)) _ => true
  | _ => false

theorem FreshCommands.of_late {early late : List Entry} (hissued : issued early = [])
    (hlate : ∀ y ∈ late, y.announces = false) : FreshCommands (early ++ late) := by
  intro before event heard after heq
  have hqueued (hannounces : (Entry.host (.emit event) heard).announces = true) :
      queued before = [] := by
    rcases List.append_eq_append_iff.mp heq with ⟨rest, -, hrest⟩ | ⟨rest, hrest, -⟩
    · have hmem : Entry.host (.emit event) heard ∈ late := by
        rw [hrest]
        simp
      rw [hlate _ hmem] at hannounces
      cases hannounces
    · rw [hrest, issued_append, List.append_eq_nil_iff] at hissued
      rw [queued, hissued.1, List.drop_nil]
  refine ⟨?_, ?_⟩
  · rintro request rfl
    exact hqueued rfl
  · rintro peerAddr rfl
    rw [hqueued rfl]
    exact List.not_mem_nil

def lateApprove : List HostTick :=
  (sampleViewer 0 sampleHello).ticks 6 ++ (sampleViewer 0 sampleRequest).ticks 6 ++
    .drift (.issue .approve) :: (sampleViewer 0 sampleRequest).ticks 3

theorem decisions_are_fresh_late :
    IssuedSince (.approvalRequested ⟨"10.0.0.1:5000", none⟩)
      ⟨0, .quinn (.v4 1) "10.0.0.1:5000" none⟩ .approve
      ((runHost false (sampleConfig true) 0 lateApprove).log.take 14) := by
  have hlate : ∀ y ∈ (runHost false (sampleConfig true) 0 lateApprove).log.drop 11,
      y.announces = false := by
    have hall : ((runHost false (sampleConfig true) 0 lateApprove).log.drop 11).all
        (!·.announces) = true := rfl
    intro y hy
    simpa using List.all_eq_true.mp hall y hy
  have hfresh : FreshCommands (runHost false (sampleConfig true) 0 lateApprove).log := by
    rw [← List.take_append_drop 11 (runHost false (sampleConfig true) 0 lateApprove).log]
    exact .of_late rfl hlate
  exact (decisions_are_fresh false (sampleConfig true) 0 lateApprove rfl hfresh _ _ []
    (by rfl)).1 _ 0 true rfl

theorem IssuedSince.mem_tail (h : IssuedSince event c command log) :
    command ∈ issued log.tail := by
  obtain ⟨before, heard, after, rfl, -, -, hmem⟩ := h
  cases before with
  | nil => exact hmem
  | cons y before => simp [hmem]

/-- The user approves before anybody asks, and the first viewer with the code is accepted. -/
def earlyApprove : List HostTick :=
  .drift (.issue .approve) :: (sampleViewer 0 sampleHello).ticks 6 ++
    (sampleViewer 0 sampleRequest).ticks 9

theorem early_approve_admits :
    ¬ ∀ (h264 : Bool) (config : HostConfig) (port : UInt16) (ticks : List HostTick),
      config.requireManualApproval = true →
      ∀ before x after, (runHost h264 config port ticks).log = before ++ x :: after →
        Timely before x := by
  intro h
  have hlast : (runHost false (sampleConfig true) 0 earlyApprove).log =
      (runHost false (sampleConfig true) 0 earlyApprove).log.take 14 ++
        [.host (.send ⟨0, .quinn (.v4 1) "10.0.0.1:5000" none⟩
          (.authResponse (.accepted 0))) true] :=
    rfl
  have hissued := (h false (sampleConfig true) 0 earlyApprove rfl _ _ [] hlast).1 _ _ _ rfl
  have hmem := hissued.mem_tail
  have hnone : issued ((runHost false (sampleConfig true) 0 earlyApprove).log.take 14).tail = [] :=
    rfl
  rw [hnone] at hmem
  cases hmem

end Controlis.Host
