import Controlis.Host.Machine

/-!
# A host whose controller is gone

Dropping the event receiver and the command senders is noticed when the next code
is to be shown, when a decision is awaited and by the control loop, but not by a
host that waits for a connection or talks to a viewer. So it ends the round
after the current one, and what remains of the round at hand depends on the
viewer, unless the queue still holds an answer.
-/

namespace Controlis.Host
open Protocol Security Session Interaction

def Gone (log : List Entry) : Prop := .receiverDropped ∈ log ∧ .sendersDropped ∈ log

def clearedStep (manual : Bool) (current : Option Connection) : Entry → Option Connection
  | .host (.compared c _ _ true) _ => bif manual then current else some c
  | .host (.takeCommand c) (some .approve) => some c
  | .host (.close c _) _ => if current = some c then none else current
  | _ => current

def clearedViewer (manual : Bool) (log : List Entry) : Option Connection :=
  log.foldl (clearedStep manual) none

def Entry.admits : Entry → Bool
  | .host (.send _ (.authResponse (.accepted _))) _ => true
  | .host (.send _ (.monitorList _)) _ => true
  | .host (.createCapturer _) _ => true
  | .helper _ _ (.media _ sent) => sent
  | _ => false

def Entry.served : Entry → Option Connection
  | .host (.send c _) _ => some c
  | .host (.createCapturer c) _ => some c
  | .helper _ c _ => some c
  | _ => none

/-- Nobody is about to be cleared after `before`: without approval no viewer presents the code, and
with it no `Approve` is next in the queue when one is awaited. -/
structure NobodyNew (manual : Bool) (before after : List Entry) : Prop where
  code : manual = false → ∀ c code candidate ok,
    .host (.compared c code candidate ok) () ∈ after → code.verify candidate = false
  queue : ∀ c answer, .host (.takeCommand c) answer ∈ after →
    (queued before).head? ≠ some .approve

structure QuietStop (manual : Bool) (before after : List Entry) : Prop
    extends NobodyNew manual before after where
  nobody : clearedViewer manual before = none

variable {manual : Bool} {φ φ' : Phase} {e : Effect} {a : e.Answer} {log : List Entry} {x : Entry}
  {before after : List Entry} {c : Connection} {w w' : World}

theorem NobodyNew.mono {later : List Entry} (h : NobodyNew manual before later)
    (hsub : after ⊆ later) : NobodyNew manual before after :=
  ⟨fun hm c code candidate ok hmem => h.code hm c code candidate ok (hsub hmem),
    fun c answer hmem => h.queue c answer (hsub hmem)⟩

theorem NobodyNew.of_snoc (h : NobodyNew manual before (after ++ [x])) :
    NobodyNew manual before after :=
  h.mono (List.subset_append_left ..)

theorem clearedViewer_snoc (log : List Entry) (x : Entry) :
    clearedViewer manual (log ++ [x]) = clearedStep manual (clearedViewer manual log) x := by
  simp [clearedViewer]

def Phase.cleared? : Phase → Option Connection
  | .cleared c => some c
  | .admitted c => some c
  | .started c => some c
  | .streaming c _ => some c
  | _ => none

def Phase.session? : Phase → Option Connection
  | .streaming c _ => some c
  | _ => none

def Phase.decided : Phase → Prop
  | .idle => True
  | .drawn _ => True
  | .streaming _ _ => True
  | .closed _ => True
  | _ => False

theorem cleared_of_session {φ : Phase} {c : Connection} (h : φ.session? = some c) :
    φ.cleared? = some c := by
  cases φ with
  | streaming d s => exact h
  | _ => cases h

/-- Since the stop nobody was cleared, no command was issued, and no awaited decision was taken. -/
structure Still (manual : Bool) (φ : Phase) (before after : List Entry) : Prop where
  cleared : ∀ c, clearedViewer manual (before ++ after) = some c →
    clearedViewer manual before = some c
  unissued : issued after = []
  untaken : taken after = [] ∨ φ.decided

structure Stopping (manual : Bool) (φ : Phase) (w : World) : Prop where
  fifo : Fifo w
  receiver : .receiverDropped ∈ w.log → w.receiverAlive = false
  senders : .sendersDropped ∈ w.log → w.sendersAlive = false
  cleared : ∀ c, φ.cleared? = some c → clearedViewer manual w.log = some c
  sessions : ∀ c ∈ w.sessions.map (·.connection), c ∈ w.closed ∨ φ.session? = some c
  quiet : ∀ before after, w.log = before ++ after → Gone before →
    NobodyNew manual before after → Still manual φ before after

/-- After a stop only the viewer who was cleared is served, until it is hung up on. -/
def ServesOut (manual : Bool) (log : List Entry) (x : Entry) : Prop :=
  ∀ before after, log = before ++ after → Gone before → NobodyNew manual before (after ++ [x]) →
    x.admits = true → ∃ c, x.served = some c ∧ clearedViewer manual before = some c ∧
      clearedViewer manual log = some c

theorem clearedStep_quiet (h : e.quiet = true) (current : Option Connection) :
    clearedStep manual current (.host e a) = current := by
  cases e with
  | compared c code candidate ok => cases h
  | takeCommand c => cases h
  | close c reason => cases h
  | _ => rfl

theorem clearedStep_foreign (h : x.ofHost = false) (current : Option Connection) :
    clearedStep manual current x = current := by
  cases x with
  | host e a => cases h
  | _ => rfl

theorem admits_quiet (h : e.quiet = true) : (Entry.host e a).admits = false := by
  cases e with
  | send c m =>
    cases m with
    | authResponse outcome => cases outcome <;> first | rfl | cases h
    | monitorList ms => cases h
    | _ => rfl
  | createCapturer c => cases h
  | _ => rfl

theorem cleared_step (h : ∀ c, φ.cleared? = some c → clearedViewer manual log = some c)
    (hstep : Step manual φ e a φ') (hc : φ'.cleared? = some c) :
    clearedViewer manual (log ++ [.host e a]) = some c := by
  rw [clearedViewer_snoc]
  cases hstep with
  | quiet hq =>
    rw [clearedStep_quiet hq]
    exact h c hc
  | right hv =>
    cases manual with
    | false => exact hc
    | true => cases hc
  | approve => exact hc
  | _ => first | exact h c hc | cases hc

theorem sessions_step (h : ∀ c ∈ w.sessions.map (·.connection), c ∈ w.closed ∨ φ.session? = some c)
    (hstep : Step manual φ e a φ') (hsettle : w.settle e a = some w') (hs : Settled w w' e a) :
    ∀ c ∈ w'.sessions.map (·.connection), c ∈ w'.closed ∨ φ'.session? = some c := by
  intro c hc
  rw [hs.sessions] at hc
  have hkeep (hsame : φ'.session? = φ.session?) (hnew : (Entry.host e a).newSession = none) :
      c ∈ w'.closed ∨ φ'.session? = some c := by
    rw [hnew, Option.toList_none, List.append_nil] at hc
    rw [hsame]
    exact (h c hc).imp_left fun hclosed => hs.closed hclosed
  cases hstep with
  | quiet hq => exact hkeep rfl (newSession_of_quiet hq)
  | right hv => cases manual <;> exact hkeep rfl rfl
  | spawn =>
    rcases List.mem_append.mp hc with hc | hc
    · exact .inl (hs.closed ((h c hc).resolve_right (by simp [Phase.session?])))
    · exact .inr (congrArg some (List.mem_singleton.mp hc).symm)
  | leave =>
    cases hsettle
    rcases h c (by simpa [Entry.newSession] using hc) with hclosed | hopen
    · exact .inl (hs.closed hclosed)
    · cases hopen
      exact .inl (List.mem_cons_self ..)
  | @draw φ target secret hun =>
    refine hkeep ?_ rfl
    cases φ with
    | idle => rfl
    | drawn code => rfl
    | _ => exact hun.elim
  | _ => exact hkeep rfl rfl

theorem still_nil : Still manual φ before [] :=
  ⟨fun c hc => by rwa [List.append_nil] at hc, rfl, .inl rfl⟩

theorem Still.snoc (h : Still manual φ before after)
    (hclear : ∀ current c, clearedStep manual current x = some c → current = some c)
    (hissued : x.issuedCommand = none) (htaken : taken (after ++ [x]) = [] ∨ φ'.decided) :
    Still manual φ' before (after ++ [x]) where
  cleared c hc := by
    rw [← List.append_assoc, clearedViewer_snoc] at hc
    exact h.cleared c (hclear _ c hc)
  unissued := by simp [h.unissued, hissued]
  untaken := htaken

theorem Still.none_taken (h : Still manual φ before after) (hφ : ¬φ.decided)
    (hx : x.takenCommand = none) : taken (after ++ [x]) = [] := by
  simp [h.untaken.resolve_right hφ, hx]

theorem Still.queued_eq (h : Still manual φ before after) (hφ : ¬φ.decided) :
    queued (before ++ after) = queued before := by
  rw [queued, issued_append, taken_append, h.unissued, h.untaken.resolve_right hφ, List.append_nil,
    List.append_nil, ← queued]

theorem Stopping.quiet_snoc (h : Stopping manual φ w)
    (hstill : ∀ before after, w.log = before ++ after → Gone before →
      NobodyNew manual before (after ++ [x]) → Still manual φ before after →
      Still manual φ' before (after ++ [x])) (hsplit : w.log ++ [x] = before ++ after)
    (hgone : Gone before) (hnobody : NobodyNew manual before after) :
    Still manual φ' before after := by
  rcases snoc_eq_append hsplit with ⟨-, rfl⟩ | ⟨rest, rfl, hlog⟩
  · exact still_nil
  · exact hstill before rest hlog hgone hnobody (h.quiet before rest hlog hgone hnobody.of_snoc)

theorem close_clears_nobody {reason : String} (current : Option Connection) (d : Connection)
    (hd : clearedStep manual current (.host (.close c reason) ()) = some d) :
    current = some d := by
  simp only [clearedStep] at hd
  split_ifs at hd
  exact hd

theorem decline_clears_nobody {command : Option HostCommand} (hne : command ≠ some .approve)
    (current : Option Connection) (d : Connection)
    (hd : clearedStep manual current (.host (.takeCommand c) command) = some d) :
    current = some d := by
  rcases command with _ | _ | _ | _
  · exact hd
  · exact absurd rfl hne
  · exact hd
  · exact hd

theorem still_step (h : Stopping manual φ w) (hstep : Step manual φ e a φ')
    (hsettle : w.settle e a = some w') (hs : Settled w w' e a) (hlog : w.log = before ++ after)
    (hgone : Gone before) (hnobody : NobodyNew manual before (after ++ [.host e a]))
    (hstill : Still manual φ before after) : Still manual φ' before (after ++ [.host e a]) := by
  cases hstep with
  | quiet hq =>
    refine hstill.snoc (fun current c hc => ?_) rfl ?_
    · rwa [clearedStep_quiet hq] at hc
    · exact hstill.untaken.imp_left fun htaken => by simp [htaken, takenCommand_of_quiet hq]
  | publish =>
    simp only [World.settle] at hsettle
    rw [h.receiver (hlog ▸ List.mem_append_left _ hgone.1)] at hsettle
    cases hsettle
  | @right c code candidate hv =>
    cases manual with
    | false =>
      have hwrong := hnobody.code rfl c code candidate true (by simp)
      rw [hv] at hwrong
      cases hwrong
    | true => exact hstill.snoc (fun _ _ hc => hc) rfl (.inl (hstill.none_taken id rfl))
  | @approve c =>
    have hhead : (queued before).head? = some .approve := by
      have hqueued := h.fifo.queued
      rw [hlog, hstill.queued_eq id, hs.commands] at hqueued
      rw [hqueued]
      rfl
    exact absurd hhead (hnobody.queue c (some .approve) (by simp))
  | decline hne => exact hstill.snoc (decline_clears_nobody hne) rfl (.inr trivial)
  | hangUp => exact hstill.snoc close_clears_nobody rfl (.inr trivial)
  | giveUp => exact hstill.snoc close_clears_nobody rfl (.inr trivial)
  | leave => exact hstill.snoc close_clears_nobody rfl (.inr trivial)
  | draw hun => exact hstill.snoc (fun _ _ hc => hc) rfl (.inr trivial)
  | unheard => exact hstill.snoc (fun _ _ hc => hc) rfl (.inr trivial)
  | select => exact hstill.snoc (fun _ _ hc => hc) rfl (.inr trivial)
  | spawn => exact hstill.snoc (fun _ _ hc => hc) rfl (.inr trivial)
  | _ =>
    refine hstill.snoc (fun _ _ hc => hc) rfl ?_
    first | exact .inr trivial | exact .inl (hstill.none_taken id rfl)

theorem Stopping.served (h : Stopping manual φ w) (hlog : w.log = before ++ after)
    (hgone : Gone before) (hnobody : NobodyNew manual before after) (hphase : φ.cleared? = some c) :
    clearedViewer manual before = some c ∧ clearedViewer manual w.log = some c :=
  ⟨(h.quiet before after hlog hgone hnobody).cleared c (hlog ▸ h.cleared c hphase),
    h.cleared c hphase⟩

theorem stopping_step (h : Stopping manual φ w) (hstep : Step manual φ e a φ')
    (hrespond : w.respond e a = some w') :
    Stopping manual φ' w' ∧ Grows (ServesOut manual) w.log w'.log := by
  obtain ⟨v, hsettle, hs, rfl⟩ := respond_spec hrespond
  have hlog := hs.record_log
  have hsessions := sessions_step h.sessions hstep hsettle hs
  refine ⟨⟨h.fifo.settled hs, fun hdrop => ?_, fun hdrop => ?_, fun c hc => ?_, hsessions,
    fun before after hsplit => ?_⟩, .inr ⟨_, hlog, ?_⟩⟩
  · rw [hlog] at hdrop
    exact hs.receiver.trans (h.receiver (by simpa using hdrop))
  · rw [hlog] at hdrop
    exact hs.senders.trans (h.senders (by simpa using hdrop))
  · rw [hlog]
    exact cleared_step h.cleared hstep hc
  · rw [hlog] at hsplit
    exact h.quiet_snoc (fun _ _ => still_step h hstep hsettle hs) hsplit
  · intro before after hsplit hgone hnobody hadmits
    have hserved {c : Connection} (hphase : φ.cleared? = some c) :=
      h.served hsplit hgone hnobody.of_snoc hphase
    cases hstep with
    | quiet hq =>
      rw [admits_quiet hq] at hadmits
      cases hadmits
    | grant => exact ⟨_, rfl, hserved rfl⟩
    | lost => exact ⟨_, rfl, hserved rfl⟩
    | capturer => exact ⟨_, rfl, hserved rfl⟩
    | monitors => exact ⟨_, rfl, hserved rfl⟩
    | reply hr => exact ⟨_, rfl, hserved rfl⟩
    | _ => cases hadmits

theorem still_foreign (h : Stopping manual φ w) (hforeign : x.ofHost = false)
    (hissued : x.issuedCommand = none ∨ w.sendersAlive = true) (hlog : w.log = before ++ after)
    (hgone : Gone before) (hstill : Still manual φ before after) :
    Still manual φ before (after ++ [x]) := by
  have hsenders : w.sendersAlive = false := h.senders (hlog ▸ List.mem_append_left _ hgone.2)
  refine hstill.snoc (fun current c hc => ?_) (hissued.resolve_right (by simp [hsenders])) ?_
  · rwa [clearedStep_foreign hforeign] at hc
  · exact hstill.untaken.imp_left fun htaken => by simp [htaken, takenCommand_of_foreign hforeign]

/-- Something else than the host's task adds to the log. -/
theorem Stopping.drifted (h : Stopping manual φ w) (hfifo : Fifo w')
    (hlog : w'.log = w.log ++ [x]) (hforeign : x.ofHost = false)
    (hreceiver : .receiverDropped ∈ w'.log → w'.receiverAlive = false)
    (hsenders : .sendersDropped ∈ w'.log → w'.sendersAlive = false)
    (hsessions : w'.sessions.map (·.connection) = w.sessions.map (·.connection))
    (hclosed : w'.closed = w.closed) (hissued : x.issuedCommand = none ∨ w.sendersAlive = true)
    (hadmits : x.admits = true → ∃ c, x.served = some c ∧ φ.cleared? = some c) :
    Stopping manual φ w' ∧ Grows (ServesOut manual) w.log w'.log := by
  refine ⟨⟨hfifo, hreceiver, hsenders, fun c hc => ?_, ?_, fun before after hsplit => ?_⟩,
    .inr ⟨x, hlog, fun before after hsplit hgone hnobody hx => ?_⟩⟩
  · rw [hlog, clearedViewer_snoc, clearedStep_foreign hforeign]
    exact h.cleared c hc
  · rw [hsessions, hclosed]
    exact h.sessions
  · rw [hlog] at hsplit
    exact h.quiet_snoc (fun _ _ hpast hgone _ => still_foreign h hforeign hissued hpast hgone)
      hsplit
  · obtain ⟨c, hserved, hphase⟩ := hadmits hx
    exact ⟨c, hserved, h.served hsplit hgone hnobody.of_snoc hphase⟩

theorem stopping_drift (h : Stopping manual φ w) (d : Drift) :
    Stopping manual φ (w.drift d) ∧ Grows (ServesOut manual) w.log (w.drift d).log := by
  have hd := drift_spec w d
  generalize w.drift d = w' at hd ⊢
  have hfifo := h.fifo.drifted hd
  cases hd with
  | still => exact ⟨h, .inl rfl⟩
  | issue command halive =>
    refine h.drifted hfifo rfl rfl ?_ ?_ rfl rfl (.inr halive) (fun hx => by cases hx)
    · intro hdrop
      exact h.receiver (by simpa [World.record] using hdrop)
    · intro hdrop
      exact h.senders (by simpa [World.record] using hdrop)
  | dropSenders _ =>
    refine h.drifted hfifo rfl rfl ?_ (fun _ => rfl) rfl rfl (.inl rfl) (fun hx => by cases hx)
    intro hdrop
    exact h.receiver (by simpa [World.record] using hdrop)
  | dropReceiver _ =>
    refine h.drifted hfifo rfl rfl (fun _ => rfl) ?_ rfl rfl (.inl rfl) (fun hx => by cases hx)
    intro hdrop
    exact h.senders (by simpa [World.record] using hdrop)
  | refresh task =>
    refine h.drifted hfifo rfl rfl ?_ ?_ rfl rfl (.inl rfl) (fun hx => by cases hx)
    · intro hdrop
      exact h.receiver (by simpa [World.record] using hdrop)
    · intro hdrop
      exact h.senders (by simpa [World.record] using hdrop)
  | help s g g' event hget hstep =>
    have hsame := set_connections hget hstep.connection
    cases event with
    | none =>
      simp only [Option.toList_none, List.map_nil, List.append_nil] at hfifo ⊢
      refine ⟨⟨hfifo, h.receiver, h.senders, h.cleared, ?_, h.quiet⟩, .inl rfl⟩
      rw [hsame]
      exact h.sessions
    | some event =>
      refine h.drifted hfifo rfl rfl ?_ ?_ hsame rfl (.inl rfl) ?_
      · intro hdrop
        exact h.receiver (by simpa using hdrop)
      · intro hdrop
        exact h.senders (by simpa using hdrop)
      · intro hx
        cases event with
        | media frame sent =>
          obtain rfl : sent = true := hx
          have hopen : g.connection ∉ w.closed := by simpa using hstep.media_open rfl
          have hmem := List.mem_map_of_mem (f := (·.connection)) (List.mem_of_getElem? hget)
          exact ⟨_, rfl, cleared_of_session ((h.sessions _ hmem).resolve_left hopen)⟩
        | _ => cases hx

theorem machine_stopping : machine.Keeps (Step manual) World.log (Stopping manual)
    (ServesOut manual) :=
  ⟨stopping_step, fun d h => stopping_drift h d⟩

theorem stopping_start : Stopping manual .idle .start where
  fifo := rfl
  receiver := fun h => by cases h
  senders := fun h => by cases h
  cleared := fun _ h => by cases h
  sessions := by simp [World.start]
  quiet := by
    intro before after hsplit hgone
    obtain ⟨rfl, -⟩ := List.append_eq_nil_iff.mp hsplit.symm
    cases hgone.1

/-- After a stop with nobody about to be cleared, only the viewer who was cleared by then is served
any further, and only until it is hung up on. -/
theorem stop_serves_out (h264 : Bool) (config : HostConfig) (port : UInt16)
    (ticks : List HostTick) (before after : List Entry)
    (hlog : (runHost h264 config port ticks).log = before ++ after) (hgone : Gone before)
    (hnobody : NobodyNew config.requireManualApproval before after) :
    ∀ early x late, after = early ++ x :: late → x.admits = true →
      ∃ c, x.served = some c ∧ clearedViewer config.requireManualApproval before = some c ∧
        clearedViewer config.requireManualApproval (before ++ early) = some c := by
  have hlawful := lawful_runHost machine_stopping stopping_start h264 config port ticks rfl
  rintro early x late rfl
  have hsplit : (runHost h264 config port ticks).log = (before ++ early) ++ x :: late := by
    rw [hlog, List.append_assoc]
  refine hlawful (before ++ early) x late hsplit before early rfl hgone (hnobody.mono ?_)
  intro y hy
  rcases List.mem_append.mp hy with hy | hy
  · exact List.mem_append_left _ hy
  · rw [List.mem_singleton.mp hy]
    simp

/-- After a quiet stop nobody is accepted, no capturer is created, and no monitor list and no
frame is sent, whoever connects. -/
theorem stopped_host_admits_nobody (h264 : Bool) (config : HostConfig) (port : UInt16)
    (ticks : List HostTick) (before after : List Entry)
    (hlog : (runHost h264 config port ticks).log = before ++ after) (hgone : Gone before)
    (hquiet : QuietStop config.requireManualApproval before after) :
    ∀ x ∈ after, x.admits = false := by
  intro x hx
  obtain ⟨early, late, hafter⟩ := List.append_of_mem hx
  by_contra hadmits
  obtain ⟨c, -, hcleared, -⟩ := stop_serves_out h264 config port ticks before after hlog hgone
    hquiet.toNobodyNew early x late hafter (by simpa using hadmits)
  rw [hquiet.nobody] at hcleared
  cases hcleared

def Entry.tame : Entry → Bool
  | .host (.compared _ code candidate _) _ => !code.verify candidate
  | .host (.takeCommand _) _ => false
  | _ => true

theorem NobodyNew.of_tame (htame : after.all Entry.tame = true) :
    NobodyNew manual before after := by
  have hall := List.all_eq_true.mp htame
  refine ⟨fun _ c code candidate ok hmem => ?_, fun c answer hmem => ?_⟩
  · simpa [Entry.tame] using hall _ hmem
  · cases hall _ hmem

def lateVisit (candidate : String) : List HostTick :=
  (sampleViewer 0 sampleHello).ticks 3 ++ [.drift .dropSenders, .drift .dropReceiver] ++
    (sampleViewer 0 sampleHello).ticks 3 ++ (sampleViewer 0 (.authRequest candidate)).ticks 6

def lateLog (candidate : String) : List Entry :=
  (runHost false (sampleConfig false) 0 (lateVisit candidate)).log

theorem gone_of_getElem? {i j : ℕ} (hi : log[i]? = some .sendersDropped)
    (hj : log[j]? = some .receiverDropped) : Gone log :=
  ⟨List.mem_of_getElem? hj, List.mem_of_getElem? hi⟩

theorem stopped_host_admits_nobody_wrong_code :
    ((lateLog "1111-1111-1111-1111").drop 4).filter Entry.admits = [] := by
  have hnobody := stopped_host_admits_nobody false (sampleConfig false) 0
    (lateVisit "1111-1111-1111-1111") _ _ (List.take_append_drop 4 _).symm
    (gone_of_getElem? (i := 2) (j := 3) rfl rfl) ⟨.of_tame rfl, rfl⟩
  apply List.filter_eq_nil_iff.mpr
  intro x hx
  rw [hnobody x hx]
  decide

/-- The controller goes once the viewer is accepted, and the monitor list is still sent. -/
def acceptedVisit : List HostTick :=
  (sampleViewer 0 sampleHello).ticks 6 ++
    (sampleViewer 0 (.authRequest "0000-0000-0000-0000")).ticks 8 ++
    [.drift .dropSenders, .drift .dropReceiver] ++ (sampleViewer 0 sampleHello).ticks 3

def acceptedLog : List Entry := (runHost false (sampleConfig false) 0 acceptedVisit).log

theorem stop_serves_out_accepted :
    ∃ c, acceptedLog[17]?.bind Entry.served = some c ∧
      clearedViewer false (acceptedLog.take 15) = some c ∧
      clearedViewer false (acceptedLog.take 15 ++ (acceptedLog.drop 15).take 2) = some c :=
  stop_serves_out false (sampleConfig false) 0 acceptedVisit _ _
    (List.take_append_drop 15 _).symm (gone_of_getElem? (i := 13) (j := 14) rfl rfl)
    (.of_tame rfl) _ _ ((acceptedLog.drop 15).drop 3) rfl rfl

theorem stopped_host_admits_a_viewer :
    ¬ ∀ (h264 : Bool) (config : HostConfig) (port : UInt16) (ticks : List HostTick)
      (before after : List Entry), (runHost h264 config port ticks).log = before ++ after →
      Gone before → ∀ x ∈ after, x.admits = false := by
  intro h
  have hadmits := h false (sampleConfig false) 0 (lateVisit "0000-0000-0000-0000")
    _ _ (List.take_append_drop 4 _).symm (gone_of_getElem? (i := 2) (j := 3) rfl rfl)
  have haccepted : ((lateLog "0000-0000-0000-0000").drop 4)[8]? =
      some (.host (.send ⟨0, .quinn (.v4 1) "10.0.0.1:5000" none⟩
        (.authResponse (.accepted 0))) true) := rfl
  cases hadmits _ (List.mem_of_getElem? haccepted)

end Controlis.Host
