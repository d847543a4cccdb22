import Controlis.Foundation.Runs
import Controlis.Host.AuditLog
import Controlis.Host.SessionEnd

/-!
# Streams that stop

The capture thread and the media task of a session end with their first failure,
and the control loop looks at neither. Connections may be lost in the run, and
then deliver only what had arrived before. An observer keeps the sessions whose
stream has stopped with no error event since.
-/

namespace Controlis.Host
open Protocol Session Interaction

/-- `unread` tells of the lost connections how many messages they still deliver. -/
structure Linked where
  host : Interaction.State Effect Effect.Answer World Unit
  unread : Connection → Option ℕ
  unreported : List ℕ

inductive RunEvent
  | tick (t : HostTick)
  | lose (c : Connection) (unread : ℕ)

def Linked.start (h264 : Bool) (config : HostConfig) (port : UInt16) : Linked :=
  ⟨⟨Host.start h264 config port, .start⟩, fun _ => none, []⟩

def Helpers.stopped (h : Helpers) : Bool := h.capture = .done || h.media = .done

def HostEvent.isError : HostEvent → Bool
  | .error _ => true
  | _ => false

def World.stoppedAt (w : World) (session : ℕ) : Bool := w.sessions[session]?.any Helpers.stopped

def newlyStopped (w w' : World) : List ℕ :=
  (List.range w'.sessions.length).filter fun i => w'.stoppedAt i && !w.stoppedAt i

/-- An error event, whatever it says, reports on every stream that stopped before it. -/
def unreportedAfter (w w' : World) (unreported : List ℕ) : List ℕ :=
  if (emitted (w'.log.drop w.log.length)).any (·.isError) then []
  else unreported ++ newlyStopped w w'

def delivered : (e : Effect) → e.Answer → Option Connection
  | .recvTimeout c, some _ => some c
  | .select c, .message (some _) => some c
  | _, _ => none

def source (task : Prog Effect Effect.Answer Unit) : HostTick → Option Connection
  | .host answer =>
    match task with
    | .call e _ => delivered e (answer e)
    | _ => none
  | .drift _ => none

def Linked.tick (s : Linked) (t : HostTick) : Linked :=
  let host := machine.tick s.host t
  { s with host := host, unreported := unreportedAfter s.host.world host.world s.unreported }

def Linked.remain (s : Linked) (c : Connection) (unread : ℕ) : Linked :=
  { s with unread := Function.update s.unread c (some unread) }

def Linked.step (s : Linked) : RunEvent → Linked
  | .lose c unread => if s.unread c = none then s.remain c unread else s
  | .tick t =>
    match source s.host.task t with
    | none => s.tick t
    | some c =>
      match s.unread c with
      | none => s.tick t
      | some 0 => s
      | some (unread + 1) => (s.tick t).remain c unread

def runLinked (h264 : Bool) (config : HostConfig) (port : UInt16) (events : List RunEvent) :
    Linked :=
  events.foldl Linked.step (.start h264 config port)

def Linked.Serving (s : Linked) (h : Helpers) : Prop :=
  h.stop = false ∧ s.unread h.connection = none

/-- A stream that has stopped was reported since, or its session ends: it was told to, or it
runs out of messages. -/
def Linked.NeverSilent (s : Linked) : Prop :=
  ∀ i ∈ s.unreported, ∀ h, s.host.world.sessions[i]? = some h → ¬ s.Serving h

def Helpers.captureFails (h : Helpers) (outcome : Except String (Option Codec.ScreenFrame)) :
    Bool :=
  match h.capture, outcome with
  | .reserved _, .error _ => true
  | _, _ => false

def Helpers.sendFails (h : Helpers) (closed sent : Bool) : Bool :=
  match h.media with
  | .sending _ => !sent || closed
  | _ => false

/-- While a session is served, capturing and encoding yield no error and every send of a frame
succeeds. -/
def Unfailing (s : Linked) : RunEvent → Prop
  | .tick (.drift (.capture i outcome)) => ∀ h, s.host.world.sessions[i]? = some h →
      s.Serving h → h.captureFails outcome = false
  | .tick (.drift (.media i sent)) => ∀ h, s.host.world.sessions[i]? = some h →
      s.Serving h → h.sendFails (h.connection ∈ s.host.world.closed) sent = false
  | _ => True

variable {h h' : Helpers} {w w' : World} {s : Linked}

theorem stopped_iff : h.stopped = true ↔ h.capture = .done ∨ h.media = .done := by
  simp [Helpers.stopped]

theorem running_iff : h.stopped = false ↔ h.capture ≠ .done ∧ h.media ≠ .done := by
  simp [Helpers.stopped]

structure Survives (h h' : Helpers) : Prop where
  connection : h'.connection = h.connection
  stop : h.stop = true → h'.stop = true
  stopped : h.stopped = true → h'.stopped = true

theorem Survives.refl (h : Helpers) : Survives h h := ⟨rfl, id, id⟩

theorem stepCapture_rest (h : Helpers) (outcome : Except String (Option Codec.ScreenFrame)) :
    (h.stepCapture outcome).1.stop = h.stop ∧ (h.stepCapture outcome).1.media = h.media := by
  unfold Helpers.stepCapture
  cases h.capture with
  | waiting => dsimp only; split_ifs <;> exact ⟨rfl, rfl⟩
  | running monitorId => dsimp only; split_ifs <;> exact ⟨rfl, rfl⟩
  | reserved monitorId => cases outcome <;> exact ⟨rfl, rfl⟩
  | done => exact ⟨rfl, rfl⟩

theorem stepMedia_rest (h : Helpers) (closed sent : Bool) :
    (h.stepMedia closed sent).1.stop = h.stop ∧
      (h.stepMedia closed sent).1.capture = h.capture := by
  unfold Helpers.stepMedia
  cases h.media with
  | waiting =>
    cases h.channel with
    | none => dsimp only; split_ifs <;> exact ⟨rfl, rfl⟩
    | some frame => exact ⟨rfl, rfl⟩
  | sending frame => exact ⟨rfl, rfl⟩
  | done => exact ⟨rfl, rfl⟩

theorem stepInject_rest (h : Helpers) (result : Except String Unit) :
    (h.stepInject result).1.stop = h.stop ∧ (h.stepInject result).1.stopped = h.stopped := by
  unfold Helpers.stepInject
  cases h.injection with
  | creating => exact ⟨rfl, rfl⟩
  | running =>
    cases h.inputs with
    | nil => dsimp only; split_ifs <;> exact ⟨rfl, rfl⟩
    | cons action inputs => exact ⟨rfl, rfl⟩
  | reporting message alive => cases alive <;> exact ⟨rfl, rfl⟩
  | done => exact ⟨rfl, rfl⟩

theorem stepCapture_stopped (hstop : h.stop = false) (hruns : h.stopped = false)
    (outcome : Except String (Option Codec.ScreenFrame)) :
    (h.stepCapture outcome).1.stopped = h.captureFails outcome := by
  obtain ⟨hcapture, hmedia⟩ := running_iff.mp hruns
  unfold Helpers.stepCapture Helpers.captureFails
  cases hc : h.capture with
  | waiting => simp [Helpers.stopped, hstop, hmedia]
  | running monitorId =>
    simp only [if_neg hmedia]
    split_ifs <;> simp [Helpers.stopped, hmedia]
  | reserved monitorId => cases outcome <;> simp [Helpers.stopped, hmedia]
  | done => exact absurd hc hcapture

theorem stepMedia_stopped (hruns : h.stopped = false) (closed sent : Bool) :
    (h.stepMedia closed sent).1.stopped = h.sendFails closed sent := by
  obtain ⟨hcapture, hmedia⟩ := running_iff.mp hruns
  unfold Helpers.stepMedia Helpers.sendFails
  cases hm : h.media with
  | waiting =>
    cases h.channel with
    | none => simp [hcapture, hruns]
    | some frame => simp [Helpers.stopped, hcapture]
  | sending frame => cases closed <;> cases sent <;> simp [Helpers.stopped, hcapture]
  | done => exact absurd hm hmedia

theorem HelperStep.stop {closed : Bool} {r : Helpers × Option HelperEvent}
    (hstep : HelperStep closed h r) : r.1.stop = h.stop := by
  cases hstep with
  | capture outcome => exact (stepCapture_rest h outcome).1
  | media sent => exact (stepMedia_rest h closed sent).1
  | inject result => exact (stepInject_rest h result).1

theorem HelperStep.stopped {closed : Bool} {r : Helpers × Option HelperEvent}
    (hstep : HelperStep closed h r) (hstopped : h.stopped = true) : r.1.stopped = true := by
  cases hstep with
  | capture outcome =>
    rcases stopped_iff.mp hstopped with hc | hm
    · simpa [Helpers.stepCapture, hc] using hstopped
    · exact stopped_iff.mpr (.inr ((stepCapture_rest h outcome).2.trans hm))
  | media sent =>
    rcases stopped_iff.mp hstopped with hc | hm
    · exact stopped_iff.mpr (.inl ((stepMedia_rest h closed sent).2.trans hc))
    · simpa [Helpers.stepMedia, hm] using hstopped
  | inject result => exact (stepInject_rest h result).2.trans hstopped

theorem HelperStep.survives {closed : Bool} {r : Helpers × Option HelperEvent}
    (hstep : HelperStep closed h r) : Survives h r.1 :=
  ⟨hstep.connection, fun hstop => hstep.stop.trans hstop, hstep.stopped⟩

theorem stepCapture_event (h : Helpers) (outcome : Except String (Option Codec.ScreenFrame))
    (event : HostEvent) : (h.stepCapture outcome).2 ≠ some (.reported event) := by
  unfold Helpers.stepCapture
  cases h.capture with
  | waiting => dsimp only; split_ifs <;> simp
  | running monitorId => dsimp only; split_ifs <;> simp
  | reserved monitorId => cases outcome <;> simp
  | done => simp

theorem stepMedia_event (h : Helpers) (closed sent : Bool) (event : HostEvent) :
    (h.stepMedia closed sent).2 ≠ some (.reported event) := by
  unfold Helpers.stepMedia
  cases h.media with
  | waiting => cases h.channel <;> simp
  | sending frame => simp
  | done => simp

/-- At most one session changes, or a new one begins. No stream of a `served` session stops. -/
inductive Changed (served : Helpers → Prop) (w w' : World) : Prop
  | update (i : ℕ) (f : Helpers → Helpers) (hsessions : w'.sessions = w.sessions.modify i f)
      (hf : ∀ h, w.sessions[i]? = some h → Survives h (f h) ∧
        (served h → h.stopped = false → (f h).stopped = false))
  | spawn (c : Connection) (activeId : UInt32)
      (hsessions : w'.sessions = w.sessions ++ [.start c activeId])

variable {served : Helpers → Prop}

theorem Changed.same (h : w'.sessions = w.sessions) : Changed served w w' :=
  .update 0 id (by rw [h, List.modify_id]) fun h _ => ⟨.refl h, fun _ hruns => hruns⟩

theorem Changed.old (hc : Changed served w w') {i : ℕ} (hget : w.sessions[i]? = some h) :
    ∃ h', w'.sessions[i]? = some h' ∧ Survives h h' ∧
      (served h → h.stopped = false → h'.stopped = false) := by
  cases hc with
  | update j f hsessions hf =>
    rw [hsessions, List.getElem?_modify, hget]
    by_cases hij : j = i
    · subst hij
      exact ⟨f h, by simp, hf h hget⟩
    · exact ⟨h, by simp [hij], .refl h, fun _ hruns => hruns⟩
  | spawn c activeId hsessions =>
    have hlt : i < w.sessions.length := (List.getElem?_eq_some_iff.mp hget).1
    rw [hsessions, List.getElem?_append_left hlt]
    exact ⟨h, hget, .refl h, fun _ hruns => hruns⟩

theorem Changed.new (hc : Changed served w w') {i : ℕ} (hnone : w.sessions[i]? = none)
    (hget : w'.sessions[i]? = some h') : h'.stopped = false := by
  cases hc with
  | update j f hsessions hf =>
    rw [hsessions, List.getElem?_modify, hnone] at hget
    cases hget
  | spawn c activeId hsessions =>
    rw [hsessions, List.getElem?_append_right (List.getElem?_eq_none_iff.mp hnone)] at hget
    rw [List.getElem?_singleton] at hget
    split_ifs at hget
    cases hget
    rfl

theorem take_sessions {answer : Option HostCommand} (h : w.take answer = some w') :
    w'.sessions = w.sessions := by
  rw [(take_some h).1]

theorem Changed.updated {session : ℕ} {f : Helpers → Helpers}
    (hf : ∀ h, Survives h (f h) ∧ (f h).stopped = h.stopped) :
    Changed served w (w.update session f) :=
  .update session f rfl fun h _ => ⟨(hf h).1, fun _ hruns => (hf h).2.trans hruns⟩

theorem settle_changed {e : Effect} {a : e.Answer} (h : w.settle e a = some w') :
    Changed served w w' := by
  cases e with
  | takeCommand c => exact .same (take_sessions h)
  | select c =>
    cases a with
    | command answer => exact .same (take_sessions h)
    | message m =>
      cases h
      exact .same rfl
  | accept internet =>
    rcases a with _ | e | c
    · cases h
      exact .same rfl
    · cases h
      exact .same rfl
    · simp only [World.settle] at h
      split_ifs at h
      cases h
      exact .same rfl
  | spawn c codec activeId =>
    simp only [World.settle] at h
    split_ifs at h
    cases h
    exact .spawn c activeId rfl
  | forward session action =>
    simp only [World.settle] at h
    split at h
    · cases h
    · split_ifs at h
      · cases h
        exact .same rfl
      · cases h
        exact .updated fun h => ⟨⟨rfl, id, id⟩, rfl⟩
  | storeActive session activeId =>
    cases h
    exact .updated fun h => ⟨⟨rfl, id, id⟩, rfl⟩
  | stopCapture session =>
    cases h
    exact .updated fun h => ⟨⟨rfl, fun _ => rfl, id⟩, rfl⟩
  | dropInput session =>
    cases h
    exact .updated fun h => ⟨⟨rfl, id, id⟩, rfl⟩
  | emit | now | joinCapture | awaitMedia | spawnRefresh =>
    simp only [World.settle] at h
    split_ifs at h
    cases h
    exact .same rfl
  | _ =>
    cases h
    exact .same rfl

theorem respond_changed {e : Effect} {a : e.Answer} (h : w.respond e a = some w') :
    Changed served w w' := by
  obtain ⟨v, hv, rfl⟩ := Option.map_eq_some_iff.mp h
  cases settle_changed hv with
  | update i f hsessions hf => exact .update i f hsessions hf
  | spawn c activeId hsessions => exact .spawn c activeId hsessions

theorem help_sessions (w : World) (session : ℕ) (f : Helpers → Helpers × Option HelperEvent) :
    (w.help session f).sessions = w.sessions.modify session fun h => (f h).1 := by
  apply List.ext_getElem?
  intro i
  unfold World.help
  rw [List.getElem?_modify]
  cases hget : w.sessions[session]? with
  | none =>
    by_cases hi : session = i
    · simp [← hi, hget]
    · simp [hi]
  | some h =>
    have hlt : session < w.sessions.length := (List.getElem?_eq_some_iff.mp hget).1
    dsimp only
    rw [List.getElem?_set]
    by_cases hi : session = i
    · subst hi
      rw [hget]
      simp [hlt]
    · simp [hi]

theorem drift_changed {d : Drift} (hok : Unfailing s (.tick (.drift d))) :
    Changed s.Serving s.host.world (s.host.world.drift d) := by
  cases d with
  | capture i outcome =>
    refine .update i _ (help_sessions ..) fun h hget => ?_
    have hstep : HelperStep true h (h.stepCapture outcome) := .capture outcome
    refine ⟨hstep.survives, fun hserving hruns => ?_⟩
    exact (stepCapture_stopped hserving.1 hruns outcome).trans (hok h hget hserving)
  | media i sent =>
    refine .update i _ (help_sessions ..) fun h hget => ?_
    have hstep : HelperStep _ h (h.stepMedia (h.connection ∈ s.host.world.closed) sent) :=
      .media sent
    refine ⟨hstep.survives, fun hserving hruns => ?_⟩
    exact (stepMedia_stopped hruns _ sent).trans (hok h hget hserving)
  | inject i result =>
    refine .update i _ (help_sessions ..) fun h _ => ?_
    have hstep : HelperStep true h (h.stepInject result) := .inject result
    refine ⟨hstep.survives, fun _ hruns => ?_⟩
    exact (stepInject_rest h result).2.trans hruns
  | issue | dropSenders | dropReceiver | refresh =>
    apply Changed.same
    simp only [World.drift]
    split_ifs <;> rfl

theorem tick_changed {t : HostTick} (hok : Unfailing s (.tick t)) :
    Changed s.Serving s.host.world (machine.tick s.host t).world := by
  cases t with
  | drift d => exact drift_changed hok
  | host answer =>
    obtain ⟨⟨task, w⟩, unread, unreported⟩ := s
    cases task with
    | ret r => exact .same rfl
    | loop body x k => exact .same rfl
    | call e k =>
      simp only [Machine.tick]
      cases hrespond : machine.respond w e (answer e) with
      | none => exact .same rfl
      | some w' => exact respond_changed hrespond

theorem stoppedAt_iff {i : ℕ} :
    w.stoppedAt i = true ↔ ∃ h, w.sessions[i]? = some h ∧ h.stopped = true := by
  unfold World.stoppedAt
  cases w.sessions[i]? <;> simp

theorem mem_newlyStopped {i : ℕ} :
    i ∈ newlyStopped w w' ↔ w'.stoppedAt i = true ∧ w.stoppedAt i = false := by
  rw [newlyStopped, List.mem_filter, List.mem_range, Bool.and_eq_true, Bool.not_eq_true']
  refine ⟨fun h => h.2, fun h => ⟨?_, h⟩⟩
  obtain ⟨g, hget, -⟩ := stoppedAt_iff.mp h.1
  exact (List.getElem?_eq_some_iff.mp hget).1

theorem unreportedAfter_stopped {unreported : List ℕ} {i : ℕ}
    (hmem : i ∈ unreportedAfter w w' unreported) : i ∈ unreported ∨ w'.stoppedAt i = true := by
  unfold unreportedAfter at hmem
  split_ifs at hmem
  · cases hmem
  · rcases List.mem_append.mp hmem with hmem | hmem
    · exact .inl hmem
    · exact .inr (mem_newlyStopped.mp hmem).1

/-- The streams of served sessions run, and the observer only keeps streams that have stopped. -/
structure Streaming (s : Linked) : Prop where
  runs : ∀ (i : ℕ) (h : Helpers), s.host.world.sessions[i]? = some h → s.Serving h →
    h.stopped = false
  stopped : ∀ i ∈ s.unreported, s.host.world.stoppedAt i = true

theorem streaming_start (h264 : Bool) (config : HostConfig) (port : UInt16) :
    Streaming (.start h264 config port) where
  runs := fun _ _ hget => by cases hget
  stopped := fun _ hmem => by cases hmem

theorem Streaming.neverSilent (hs : Streaming s) : s.NeverSilent := by
  intro i hmem h hget hserving
  obtain ⟨g, hget', hstopped⟩ := stoppedAt_iff.mp (hs.stopped i hmem)
  obtain rfl : h = g := by simpa [hget] using hget'
  rw [hs.runs i h hget hserving] at hstopped
  cases hstopped

def FewerUnread (unread unread' : Connection → Option ℕ) : Prop :=
  ∀ c, unread' c = none → unread c = none

theorem fewerUnread_update (unread : Connection → Option ℕ) (c : Connection) (n : ℕ) :
    FewerUnread unread (Function.update unread c (some n)) := by
  intro d hnone
  by_cases hd : d = c
  · subst hd
    rw [Function.update_self] at hnone
    cases hnone
  · rwa [Function.update_of_ne hd] at hnone

theorem step_cases (s : Linked) (e : RunEvent) :
    ∃ unread, FewerUnread s.unread unread ∧
      (s.step e = { s with unread := unread } ∨
        ∃ t, e = .tick t ∧ s.step e = { s.tick t with unread := unread }) := by
  cases e with
  | lose c n =>
    simp only [Linked.step]
    split_ifs
    · exact ⟨_, fewerUnread_update s.unread c n, .inl rfl⟩
    · exact ⟨_, fun _ => id, .inl rfl⟩
  | tick t =>
    simp only [Linked.step]
    cases source s.host.task t with
    | none => exact ⟨_, fun _ => id, .inr ⟨t, rfl, rfl⟩⟩
    | some c =>
      dsimp only
      cases hunread : s.unread c with
      | none => exact ⟨_, fun _ => id, .inr ⟨t, rfl, rfl⟩⟩
      | some n =>
        cases n with
        | zero => exact ⟨_, fun _ => id, .inl rfl⟩
        | succ n => exact ⟨_, fewerUnread_update s.unread c n, .inr ⟨t, rfl, rfl⟩⟩

theorem Streaming.tick (hs : Streaming s) {t : HostTick} (hok : Unfailing s (.tick t)) :
    Streaming (s.tick t) := by
  have hchanged := tick_changed hok
  refine ⟨fun i h' hget' hserving' => ?_, fun i hmem => ?_⟩
  · cases hget : s.host.world.sessions[i]? with
    | none => exact hchanged.new hget hget'
    | some h =>
      obtain ⟨g, hgetg, hsurvives, hruns⟩ := hchanged.old hget
      obtain rfl : g = h' := Option.some.inj (hgetg.symm.trans hget')
      have hserving : s.Serving h := by
        refine ⟨Bool.eq_false_iff.mpr fun hstop => ?_, hsurvives.connection ▸ hserving'.2⟩
        have hcontra := (hsurvives.stop hstop).symm.trans hserving'.1
        cases hcontra
      exact hruns hserving (hs.runs i h hget hserving)
  · rcases unreportedAfter_stopped hmem with hmem | hstopped
    · obtain ⟨h, hget, hstopped⟩ := stoppedAt_iff.mp (hs.stopped i hmem)
      obtain ⟨h', hget', hsurvives, -⟩ := hchanged.old hget
      exact stoppedAt_iff.mpr ⟨h', hget', hsurvives.stopped hstopped⟩
    · exact hstopped

theorem Streaming.unread (hs : Streaming s) {unread : Connection → Option ℕ}
    (hunread : FewerUnread s.unread unread) : Streaming { s with unread := unread } :=
  ⟨fun i h hget hserving => hs.runs i h hget ⟨hserving.1, hunread _ hserving.2⟩, hs.stopped⟩

theorem Streaming.step (hs : Streaming s) {e : RunEvent} (hok : Unfailing s e) :
    Streaming (s.step e) := by
  obtain ⟨unread, hunread, heq | ⟨t, rfl, heq⟩⟩ := step_cases s e
  · rw [heq]
    exact hs.unread hunread
  · rw [heq]
    exact (hs.tick hok).unread hunread

theorem help_log {i : ℕ} {f : Helpers → Helpers × Option HelperEvent}
    (hget : w.sessions[i]? = some h) :
    (w.help i f).log.drop w.log.length = (f h).2.toList.map (.helper i h.connection) := by
  have hlog : (w.help i f).log = w.log ++ (f h).2.toList.map (.helper i h.connection) := by
    simp only [World.help, hget]
  rw [hlog, List.drop_left]

theorem emitted_help {event : Option HelperEvent} (i : ℕ) (c : Connection)
    (hevent : ∀ told, event ≠ some (.reported told)) :
    emitted (event.toList.map (.helper i c)) = [] := by
  cases event with
  | none => rfl
  | some event =>
    cases event with
    | reported told => exact absurd rfl (hevent told)
    | _ => rfl

theorem silent_help (hs : Streaming s) {i : ℕ} {f : Helpers → Helpers × Option HelperEvent}
    {closed : Bool} (hget : s.host.world.sessions[i]? = some h) (hserving : s.Serving h)
    (hstep : HelperStep closed h (f h))
    (hevent : ∀ told, (f h).2 ≠ some (.reported told)) (hstopped : (f h).1.stopped = true) :
    ∃ g, (s.host.world.help i f).sessions[i]? = some g ∧ s.Serving g ∧
      i ∈ unreportedAfter s.host.world (s.host.world.help i f) s.unreported := by
  have hget' : (s.host.world.help i f).sessions[i]? = some (f h).1 := by
    rw [help_sessions, List.getElem?_modify_eq, hget]
    rfl
  have hserving' : s.Serving (f h).1 :=
    ⟨hstep.stop.trans hserving.1, hstep.connection ▸ hserving.2⟩
  have hnew : i ∈ newlyStopped s.host.world (s.host.world.help i f) := by
    apply mem_newlyStopped.mpr
    refine ⟨stoppedAt_iff.mpr ⟨_, hget', hstopped⟩, ?_⟩
    rw [World.stoppedAt, hget]
    exact hs.runs i h hget hserving
  have hquiet : emitted ((s.host.world.help i f).log.drop s.host.world.log.length) = [] := by
    rw [help_log hget]
    exact emitted_help i h.connection hevent
  refine ⟨_, hget', hserving', ?_⟩
  rw [unreportedAfter, hquiet]
  exact List.mem_append_right _ hnew

theorem unfailing_of_neverSilent (hs : Streaming s) {e : RunEvent}
    (hnever : (s.step e).NeverSilent) : Unfailing s e := by
  cases e with
  | lose c n => trivial
  | tick t =>
    cases t with
    | host answer => trivial
    | drift d =>
      cases d with
      | capture i outcome =>
        intro h hget hserving
        apply Bool.eq_false_iff.mpr
        intro hfails
        have hstep : HelperStep true h (h.stepCapture outcome) := .capture outcome
        have hstopped := stepCapture_stopped hserving.1 (hs.runs i h hget hserving) outcome
        obtain ⟨g, hget', hserving', hmem⟩ := silent_help (f := (·.stepCapture outcome)) hs hget
          hserving hstep (stepCapture_event h outcome) (hstopped.trans hfails)
        exact hnever i hmem g hget' hserving'
      | media i sent =>
        intro h hget hserving
        apply Bool.eq_false_iff.mpr
        intro hfails
        have hstep : HelperStep _ h (h.stepMedia (h.connection ∈ s.host.world.closed) sent) :=
          .media sent
        have hstopped := stepMedia_stopped (hs.runs i h hget hserving)
          (h.connection ∈ s.host.world.closed) sent
        obtain ⟨g, hget', hserving', hmem⟩ :=
          silent_help (f := fun h => h.stepMedia (h.connection ∈ s.host.world.closed) sent) hs hget
            hserving hstep (stepMedia_event h _ sent) (hstopped.trans hfails)
        exact hnever i hmem g hget' hserving'
      | _ => trivial

def Entry.deliveredBy (c : Connection) : Entry → Bool
  | .host e a => delivered e a = some c
  | _ => false

def deliveries (c : Connection) (log : List Entry) : ℕ := log.countP (Entry.deliveredBy c)

theorem deliveries_snoc (c : Connection) (log : List Entry) (x : Entry) :
    deliveries c (log ++ [x]) = deliveries c log + if x.deliveredBy c then 1 else 0 := by
  rw [deliveries, List.countP_append, List.countP_singleton, deliveries]

theorem deliveries_tick (c : Connection) (σ : Interaction.State Effect Effect.Answer World Unit)
    (t : HostTick) : deliveries c (machine.tick σ t).world.log ≤
      deliveries c σ.world.log + if source σ.task t = some c then 1 else 0 := by
  obtain ⟨task, w⟩ := σ
  cases t with
  | drift d =>
    have htick : (machine.tick ⟨task, w⟩ (.drift d)).world.log = (w.drift d).log := rfl
    rw [htick]
    rcases (drift_spec w d).grows with hlog | ⟨x, hlog, hforeign⟩
    · rw [hlog]
      exact Nat.le_add_right _ _
    · have hx : x.deliveredBy c = false := by
        cases x with
        | host e a => cases hforeign
        | _ => rfl
      rw [hlog, deliveries_snoc]
      simp [hx]
  | host answer =>
    cases task with
    | ret r => exact Nat.le_add_right _ _
    | loop body x k => exact Nat.le_add_right _ _
    | call e k =>
      simp only [Machine.tick]
      cases hrespond : machine.respond w e (answer e) with
      | none => exact Nat.le_add_right _ _
      | some w' =>
        obtain ⟨v, -, hsettled, rfl⟩ := respond_spec hrespond
        dsimp only
        rw [hsettled.record_log, deliveries_snoc]
        by_cases hd : delivered e (answer e) = some c <;> simp [source, Entry.deliveredBy, hd]

theorem lost_step {c : Connection} {n : ℕ} (hlost : s.unread c = some n) (e : RunEvent) :
    ∃ left, (s.step e).unread c = some left ∧
      deliveries c (s.step e).host.world.log + left ≤ deliveries c s.host.world.log + n := by
  cases e with
  | lose d k =>
    simp only [Linked.step]
    split_ifs with hd
    · refine ⟨n, ?_, le_refl _⟩
      have hne : c ≠ d := by
        rintro rfl
        rw [hlost] at hd
        cases hd
      simp [Linked.remain, Function.update_of_ne hne, hlost]
    · exact ⟨n, hlost, le_refl _⟩
  | tick t =>
    have htick := deliveries_tick c s.host t
    simp only [Linked.step]
    cases hsource : source s.host.task t with
    | none =>
      rw [hsource, if_neg nofun] at htick
      exact ⟨n, hlost, Nat.add_le_add_right htick n⟩
    | some d =>
      dsimp only
      rw [hsource] at htick
      by_cases hd : d = c
      · subst hd
        rw [if_pos rfl] at htick
        rw [hlost]
        cases n with
        | zero => exact ⟨0, hlost, le_refl _⟩
        | succ n =>
          refine ⟨n, Function.update_self .., ?_⟩
          have hcount := Nat.add_le_add_right htick n
          rwa [Nat.add_assoc, Nat.add_comm 1 n] at hcount
      · rw [if_neg fun h => hd (Option.some.inj h)] at htick
        have hcount := Nat.add_le_add_right htick n
        cases s.unread d with
        | none => exact ⟨n, hlost, hcount⟩
        | some k =>
          cases k with
          | zero => exact ⟨n, hlost, le_refl _⟩
          | succ k => exact ⟨n, (Function.update_of_ne (Ne.symm hd) ..).trans hlost, hcount⟩

/-- However the run goes on, a lost connection delivers no more than was left. -/
theorem lost_connection_runs_dry {c : Connection} {n : ℕ} (hlost : s.unread c = some n)
    (events : List RunEvent) :
    deliveries c (events.foldl Linked.step s).host.world.log ≤
      deliveries c s.host.world.log + n := by
  induction events generalizing s n with
  | nil => exact Nat.le_add_right _ _
  | cons e events ih =>
    obtain ⟨left, hleft, hcount⟩ := lost_step hlost e
    exact (ih hleft).trans hcount

/-- A run is never silent about a stream that stops iff no stream of a served session fails. -/
theorem never_silent_iff_unfailing (h264 : Bool) (config : HostConfig) (port : UInt16)
    (events : List RunEvent) :
    Runs.Meets Linked.step Unfailing (.start h264 config port) events ↔
      ∀ pre, pre <+: events → (runLinked h264 config port pre).NeverSilent :=
  Runs.meets_iff (streaming_start h264 config port) (fun _ hs => hs.neverSilent)
    (fun _ _ hs hok => hs.step hok) fun _ _ hs hnever => unfailing_of_neverSilent hs hnever

/-- The display is lost, the media task finds nothing more to send, and the viewer clicks. -/
def frozenVisit : List HostTick :=
  visit 0 ++ [.drift (.capture 0 (.ok none)), .drift (.capture 0 (.ok none)),
    .drift (.capture 0 (.error "display lost")), .drift (.media 0 true)] ++ click 0 ++ inject 0 2

def frozen : Linked := runLinked false (sampleConfig false) 0 (frozenVisit.map .tick)

set_option maxRecDepth 4000 in
theorem frozen_picture_takes_clicks :
    ¬ frozen.NeverSilent ∧ (emitted frozen.host.world.log).any (·.isError) = false ∧
      ∃ h, frozen.host.world.sessions = [h] ∧ h.capture = .done ∧ h.media = .done ∧
        frozen.Serving h ∧
        performed (eventsOf 0 frozen.host.world.log) = [.button .left .press] := by
  refine ⟨?_, rfl, _, rfl, rfl, rfl, ⟨rfl, rfl⟩, rfl⟩
  intro hnever
  exact hnever 0 (by decide) _ rfl ⟨rfl, rfl⟩

end Controlis.Host
