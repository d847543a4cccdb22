import Controlis.Host.Machine
import Controlis.Portal.Release

/-!
# Input at the end of a session

The teardown closes the input channel and waits for the capture thread and the
media task, but not for the injection thread. What the thread of a session does
is its list of events; these are the calls on its injector, and the injector and
what is behind it decide what is down.
-/

namespace Controlis.Host
open Protocol Session Interaction Input Strokes
open Portal (PortalInjector)

def HelperEvent.action : HelperEvent → Option InputAction
  | .performed action _ => some action
  | _ => none

def HelperEvent.operation : HelperEvent → Option Operation
  | .performed action _ => some (applyInput action)
  | .released _ => some .releaseAll
  | _ => none

def performed (events : List HelperEvent) : List InputAction := events.filterMap HelperEvent.action

def operations (events : List HelperEvent) : List Operation :=
  events.filterMap HelperEvent.operation

def Finished (events : List HelperEvent) : Prop :=
  (∃ r, .released r ∈ events) ∨ ∃ e, .injector (.error e) ∈ events

def InjectionThread.live : InjectionThread → Bool
  | .creating => true
  | .running => true
  | .reporting _ alive => alive
  | .done => false

structure InputInv (h : Helpers) (events : List HelperEvent) (forwarded : List InputAction) :
    Prop where
  creating : h.injection = .creating → performed events = [] ∧ operations events = []
  live : h.injection.live = true → performed events ++ h.inputs = forwarded ∧
    (∀ r, .released r ∉ events) ∧ ∀ e, .injector (.error e) ∉ events
  failed : ∀ e, .injector (.error e) ∈ events →
    h.injection.live = false ∧ performed events = [] ∧ operations events = []
  released : ∀ r, .released r ∈ events → h.injection = .done ∧ performed events = forwarded ∧
    operations events = forwarded.map applyInput ++ [.releaseAll]

variable {h : Helpers} {events : List HelperEvent} {forwarded : List InputAction}
  {event : HelperEvent} {action : InputAction}

theorem inputInv_start (c : Connection) (activeId : UInt32) :
    InputInv (.start c activeId) [] [] where
  creating := fun _ => ⟨rfl, rfl⟩
  live := fun _ => ⟨rfl, fun _ => List.not_mem_nil, fun _ => List.not_mem_nil⟩
  failed := fun _ h => by cases h
  released := fun _ h => by cases h

theorem InputInv.congr {h' : Helpers} (hinv : InputInv h events forwarded)
    (hinjection : h'.injection = h.injection) (hinputs : h'.inputs = h.inputs) :
    InputInv h' events forwarded :=
  ⟨hinjection ▸ hinv.creating, hinputs ▸ hinjection ▸ hinv.live, hinjection ▸ hinv.failed,
    hinjection ▸ hinv.released⟩

theorem InputInv.forward (hinv : InputInv h events forwarded) (hdone : h.injection ≠ .done) :
    InputInv { h with inputs := h.inputs ++ [action] } events (forwarded ++ [action]) where
  creating := hinv.creating
  live := fun hlive => by
    obtain ⟨hqueue, hreleased, hfailed⟩ := hinv.live hlive
    exact ⟨by rw [← hqueue, List.append_assoc], hreleased, hfailed⟩
  failed := hinv.failed
  released := fun r hr => absurd (hinv.released r hr).1 hdone

theorem performed_snoc (events : List HelperEvent) (event : HelperEvent) :
    performed (events ++ [event]) = performed events ++ event.action.toList := by
  rw [performed, List.filterMap_append]
  cases haction : event.action <;> simp [performed, haction]

theorem operations_snoc (events : List HelperEvent) (event : HelperEvent) :
    operations (events ++ [event]) = operations events ++ event.operation.toList := by
  rw [operations, List.filterMap_append]
  cases hoperation : event.operation <;> simp [operations, hoperation]

theorem operations_of_unreleased (h : ∀ r, .released r ∉ events) :
    operations events = (performed events).map applyInput := by
  rw [operations, performed, List.map_filterMap]
  apply List.filterMap_congr
  intro event hevent
  cases event with
  | released r => exact absurd hevent (h r)
  | _ => rfl

def HelperEvent.passive : HelperEvent → Bool
  | .captured _ => true
  | .media _ _ => true
  | .reported _ => true
  | .injector (.ok _) => true
  | _ => false

theorem InputInv.passive (hinv : InputInv h events forwarded) (hp : event.passive = true) :
    InputInv h (events ++ [event]) forwarded := by
  have haction : performed (events ++ [event]) = performed events := by
    rw [performed_snoc]
    cases event with
    | performed action result => cases hp
    | _ => exact List.append_nil _
  have hoperations : operations (events ++ [event]) = operations events := by
    rw [operations_snoc]
    cases event with
    | performed action result => cases hp
    | released result => cases hp
    | _ => exact List.append_nil _
  have hreleased (r : Except String Unit) (hr : .released r ∈ events ++ [event]) :
      .released r ∈ events := by
    rcases List.mem_append.mp hr with hr | hr
    · exact hr
    · rw [← List.mem_singleton.mp hr] at hp
      cases hp
  have hfailed (e : String) (he : .injector (.error e) ∈ events ++ [event]) :
      .injector (.error e) ∈ events := by
    rcases List.mem_append.mp he with he | he
    · exact he
    · rw [← List.mem_singleton.mp he] at hp
      cases hp
  refine ⟨?_, ?_, ?_, ?_⟩
  · rw [haction, hoperations]
    exact hinv.creating
  · rw [haction]
    intro hlive
    obtain ⟨hqueue, hr, he⟩ := hinv.live hlive
    exact ⟨hqueue, fun r hmem => hr r (hreleased r hmem), fun e hmem => he e (hfailed e hmem)⟩
  · rw [haction, hoperations]
    exact fun e he => hinv.failed e (hfailed e he)
  · rw [haction, hoperations]
    exact fun r hr => hinv.released r (hreleased r hr)

theorem inputInv_of_live (hcreating : h.injection ≠ .creating)
    (hqueue : performed events ++ h.inputs = forwarded) (hreleased : ∀ r, .released r ∉ events)
    (hfailed : ∀ e, .injector (.error e) ∉ events) : InputInv h events forwarded :=
  ⟨fun hc => absurd hc hcreating, fun _ => ⟨hqueue, hreleased, hfailed⟩,
    fun e he => absurd he (hfailed e), fun r hr => absurd hr (hreleased r)⟩

theorem not_mem_snoc {x y : HelperEvent} (hx : x ∉ events) (hne : x ≠ y) : x ∉ events ++ [y] := by
  intro hmem
  rcases List.mem_append.mp hmem with hmem | hmem
  · exact hx hmem
  · exact hne (List.mem_singleton.mp hmem)

theorem InputInv.created (hinv : InputInv h events forwarded) (hi : h.injection = .creating)
    (result : Except String Unit) :
    InputInv (h.stepInject result).1 (events ++ (h.stepInject result).2.toList) forwarded := by
  obtain ⟨hqueue, hreleased, hfailed⟩ := hinv.live (by rw [hi]; rfl)
  obtain ⟨hperformed, hoperations⟩ := hinv.creating hi
  simp only [Helpers.stepInject, hi, Option.toList_some]
  cases result with
  | ok _ =>
    have hlive : InputInv { h with injection := .running } events forwarded :=
      inputInv_of_live (by simp) hqueue hreleased hfailed
    exact hlive.passive rfl
  | error e =>
    refine ⟨fun hc => (by cases hc), fun hlive => (by cases hlive), fun e' _ => ?_, fun r hr => ?_⟩
    · exact ⟨rfl, by rw [performed_snoc, hperformed]; rfl,
        by rw [operations_snoc, hoperations]; rfl⟩
    · exact absurd hr (not_mem_snoc (hreleased r) (by simp))

theorem InputInv.worked (hinv : InputInv h events forwarded) (hi : h.injection = .running)
    (result : Except String Unit) :
    InputInv (h.stepInject result).1 (events ++ (h.stepInject result).2.toList) forwarded := by
  obtain ⟨hqueue, hreleased, hfailed⟩ := hinv.live (by rw [hi]; rfl)
  cases hinputs : h.inputs with
  | cons action inputs =>
    simp only [Helpers.stepInject, hi, hinputs, Option.toList_some]
    rw [hinputs] at hqueue
    refine inputInv_of_live ?_ ?_ (fun r => not_mem_snoc (hreleased r) (by simp))
      (fun e => not_mem_snoc (hfailed e) (by simp))
    · cases result <;> simp
    · rw [performed_snoc, ← hqueue]
      simp [HelperEvent.action]
  | nil =>
    simp only [Helpers.stepInject, hi, hinputs]
    rw [hinputs, List.append_nil] at hqueue
    split_ifs with hopen
    · simpa using hinv
    · -- the queue is closed and drained, and everything was performed
      refine ⟨fun hc => (by cases hc), fun hlive => (by cases hlive), fun e he => ?_,
        fun r hr => ?_⟩
      · exact absurd he (not_mem_snoc (hfailed e) (by simp))
      · refine ⟨rfl, ?_, ?_⟩
        · rw [Option.toList_some, performed_snoc, hqueue]
          exact List.append_nil _
        · rw [Option.toList_some, operations_snoc, operations_of_unreleased hreleased, hqueue]
          rfl

theorem InputInv.inject (hinv : InputInv h events forwarded) (result : Except String Unit) :
    InputInv (h.stepInject result).1 (events ++ (h.stepInject result).2.toList) forwarded := by
  cases hi : h.injection with
  | creating => exact hinv.created hi result
  | running => exact hinv.worked hi result
  | done => simpa [Helpers.stepInject, hi] using hinv
  | reporting message alive =>
    cases alive with
    | true =>
      obtain ⟨hqueue, hreleased, hfailed⟩ := hinv.live (by rw [hi]; rfl)
      simp only [Helpers.stepInject, hi, Option.toList_some]
      have hlive : InputInv { h with injection := .running } events forwarded :=
        inputInv_of_live (by simp) hqueue hreleased hfailed
      exact hlive.passive rfl
    | false =>
      simp only [Helpers.stepInject, hi, Option.toList_some]
      have hdone : InputInv { h with injection := .done, inputs := [] } events forwarded := by
        refine ⟨fun hc => (by cases hc), fun hlive => (by cases hlive), fun e he => ?_,
          fun r hr => ?_⟩
        · exact ⟨rfl, (hinv.failed e he).2⟩
        · have hcontra := (hinv.released r hr).1
          rw [hi] at hcontra
          cases hcontra
      exact hdone.passive rfl

theorem not_over_of_performed (hinv : InputInv h events forwarded) {result r : Except String Unit}
    (hevent : (h.stepInject result).2 = some (.performed action r)) : ¬ Finished events := by
  have hlive : h.injection.live = true := by
    unfold Helpers.stepInject at hevent
    cases hi : h.injection with
    | creating => rfl
    | running => rfl
    | reporting message alive => cases alive <;> simp [hi] at hevent
    | done => simp [hi] at hevent
  obtain ⟨-, hreleased, hfailed⟩ := hinv.live hlive
  rintro (⟨r, hr⟩ | ⟨e, he⟩)
  · exact hreleased r hr
  · exact hfailed e he

theorem stepCapture_input (h : Helpers) (outcome : Except String (Option Codec.ScreenFrame)) :
    (h.stepCapture outcome).1.injection = h.injection ∧
      (h.stepCapture outcome).1.inputs = h.inputs ∧
      ∀ event, (h.stepCapture outcome).2 = some event → event.passive = true := by
  unfold Helpers.stepCapture
  cases h.capture with
  | waiting => dsimp only; split_ifs <;> exact ⟨rfl, rfl, fun _ he => by cases he⟩
  | running monitorId => dsimp only; split_ifs <;> exact ⟨rfl, rfl, fun _ he => by cases he⟩
  | reserved monitorId =>
    cases outcome <;> exact ⟨rfl, rfl, fun _ he => by cases he; rfl⟩
  | done => exact ⟨rfl, rfl, fun _ he => by cases he⟩

theorem stepMedia_input (h : Helpers) (closed sent : Bool) :
    (h.stepMedia closed sent).1.injection = h.injection ∧
      (h.stepMedia closed sent).1.inputs = h.inputs ∧
      ∀ event, (h.stepMedia closed sent).2 = some event → event.passive = true := by
  unfold Helpers.stepMedia
  cases h.media with
  | waiting =>
    cases h.channel with
    | none => dsimp only; split_ifs <;> exact ⟨rfl, rfl, fun _ he => by cases he⟩
    | some frame => exact ⟨rfl, rfl, fun _ he => by cases he⟩
  | sending frame => exact ⟨rfl, rfl, fun _ he => by cases he; rfl⟩
  | done => exact ⟨rfl, rfl, fun _ he => by cases he⟩

theorem InputInv.other (hinv : InputInv h events forwarded) {r : Helpers × Option HelperEvent}
    (hsame : r.1.injection = h.injection ∧ r.1.inputs = h.inputs ∧
      ∀ event, r.2 = some event → event.passive = true) :
    InputInv r.1 (events ++ r.2.toList) forwarded := by
  obtain ⟨hinjection, hinputs, hpassive⟩ := hsame
  have hinv' := hinv.congr hinjection hinputs
  cases hr : r.2 with
  | none => simpa using hinv'
  | some event => exact hinv'.passive (hpassive event hr)

theorem InputInv.helperStep (hinv : InputInv h events forwarded) {closed : Bool}
    {r : Helpers × Option HelperEvent} (hstep : HelperStep closed h r) :
    InputInv r.1 (events ++ r.2.toList) forwarded := by
  cases hstep with
  | capture outcome => exact hinv.other (stepCapture_input h outcome)
  | media sent => exact hinv.other (stepMedia_input h closed sent)
  | inject result => exact hinv.inject result

theorem InputInv.not_over (hinv : InputInv h events forwarded) {closed : Bool}
    {r : Helpers × Option HelperEvent} {result : Except String Unit}
    (hstep : HelperStep closed h r) (hevent : r.2 = some (.performed action result)) :
    ¬ Finished events := by
  cases hstep with
  | capture outcome => cases (stepCapture_input h outcome).2.2 _ hevent
  | media sent => cases (stepMedia_input h closed sent).2.2 _ hevent
  | inject result => exact not_over_of_performed hinv hevent

def Entry.eventOf (session : ℕ) : Entry → Option HelperEvent
  | .helper s _ event => if s = session then some event else none
  | _ => none

def Entry.saysEnded : Entry → Bool
  | .host (.emit (.sessionEnded _)) _ => true
  | _ => false

def eventsOf (session : ℕ) (log : List Entry) : List HelperEvent :=
  log.filterMap (Entry.eventOf session)

def forwardedTo (session : ℕ) (log : List Entry) : List InputAction :=
  log.filterMap (Entry.forwardedTo session)

def sessionsBegun (log : List Entry) : ℕ := (log.filterMap Entry.newSession).length

def sessionsEnded (log : List Entry) : ℕ := (log.filter Entry.saysEnded).length

theorem eventsOf_snoc (s : ℕ) (log : List Entry) (x : Entry) :
    eventsOf s (log ++ [x]) = eventsOf s log ++ (x.eventOf s).toList := by
  rw [eventsOf, List.filterMap_append]
  cases hx : x.eventOf s <;> simp [eventsOf, hx]

theorem forwardedTo_snoc (s : ℕ) (log : List Entry) (x : Entry) :
    forwardedTo s (log ++ [x]) = forwardedTo s log ++ (x.forwardedTo s).toList := by
  rw [forwardedTo, List.filterMap_append]
  cases hx : x.forwardedTo s <;> simp [forwardedTo, hx]

theorem sessionsBegun_snoc (log : List Entry) (x : Entry) :
    sessionsBegun (log ++ [x]) = sessionsBegun log + x.newSession.toList.length := by
  rw [sessionsBegun, List.filterMap_append, List.length_append]
  cases hx : x.newSession <;> simp [sessionsBegun, hx]

theorem sessionsEnded_snoc (log : List Entry) (x : Entry) :
    sessionsEnded (log ++ [x]) = sessionsEnded log + bif x.saysEnded then 1 else 0 := by
  rw [sessionsEnded, List.filter_append, List.length_append]
  cases hx : x.saysEnded <;> simp [sessionsEnded, hx]

/-- What the injectors of a host work on: a system, which answers in each call of each session, or
a portal, whose ei thread has handled some events by the time the log has so many entries. The
results in the log stay arbitrary. -/
inductive Desk (D : Type*)
  | enigo (answers : ℕ → ℕ → Answers)
  | portal (handled : ℕ → List (Portal.Event D))

def callsOf (answers : ℕ → Answers) (ops : List Operation) : List (Operation × Answers) :=
  ops.mapIdx fun n op => (op, answers n)

def commandsOf (log : List Entry) (s : ℕ) : List Portal.InputCmd :=
  (PortalInjector.new.performAll (operations (eventsOf s log))).2

variable {D : Type*} [DecidableEq D]

/-- Nothing is down: nothing the session pressed on a system, and nothing at all on the devices
of a portal. -/
def Free (desk : Desk D) (log : List Entry) (s : ℕ) : Prop :=
  match desk with
  | .enigo answers =>
    let seat := (callsOf (answers s) (operations (eventsOf s log))).foldl Seat.step .new
    AllUp (keyStrokes seat.injector.performed) ∧ AllUp (buttonStrokes seat.injector.performed)
  | .portal handled =>
    let client := (handled log.length).foldl Portal.step .new
    AllUp (Portal.keyEvents client.log) ∧ AllUp (Portal.buttonEvents client.log)

/-- The system releases what `release_all` asks it to. Or the ei thread has applied what the
sessions have sent, after commands of others that left nothing down, and there was one keymap and
no device was replaced. -/
def Obliges (desk : Desk D) (log : List Entry) (s : ℕ) : Prop :=
  match desk with
  | .enigo answers => Runs.Meets Seat.step Released .new
    (callsOf (answers s) (operations (eventsOf s log)))
  | .portal handled =>
    (∃ earlier, AllUp (Portal.keyStrokes earlier) ∧ AllUp (Portal.buttonStrokes earlier) ∧
      Portal.inputsOf (handled log.length) =
        earlier ++ (List.range (s + 1)).flatMap (commandsOf log)) ∧
    Runs.Meets Portal.step Portal.Calm .new (handled log.length) ∧
    ((handled log.length).foldl Portal.step .new).pending = []

/-- Whenever the end of a session is announced, its injection thread has finished, and what it
released has been released. -/
def Joined (desk : Desk D) (log : List Entry) : Prop :=
  ∀ before reason heard after, log = before ++ .host (.emit (.sessionEnded reason)) heard :: after →
    Finished (eventsOf (sessionsEnded before) before) ∧
      Obliges desk before (sessionsEnded before)

/-- The input of a session is over when its end is announced, and an injection belongs to
the session that runs. -/
structure InputEnds (desk : Desk D) (log : List Entry) (x : Entry) : Prop where
  drained : ∀ reason heard, x = .host (.emit (.sessionEnded reason)) heard →
    Free desk log (sessionsEnded log) ∧
    (((∃ r, .released r ∈ eventsOf (sessionsEnded log) log) ∧
        performed (eventsOf (sessionsEnded log) log) = forwardedTo (sessionsEnded log) log) ∨
      ((∃ e, .injector (.error e) ∈ eventsOf (sessionsEnded log) log) ∧
        performed (eventsOf (sessionsEnded log) log) = []))
  running : ∀ s c action result, x = .helper s c (.performed action result) →
    sessionsEnded log = s ∧ sessionsBegun log = s + 1

def Phase.number : Phase → Option ℕ
  | .streaming _ s => some s
  | .closed s => some s
  | _ => none

def Counted (log : List Entry) : Option ℕ → Prop
  | some s => sessionsEnded log = s ∧ sessionsBegun log = s + 1
  | none => sessionsEnded log = sessionsBegun log

structure Drained (desk : Desk D) (φ : Phase) (w : World) : Prop where
  begun : w.sessions.length = sessionsBegun w.log
  counted : Counted w.log φ.number
  threads : ∀ s h, w.sessions[s]? = some h → InputInv h (eventsOf s w.log) (forwardedTo s w.log)
  fresh : ∀ s, w.sessions.length ≤ s → eventsOf s w.log = [] ∧ forwardedTo s w.log = []
  past : Joined desk w.log → ∀ s < sessionsEnded w.log, Finished (eventsOf s w.log)

variable {desk : Desk D} {manual : Bool} {φ φ' : Phase} {e : Effect} {a : e.Answer}
  {log : List Entry} {x : Entry} {w w' : World}

theorem Joined.of_append {early late : List Entry} (h : Joined desk (early ++ late)) :
    Joined desk early :=
  fun before reason heard after heq => h before reason heard (after ++ late) (by rw [heq]; simp)

theorem Finished.mono {later : List HelperEvent} (h : Finished events) :
    Finished (events ++ later) := by
  rcases h with ⟨r, hr⟩ | ⟨e, he⟩
  · exact .inl ⟨r, List.mem_append_left _ hr⟩
  · exact .inr ⟨e, List.mem_append_left _ he⟩

theorem saysEnded_of_quiet (h : e.quiet = true) : (Entry.host e a).saysEnded = false := by
  cases e with
  | emit event => cases event <;> first | rfl | cases h
  | _ => rfl

theorem counted_step (h : Counted log φ.number) (hbegun : w.sessions.length = sessionsBegun log)
    (hstep : Step manual φ e a φ') (hsettle : w.settle e a = some w') :
    Counted (log ++ [.host e a]) φ'.number := by
  have hkeep (hnew : (Entry.host e a).newSession = none)
      (hends : (Entry.host e a).saysEnded = false) (hφ : φ'.number = φ.number) :
      Counted (log ++ [.host e a]) φ'.number := by
    rw [hφ]
    cases hn : φ.number with
    | none =>
      rw [hn] at h
      simpa [Counted, sessionsBegun_snoc, sessionsEnded_snoc, hnew, hends] using h
    | some s =>
      rw [hn] at h
      simpa [Counted, sessionsBegun_snoc, sessionsEnded_snoc, hnew, hends] using h
  cases hstep with
  | quiet hq => exact hkeep (newSession_of_quiet hq) (saysEnded_of_quiet hq) rfl
  | right hv => cases manual <;> exact hkeep rfl rfl rfl
  | @draw φ target secret hun =>
    refine hkeep rfl rfl ?_
    cases φ with
    | idle => rfl
    | drawn code => rfl
    | _ => exact hun.elim
  | @spawn c codec id s =>
    have hs : s = w.sessions.length := by
      simp only [World.settle] at hsettle
      split_ifs at hsettle with hs
      exact hs
    have hcount : sessionsEnded log = sessionsBegun log := h
    refine ⟨?_, ?_⟩
    · simp [sessionsEnded_snoc, Entry.saysEnded, hcount, hs, hbegun]
    · simp [sessionsBegun_snoc, Entry.newSession, hs, hbegun]
  | @sayEnded s reason b =>
    obtain ⟨hended, hbegun⟩ := h
    simp [Phase.number, Counted, sessionsEnded_snoc, sessionsBegun_snoc, Entry.saysEnded,
      Entry.newSession, hended, hbegun]
  | _ => exact hkeep rfl rfl rfl

theorem eventsOf_host (s : ℕ) (log : List Entry) (e : Effect) (a : e.Answer) :
    eventsOf s (log ++ [.host e a]) = eventsOf s log := by
  rw [eventsOf_snoc]
  exact List.append_nil _

theorem threads_step (h : Drained desk φ w) (hs : Settled w w' e a) {s : ℕ} {g' : Helpers}
    (hget : w'.sessions[s]? = some g') :
    InputInv g' (eventsOf s (w.log ++ [.host e a])) (forwardedTo s (w.log ++ [.host e a])) := by
  rw [eventsOf_host, forwardedTo_snoc]
  rcases hs.threads s g' hget with ⟨g, hg, hinjection, hinputs, hdone⟩ |
    ⟨rfl, hnone, c, activeId, rfl⟩
  · have hinv := h.threads s g hg
    cases haction : (Entry.host e a).forwardedTo s with
    | none =>
      rw [haction] at hinputs
      simpa using hinv.congr hinjection (by simpa using hinputs)
    | some action =>
      rw [haction] at hinputs hdone
      exact (hinv.forward fun hd => by cases hdone hd).congr hinjection hinputs
  · obtain ⟨hevents, hforwarded⟩ := h.fresh w.sessions.length le_rfl
    rw [hevents, hforwarded, hnone]
    exact inputInv_start c activeId

theorem InputInv.atEnd (hinv : InputInv h events forwarded) (hover : Finished events) :
    ((∃ r, .released r ∈ events) ∧ performed events = forwarded ∨
      (∃ e, .injector (.error e) ∈ events) ∧ performed events = []) ∧
    (operations events = [] ∨ ∃ ops, operations events = ops ++ [.releaseAll]) := by
  rcases hover with ⟨r, hr⟩ | ⟨e, he⟩
  · obtain ⟨-, hperformed, hoperations⟩ := hinv.released r hr
    exact ⟨.inl ⟨⟨r, hr⟩, hperformed⟩, .inr ⟨_, hoperations⟩⟩
  · obtain ⟨-, hperformed, hoperations⟩ := hinv.failed e he
    exact ⟨.inr ⟨⟨e, he⟩, hperformed⟩, .inl hoperations⟩

theorem allUp_of_released {answers : ℕ → Answers} {ops : List Operation}
    (hover : ops = [] ∨ ∃ before, ops = before ++ [.releaseAll])
    (hreleased : Runs.Meets Seat.step Released .new (callsOf answers ops)) :
    AllUp (keyStrokes ((callsOf answers ops).foldl Seat.step .new).injector.performed) ∧
      AllUp (buttonStrokes ((callsOf answers ops).foldl Seat.step .new).injector.performed) := by
  have hsound : Sound ((callsOf answers ops).foldl Seat.step .new) :=
    Runs.invariant_of_meets Sound.new hreleased fun _ _ => Sound.step
  rcases hover with rfl | ⟨before, rfl⟩
  · exact ⟨allUp_nil, allUp_nil⟩
  · apply hsound.cleared
    rw [callsOf, List.mapIdx_concat, Runs.run_snoc]
    rfl

theorem commandsOf_allUp {s : ℕ} (hover : operations (eventsOf s log) = [] ∨
    ∃ ops, operations (eventsOf s log) = ops ++ [.releaseAll]) :
    AllUp (Portal.keyStrokes (commandsOf log s)) ∧
      AllUp (Portal.buttonStrokes (commandsOf log s)) := by
  rw [commandsOf]
  rcases hover with hnone | ⟨ops, hops⟩
  · rw [hnone]
    exact ⟨allUp_nil, allUp_nil⟩
  · rw [hops]
    exact Portal.sent_allUp ops

theorem free_of_obliges {s : ℕ} (hobliges : Obliges desk log s)
    (hover : ∀ t ≤ s, operations (eventsOf t log) = [] ∨
      ∃ ops, operations (eventsOf t log) = ops ++ [.releaseAll]) : Free desk log s := by
  cases desk with
  | enigo answers => exact allUp_of_released (hover s le_rfl) hobliges
  | portal handled =>
    obtain ⟨⟨earlier, hkeys, hbuttons, hinputs⟩, hcalm, hdrained⟩ := hobliges
    have hup (t : ℕ) (ht : t ∈ List.range (s + 1)) :
        AllUp (Portal.keyStrokes (commandsOf log t)) ∧
          AllUp (Portal.buttonStrokes (commandsOf log t)) :=
      commandsOf_allUp (hover t (Nat.lt_succ_iff.mp (List.mem_range.mp ht)))
    apply Portal.devices_allUp hcalm hdrained
    · rw [hinputs, Portal.keyStrokes_append]
      apply hkeys.append
      rw [Portal.keyStrokes, List.filterMap_flatMap]
      exact allUp_flatMap fun t ht => (hup t ht).1
    · rw [hinputs, Portal.buttonStrokes_append]
      apply hbuttons.append
      rw [Portal.buttonStrokes, List.filterMap_flatMap]
      exact allUp_flatMap fun t ht => (hup t ht).2

theorem Joined.last (hj : Joined desk (log ++ [x])) {reason : String} {heard : Bool}
    (hx : x = .host (.emit (.sessionEnded reason)) heard) :
    Finished (eventsOf (sessionsEnded log) log) ∧ Obliges desk log (sessionsEnded log) :=
  hj log reason heard [] (by rw [hx])

theorem Drained.past_snoc (h : Drained desk φ w) (hj : Joined desk (w.log ++ [.host e a])) {s : ℕ}
    (hlt : s < sessionsEnded (w.log ++ [.host e a])) : Finished (eventsOf s w.log) := by
  rw [sessionsEnded_snoc] at hlt
  cases hends : (Entry.host e a).saysEnded with
  | false =>
    rw [hends] at hlt
    exact h.past hj.of_append s (by simpa using hlt)
  | true =>
    rw [hends, cond_true] at hlt
    rcases Nat.lt_succ_iff_lt_or_eq.mp hlt with hlt | rfl
    · exact h.past hj.of_append s hlt
    · cases e with
      | emit event =>
        cases event with
        | sessionEnded reason => exact (hj.last rfl).1
        | _ => cases hends
      | _ => cases hends

/-- The threads of this session and of all before it have done what they were given. -/
theorem Drained.sessionOver {s : ℕ} (h : Drained desk (.closed s) w) (hj : Joined desk w.log)
    (hfinished : Finished (eventsOf s w.log)) (hobliges : Obliges desk w.log s) :
    Free desk w.log s ∧
      (((∃ r, .released r ∈ eventsOf s w.log) ∧
          performed (eventsOf s w.log) = forwardedTo s w.log) ∨
        ((∃ e, .injector (.error e) ∈ eventsOf s w.log) ∧ performed (eventsOf s w.log) = [])) := by
  obtain ⟨hended, hbegun⟩ := h.counted
  have hover (t : ℕ) (ht : t ≤ s) : Finished (eventsOf t w.log) := by
    rcases Nat.lt_or_eq_of_le ht with hlt | rfl
    · exact h.past hj t (hended ▸ hlt)
    · exact hfinished
  have hend (t : ℕ) (ht : t ≤ s) := by
    have hlt : t < w.sessions.length := by
      rw [h.begun, hbegun]
      exact Nat.lt_succ_of_le ht
    exact (h.threads t _ (List.getElem?_eq_getElem hlt)).atEnd (hover t ht)
  exact ⟨free_of_obliges hobliges fun t ht => (hend t ht).2, (hend s le_rfl).1⟩

theorem drained_step (h : Drained desk φ w) (hstep : Step manual φ e a φ')
    (hrespond : w.respond e a = some w') :
    Drained desk φ' w' ∧
      Grows (fun log x => Joined desk (log ++ [x]) → InputEnds desk log x) w.log w'.log := by
  obtain ⟨v, hsettle, hs, rfl⟩ := respond_spec hrespond
  have hlog := hs.record_log
  have hlength : v.sessions.length =
      w.sessions.length + (Entry.host e a).newSession.toList.length := by
    have h := congrArg List.length hs.sessions
    simpa using h
  refine ⟨⟨?_, ?_, fun s g hget => ?_, fun s hs' => ?_, fun hj s hlt => ?_⟩, .inr ⟨_, hlog, ?_⟩⟩
  · rw [hlog, sessionsBegun_snoc, ← h.begun]
    exact hlength
  · rw [hlog]
    exact counted_step h.counted h.begun hstep hsettle
  · rw [hlog]
    exact threads_step h hs hget
  · have hle : w.sessions.length ≤ s := by
      have hv : v.sessions.length ≤ s := hs'
      omega
    obtain ⟨hevents, hforwarded⟩ := h.fresh s hle
    rw [hlog, eventsOf_host, forwardedTo_snoc, hevents, hforwarded, hs.bound s hle]
    exact ⟨rfl, rfl⟩
  · rw [hlog] at hj hlt ⊢
    rw [eventsOf_host]
    exact h.past_snoc hj hlt
  · intro hj
    refine ⟨fun reason heard he => ?_, fun s c action result he => by cases he⟩
    obtain ⟨hfinished, hobliges⟩ := hj.last he
    cases hstep with
    | sayEnded =>
      rw [h.counted.1] at hfinished hobliges ⊢
      exact h.sessionOver hj.of_append hfinished hobliges
    | quiet hq =>
      cases he
      cases hq
    | _ => cases he

theorem saysEnded_of_foreign (h : x.ofHost = false) : x.saysEnded = false := by
  cases x with
  | host e a => cases h
  | _ => rfl

theorem foreign_snoc (h : x.ofHost = false) (log : List Entry) :
    sessionsEnded (log ++ [x]) = sessionsEnded log ∧
      sessionsBegun (log ++ [x]) = sessionsBegun log ∧
      ∀ s, forwardedTo s (log ++ [x]) = forwardedTo s log := by
  refine ⟨?_, ?_, fun s => ?_⟩
  · rw [sessionsEnded_snoc, saysEnded_of_foreign h]
    rfl
  · rw [sessionsBegun_snoc, newSession_of_foreign h]
    rfl
  · rw [forwardedTo_snoc, forwardedTo_of_foreign h]
    exact List.append_nil _

theorem Drained.running (h : Drained desk φ w) {s : ℕ} (hlt : s < w.sessions.length)
    (hnot : ¬ Finished (eventsOf s w.log)) (hjoined : Joined desk w.log) :
    sessionsEnded w.log = s ∧ sessionsBegun w.log = s + 1 := by
  have hge : sessionsEnded w.log ≤ s := by
    by_contra hlt
    exact hnot (h.past hjoined s (not_le.mp hlt))
  have hcounted := h.counted
  rw [h.begun] at hlt
  cases hn : φ.number with
  | none =>
    rw [hn] at hcounted
    have hcount : sessionsEnded w.log = sessionsBegun w.log := hcounted
    omega
  | some n =>
    rw [hn] at hcounted
    obtain ⟨hended, hbegun⟩ := hcounted
    omega

theorem Counted.of_eq {later : List Entry} {n : Option ℕ} (h : Counted log n)
    (hended : sessionsEnded later = sessionsEnded log)
    (hbegun : sessionsBegun later = sessionsBegun log) : Counted later n := by
  cases n with
  | none => exact hended.trans (Eq.trans h hbegun.symm)
  | some s => exact ⟨hended.trans h.1, hbegun.trans h.2⟩

theorem eventsOf_help (log : List Entry) (s : ℕ) (c : Connection) (event : Option HelperEvent)
    (t : ℕ) : eventsOf t (log ++ event.toList.map (.helper s c)) =
      eventsOf t log ++ if s = t then event.toList else [] := by
  cases event with
  | none => simp
  | some event =>
    rw [Option.toList_some, List.map_singleton, eventsOf_snoc, Entry.eventOf]
    split_ifs <;> rfl

theorem foreign_help (log : List Entry) (s : ℕ) (c : Connection) (event : Option HelperEvent) :
    sessionsEnded (log ++ event.toList.map (.helper s c)) = sessionsEnded log ∧
      sessionsBegun (log ++ event.toList.map (.helper s c)) = sessionsBegun log ∧
      ∀ t, forwardedTo t (log ++ event.toList.map (.helper s c)) = forwardedTo t log := by
  cases event with
  | none => simp
  | some event => exact foreign_snoc rfl log

theorem drained_help (h : Drained desk φ w) {s : ℕ} {g g' : Helpers} {event : Option HelperEvent}
    (hget : w.sessions[s]? = some g) (hstep : HelperStep (g.connection ∈ w.closed) g (g', event)) :
    Drained desk φ { w with
      sessions := w.sessions.set s g'
      log := w.log ++ event.toList.map (.helper s g.connection) } := by
  have hlt : s < w.sessions.length := (List.getElem?_eq_some_iff.mp hget).1
  obtain ⟨hended, hbegun, hforwarded⟩ := foreign_help w.log s g.connection event
  refine ⟨?_, h.counted.of_eq hended hbegun, fun t h' hget' => ?_, fun t ht => ?_,
    fun hj t ht => ?_⟩
  · rw [List.length_set, hbegun]
    exact h.begun
  · dsimp only at hget' ⊢
    rw [eventsOf_help, hforwarded]
    rw [List.getElem?_set] at hget'
    by_cases hst : s = t
    · subst hst
      obtain rfl : g' = h' := by simpa [hlt] using hget'
      rw [if_pos rfl]
      exact (h.threads s g hget).helperStep hstep
    · rw [if_neg hst] at hget' ⊢
      rw [List.append_nil]
      exact h.threads t h' hget'
  · dsimp only at ht ⊢
    rw [List.length_set] at ht
    rw [eventsOf_help, hforwarded, if_neg (by omega), List.append_nil]
    exact h.fresh t ht
  · dsimp only at hj ht ⊢
    rw [eventsOf_help]
    exact (h.past hj.of_append t (hended ▸ ht)).mono

theorem drained_drift (h : Drained desk φ w) (d : Drift) :
    Drained desk φ (w.drift d) ∧
      Grows (fun log x => Joined desk (log ++ [x]) → InputEnds desk log x) w.log
        (w.drift d).log := by
  have hd := drift_spec w d
  generalize w.drift d = w' at hd ⊢
  have hrecord {x : Entry} {v : World} (hv : v.log = w.log ++ [x]) (hsame : v.sessions = w.sessions)
      (hforeign : x.ofHost = false) (hnone : ∀ s, x.eventOf s = none) :
      Drained desk φ v ∧
        Grows (fun log x => Joined desk (log ++ [x]) → InputEnds desk log x) w.log v.log := by
    obtain ⟨hended, hbegun, hforwarded⟩ := foreign_snoc hforeign w.log
    have hevents (s : ℕ) : eventsOf s (w.log ++ [x]) = eventsOf s w.log := by
      rw [eventsOf_snoc, hnone]
      exact List.append_nil _
    refine ⟨⟨?_, ?_, fun s g hget => ?_, fun s hs => ?_, fun hj s hlt => ?_⟩,
      .inr ⟨x, hv, fun _ => ⟨?_, ?_⟩⟩⟩
    · rw [hv, hbegun, hsame]
      exact h.begun
    · rw [hv]
      exact h.counted.of_eq hended hbegun
    · rw [hv, hevents, hforwarded]
      exact h.threads s g (hsame ▸ hget)
    · rw [hv, hevents, hforwarded]
      exact h.fresh s (hsame ▸ hs)
    · rw [hv] at hj hlt
      rw [hv, hevents]
      exact h.past hj.of_append s (hended ▸ hlt)
    · rintro reason heard rfl
      cases hforeign
    · rintro s c action result rfl
      have hcontra := hnone s
      simp [Entry.eventOf] at hcontra
  cases hd with
  | still => exact ⟨h, .inl rfl⟩
  | issue command _ => exact hrecord rfl rfl rfl fun _ => rfl
  | dropSenders _ => exact hrecord rfl rfl rfl fun _ => rfl
  | dropReceiver _ => exact hrecord rfl rfl rfl fun _ => rfl
  | refresh task => exact hrecord rfl rfl rfl fun _ => rfl
  | help s g g' event hget hstep =>
    refine ⟨drained_help h hget hstep, ?_⟩
    cases event with
    | none => exact .inl (List.append_nil _)
    | some event =>
      refine .inr ⟨_, rfl, fun hj => ⟨fun reason heard hx => (by cases hx), ?_⟩⟩
      rintro t c action result hx
      cases hx
      have hnot := (h.threads s g hget).not_over hstep rfl
      exact h.running (List.getElem?_eq_some_iff.mp hget).1 hnot hj.of_append

theorem machine_drained (desk : Desk D) : machine.Keeps (Step manual) World.log (Drained desk)
    (fun log x => Joined desk (log ++ [x]) → InputEnds desk log x) :=
  ⟨drained_step, fun d h => drained_drift h d⟩

theorem drained_start (desk : Desk D) : Drained desk .idle .start where
  begun := rfl
  counted := rfl
  threads := fun _ _ h => by cases h
  fresh := fun _ _ => ⟨rfl, rfl⟩
  past := fun _ _ h => by cases h

/-- If the teardown meets an injection thread that has finished, and what it released has been
released, the end of a session is the end of its input, in every run. -/
theorem session_end_ends_input (desk : Desk D) (h264 : Bool) (config : HostConfig) (port : UInt16)
    (ticks : List HostTick) (hjoined : Joined desk (runHost h264 config port ticks).log) :
    ∀ before x after, (runHost h264 config port ticks).log = before ++ x :: after →
      InputEnds desk before x := by
  have hlawful := lawful_runHost (machine_drained desk) (drained_start desk) h264 config port ticks
    rfl
  intro before x after heq
  have hlog : Joined desk ((before ++ [x]) ++ after) := by
    rw [List.append_assoc]
    exact heq ▸ hjoined
  exact hlawful before x after heq hlog.of_append

theorem joined_of_last {reason : String} {heard : Bool}
    (hquiet : log.all (!·.saysEnded) = true)
    (hend : Finished (eventsOf (sessionsEnded log) log) ∧ Obliges desk log (sessionsEnded log)) :
    Joined desk (log ++ [.host (.emit (.sessionEnded reason)) heard]) := by
  intro before reason' heard' after heq
  have hsplit : log ++ [.host (.emit (.sessionEnded reason)) heard] =
      (before ++ [.host (.emit (.sessionEnded reason')) heard']) ++ after := by
    rw [heq, List.append_assoc]
    rfl
  rcases snoc_eq_append hsplit with ⟨hbefore, rfl⟩ | ⟨rest, rfl, hlog⟩
  · obtain ⟨rfl, -⟩ := List.append_inj' hbefore rfl
    exact hend
  · have hcontra := List.all_eq_true.mp hquiet (.host (.emit (.sessionEnded reason')) heard')
      (by simp [hlog])
    cases hcontra

def visit (n : ℕ) : List HostTick :=
  (sampleViewer n sampleHello).ticks 6 ++ (sampleViewer n sampleRequest).ticks 13

def click (n : ℕ) : List HostTick :=
  { sampleViewer n sampleRequest with
    selected := .message (some (.mouseButton .left .press)) }.ticks 3

def inject (n k : ℕ) : List HostTick := List.replicate k (.drift (.inject n (.ok ())))

def leave (n : ℕ) (helped : List HostTick) : List HostTick :=
  (sampleViewer n sampleRequest).ticks 5 ++ helped ++
    [.drift (.capture n (.ok none)), .drift (.media n true)] ++
    (sampleViewer n sampleRequest).ticks 3

def promptRelease : List HostTick := visit 0 ++ click 0 ++ leave 0 (inject 0 3)

def promptLog : List Entry := (runHost false (sampleConfig false) 0 promptRelease).log

def willing : Desk ℕ := .enigo fun _ _ _ => .ok ()

/-- The pointer of the portal is paused when the release arrives. -/
def paused : Desk ℕ := .portal fun _ =>
  [.connection, .seatDevice 0, .interface 0 "ei_button" 7, .done 0, .resumed 0 1,
    .input (.button 0x110 true), .paused 0 2, .input (.button 0x110 false), .resumed 0 3]

set_option maxRecDepth 4000 in
theorem promptLog_split : promptLog =
    promptLog.take 29 ++ [.host (.emit (.sessionEnded "connection lost")) true] := rfl

set_option maxRecDepth 4000 in
theorem promptLog_operations : operations (eventsOf 0 (promptLog.take 29)) =
    [.mouseButton .left .press, .releaseAll] := rfl

theorem promptLog_commands : (List.range 1).flatMap (commandsOf (promptLog.take 29)) =
    [.button 0x110 true, .button 0x110 false] := by
  simp only [List.range_one, List.flatMap_singleton, commandsOf, promptLog_operations]
  rfl

set_option maxRecDepth 4000 in
theorem promptLog_joined {desk : Desk ℕ} (hobliges : Obliges desk (promptLog.take 29) 0) :
    Joined desk promptLog := by
  have hreleased : HelperEvent.released (.ok ()) ∈ eventsOf 0 (promptLog.take 29) :=
    List.mem_of_getElem? (i := 2) rfl
  rw [promptLog_split]
  exact joined_of_last rfl ⟨.inl ⟨_, hreleased⟩, hobliges⟩

set_option maxRecDepth 4000 in
theorem session_end_ends_input_prompt :
    performed (eventsOf 0 (promptLog.take 29)) = [.button .left .press] ∧
      Free willing (promptLog.take 29) 0 ∧ Free paused (promptLog.take 29) 0 := by
  have hwilling : Obliges willing (promptLog.take 29) 0 := by
    rw [willing, Obliges, promptLog_operations]
    exact ⟨trivial, ⟨fun _ _ => rfl, fun _ _ => rfl⟩, trivial⟩
  have hpaused : Obliges paused (promptLog.take 29) 0 := by
    refine ⟨⟨[], allUp_nil, allUp_nil, ?_⟩, by decide, by decide⟩
    exact promptLog_commands.symm
  have hends (desk : Desk ℕ) (hobliges : Obliges desk (promptLog.take 29) 0) :=
    session_end_ends_input desk false (sampleConfig false) 0 promptRelease
      (promptLog_joined hobliges) (promptLog.take 29) _ [] promptLog_split
  exact ⟨rfl, ((hends willing hwilling).drained _ _ rfl).1,
    ((hends paused hpaused).drained _ _ rfl).1⟩

/-- The injection thread only gets to run in the next session. -/
def lateClick : List HostTick := visit 0 ++ click 0 ++ leave 0 [] ++ visit 1 ++ inject 0 2

set_option maxRecDepth 4000 in
theorem late_click_lands_in_next_session :
    ¬ ∀ (desk : Desk ℕ) (h264 : Bool) (config : HostConfig) (port : UInt16) (ticks : List HostTick)
      (before : List Entry) (x : Entry) (after : List Entry),
      (runHost h264 config port ticks).log = before ++ x :: after → InputEnds desk before x := by
  intro h
  have hlast : (runHost false (sampleConfig false) 0 lateClick).log =
      (runHost false (sampleConfig false) 0 lateClick).log.take 46 ++
        [.helper 0 ⟨0, .quinn (.v4 1) "10.0.0.1:5000" none⟩
          (.performed (.button .left .press) (.ok ()))] := rfl
  have hrunning :=
    (h willing false (sampleConfig false) 0 lateClick _ _ [] hlast).running _ _ _ _ rfl
  have hbegun : sessionsBegun ((runHost false (sampleConfig false) 0 lateClick).log.take 46) = 2 :=
    rfl
  rw [hbegun] at hrunning
  cases hrunning.2

end Controlis.Host
