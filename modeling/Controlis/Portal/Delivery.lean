import Controlis.Foundation.Shuffle
import Controlis.Portal.Drop
import Controlis.Session.EndToEnd

/-!
# From one desk to the other's compositor

On a Wayland host the injection thread of a session takes one action after the
other and turns it into calls of a portal injector, each of which sends one
command to the ei thread at most. The thread, the portal and all that `Joint`
has take their steps at any time, and so do the injectors of other sessions on
the same portal. `own` and `others` record whose commands the channel accepted.
-/

namespace Controlis.Portal.Lifetime
open Runs

variable {D : Type*} [DecidableEq D] {s : State D} {e : Eis D} {accepted : List InputCmd}

theorem eis_leads (h : Placed s) (event : Event D) (hthread : s.eis.thread ≠ .off) :
    Leads s.eis.thread (step s event).eis.thread := by
  cases hinjects : event.injects with
  | false =>
    rw [(eis_frame s hinjects).1]
    exact .refl _
  | true =>
    cases event with
    | spawnEis refused =>
      rcases spawnEis_cases s refused with ⟨heis, -⟩ | ⟨init, hhandle, -⟩
      · rw [step, heis]
        exact .refl _
      · rw [Placed, hhandle] at h
        exact absurd h.2.2 hthread
    | captureJoined =>
      simp only [step, State.captureJoined]
      split_ifs
      · simpa using .refl _
      · exact .refl _
    | eisSetup failed => exact s.eis.setup_leads failed
    | server event => simpa [step] using .refl _
    | connectionLost => simpa [step] using .refl _
    | dispatchFails message => exact s.eis.dispatchFails_leads
    | eisReads => simpa [step] using .refl _
    | eisEnds => exact s.eis.ends_leads
    | send cmd =>
      simp only [step, State.send]
      split_ifs
      · simpa using .refl _
      · exact .refl _
    | _ => cases hinjects

def accepts (s : State D) : Event D → List InputCmd
  | .send cmd => if s.eis.alive then [cmd] else []
  | _ => []

theorem accepted_step (s : State D) (event : Event D) :
    (step s event).accepted = s.accepted ++ accepts s event := by
  cases hinjects : event.injects with
  | false =>
    rw [(eis_frame s hinjects).2]
    cases event with
    | send cmd => cases hinjects
    | _ => exact (List.append_nil _).symm
  | true =>
    cases event with
    | spawnEis refused =>
      rcases spawnEis_cases s refused with ⟨-, haccepted⟩ | ⟨init, -, hspawned⟩
      · rw [step, haccepted]
        exact (List.append_nil _).symm
      · rw [step, hspawned]
        exact (List.append_nil _).symm
    | captureJoined =>
      simp only [step, State.captureJoined]
      split_ifs <;> exact (List.append_nil _).symm
    | send cmd =>
      simp only [step, State.send, accepts]
      split_ifs
      · rfl
      · exact (List.append_nil _).symm
    | eisSetup | server | connectionLost | dispatchFails | eisReads | eisEnds =>
      exact (List.append_nil _).symm
    | _ => cases hinjects

/-- The thread has taken some first commands of the channel, and has applied some first ones of
each class of them. -/
structure Eis.Relays (e : Eis D) (accepted : List InputCmd) : Prop where
  queued : e.thread ≠ .ended → Queued e.client
  applied : ∀ keyboard, ofClass keyboard e.client.applied <+: ofClass keyboard e.client.submitted
  submitted : e.client.submitted <+: accepted

omit [DecidableEq D] in
theorem relays_of_queued (hqueued : Queued e.client)
    (hsubmitted : e.client.submitted <+: accepted) : e.Relays accepted :=
  ⟨fun _ => hqueued, fun keyboard => ⟨_, hqueued.fifo keyboard⟩, hsubmitted⟩

omit [DecidableEq D] in
theorem Eis.Relays.grow (h : e.Relays accepted) (more : List InputCmd) :
    e.Relays (accepted ++ more) :=
  ⟨h.queued, h.applied, h.submitted.trans (List.prefix_append ..)⟩

omit [DecidableEq D] in
theorem Eis.Relays.client (h : e.Relays accepted) {t : Eis D}
    (hthread : e.thread = .ended → t.thread = .ended) (hclient : t.client = e.client) :
    t.Relays accepted := by
  refine ⟨fun ht => ?_, ?_, ?_⟩
  · rw [hclient]
    exact h.queued fun hended => ht (hthread hended)
  · rw [hclient]
    exact h.applied
  · rw [hclient]
    exact h.submitted

theorem Eis.Relays.finish (h : e.Relays accepted) : e.finish.Relays accepted :=
  ⟨fun hended => absurd rfl hended, h.applied, h.submitted⟩

theorem Eis.Relays.server (h : e.Relays accepted) (event : ServerEvent D) :
    (e.server event).Relays accepted := by
  unfold Eis.server
  split_ifs with hlooping
  · refine relays_of_queued ((h.queued (by simp [hlooping.1])).step event.1) ?_
    dsimp only
    rw [submitted_server]
    exact h.submitted
  · exact h

theorem Eis.Relays.reads (h : e.Relays accepted) (hsound : e.Sound accepted) :
    e.reads.Relays accepted := by
  unfold Eis.reads
  split_ifs with hlooping
  · split
    · exact h
    · rename_i cmd rest hmessages
      have htaken := hsound.taken (by simp [hlooping])
      refine relays_of_queued ((h.queued (by simp [hlooping])).step (.input cmd)) ?_
      dsimp only
      rw [submitted_input, ← htaken, hmessages]
      exact ⟨inputs rest, List.append_assoc ..⟩
    · exact h.client id rfl
  · exact h

omit [DecidableEq D] in
@[simp] theorem Eis.post_client (e : Eis D) (msg : Msg) : (e.post msg).client = e.client := by
  unfold Eis.post
  split_ifs <;> rfl

theorem Eis.Relays.step (h : s.eis.Relays s.accepted) (hplaced : Placed s)
    (hsound : s.eis.Sound s.accepted) (event : Event D) :
    (Lifetime.step s event).eis.Relays (Lifetime.step s event).accepted := by
  rw [accepted_step]
  cases hinjects : event.injects with
  | false =>
    rw [(eis_frame s hinjects).1]
    exact h.grow _
  | true =>
    cases event with
    | spawnEis refused =>
      rcases spawnEis_cases s refused with ⟨heis, -⟩ | ⟨init, hhandle, hspawned⟩
      · rw [Lifetime.step, heis]
        exact h.grow _
      · rw [Placed, hhandle] at hplaced
        rw [Lifetime.step, hspawned]
        exact (h.grow _).client (by simp [hplaced.2.2]) rfl
    | captureJoined =>
      simp only [Lifetime.step, State.captureJoined]
      split_ifs
      · exact (h.grow _).client (by simp) (by simp)
      · exact h.grow _
    | eisSetup failed =>
      refine (h.grow _).client (s.eis.setup_leads failed).2 ?_
      simp only [Lifetime.step, Eis.setup]
      split_ifs <;> rfl
    | server event => exact (h.server event).grow _
    | connectionLost =>
      refine (h.grow _).client (by simp [Lifetime.step]) ?_
      simp only [Lifetime.step, Eis.connectionLost]
      split_ifs <;> rfl
    | dispatchFails message =>
      simp only [Lifetime.step, Eis.dispatchFails]
      split_ifs
      · exact h.finish.grow _
      · exact h.grow _
    | eisReads => exact (h.reads hsound).grow _
    | eisEnds =>
      simp only [Lifetime.step, Eis.ends]
      split_ifs
      · exact h.finish.grow _
      · exact h.grow _
    | send cmd =>
      simp only [Lifetime.step, State.send]
      split_ifs
      · exact (h.grow _).client (by simp) (by simp)
      · exact h.grow _
    | _ => cases hinjects

omit [DecidableEq D] in
theorem relays_start (format : VideoInfo) :
    (start format : State D).eis.Relays (start format : State D).accepted :=
  relays_of_queued queued_new List.prefix_rfl

end Controlis.Portal.Lifetime

namespace Controlis.Portal.Delivery
open Protocol Session Input Runs Strokes
open EndToEnd (Joint)

def calls : Operation → List Operation
  | .text text => text.toList.flatMap fun c =>
    [.key (.unicode c) .press, .key (.unicode c) .release]
  | op => [op]

/-- `calls`: what is left of the action in hand. `releases`: what `release_all` has still to
send. -/
structure State (D : Type*) where
  joint : Joint
  injector : PortalInjector
  calls : List Operation
  releases : List InputCmd
  portal : Lifetime.State D
  own : List InputCmd
  others : List InputCmd

def start {D : Type*} (portal : Lifetime.State D) (monitor : MonitorInfo) : State D :=
  ⟨.start monitor, .new, [], [], portal, [], portal.accepted⟩

inductive Event (D : Type*)
  | joint (e : EndToEnd.Event)
  | take
  | call
  | release
  | portal (e : Lifetime.Event D)

namespace State

variable {D : Type*} (s : State D)

def send (cmd : InputCmd) : State D :=
  if s.portal.eis.alive then { s with portal := s.portal.send cmd, own := s.own ++ [cmd] } else s

def fail (message : String) : State D :=
  { s with
    calls := []
    joint := { s.joint with desk := s.joint.desk.record [.inputError s!"input error: {message}"] } }

def take (postcard : Postcard) (monitors : List MonitorInfo) (k : ℕ) : State D :=
  if s.calls = [] ∧ s.joint.desk.injecting then
    let joint := s.joint.step postcard monitors k (.inject (.ok ()))
    match s.joint.desk.queue with
    | a :: _ => { s with joint := joint, calls := Delivery.calls (applyInput a) }
    | [] =>
      if s.joint.desk.senderOpen then s
      else
        let (injector, releases) := s.injector.releaseAll
        { s with joint := joint, injector := injector, releases := releases }
  else s

def call : State D :=
  match s.calls with
  | [] => s
  | op :: rest =>
    let (injector, cmds) := s.injector.perform op
    let s := { s with injector := injector, calls := rest }
    match cmds with
    | [] => s
    | cmd :: _ =>
      if s.portal.eis.alive then s.send cmd
      else s.fail "failed to inject event: portal input channel closed"

def release : State D :=
  match s.releases with
  | [] => s
  | cmd :: rest => { s with releases := rest }.send cmd

end State

def step {D : Type*} [DecidableEq D] (postcard : Postcard) (monitors : List MonitorInfo) (k : ℕ)
    (s : State D) : Event D → State D
  | .joint (.inject _) => s
  | .joint e => { s with joint := s.joint.step postcard monitors k e }
  | .take => s.take postcard monitors k
  | .call => s.call
  | .release => s.release
  | .portal e =>
    { s with portal := Lifetime.step s.portal e, others := s.others ++ Lifetime.accepts s.portal e }

def operation : Performed → Operation
  | .action a => applyInput a
  | .releaseAll => .releaseAll

def sends (trace : List Observation) : PortalInjector × List InputCmd :=
  PortalInjector.new.performAll ((performed trace).map operation)

def commands (trace : List Observation) : List InputCmd := (sends trace).2

def State.Arrived {D : Type*} (s : State D) : Prop :=
  s.calls = [] ∧ s.releases = [] ∧ s.portal.eis.thread = .looping ∧
    s.portal.eis.messages = [] ∧ s.portal.eis.client.state.pending = []

def single : Operation → Bool
  | .text _ | .releaseAll => false
  | _ => true

theorem single_calls {op : Operation} (h : op ≠ .releaseAll) :
    ∀ op' ∈ calls op, single op' = true := by
  intro op' hop'
  cases op with
  | text text =>
    obtain ⟨c, -, hc⟩ := List.mem_flatMap.mp hop'
    rcases List.mem_pair.mp hc with rfl | rfl <;> rfl
  | releaseAll => exact absurd rfl h
  | _ =>
    obtain rfl := List.mem_singleton.mp hop'
    rfl

theorem perform_single (p : PortalInjector) {op : Operation} (h : single op = true) :
    (p.perform op).2 = [] ∨ ∃ cmd, (p.perform op).2 = [cmd] := by
  cases op with
  | movePointer x y => exact .inr ⟨_, rfl⟩
  | mouseWheel deltaX deltaY => exact .inr ⟨_, rfl⟩
  | mouseButton button action => cases action <;> exact .inr ⟨_, rfl⟩
  | key key action =>
    rw [PortalInjector.perform, PortalInjector.key]
    cases toKeysym key with
    | none => exact .inl rfl
    | some keysym => cases action <;> exact .inr ⟨_, rfl⟩
  | text text => cases h
  | releaseAll => cases h

theorem performAll_calls (p : PortalInjector) (op : Operation) :
    p.performAll (calls op) = p.perform op := by
  have htext (text : List Char) (p : PortalInjector) :
      p.performAll (text.flatMap fun c =>
        [.key (.unicode c) .press, .key (.unicode c) .release]) = p.text text := by
    induction text generalizing p with
    | nil => rfl
    | cons c cs ih =>
      simp only [List.flatMap_cons, List.cons_append, List.nil_append, PortalInjector.performAll,
        PortalInjector.perform, ih, PortalInjector.text, List.append_assoc]
  cases op with
  | text text => exact htext text.toList p
  | _ => simp [calls, PortalInjector.performAll]

theorem sends_snoc (trace : List Observation) (p : Performed) :
    sends (trace ++ [.performed p]) =
      (((sends trace).1.perform (operation p)).1,
        commands trace ++ ((sends trace).1.perform (operation p)).2) := by
  rw [sends, performed_append, performed_performed, List.map_append, performAll_append]
  simp [PortalInjector.performAll, commands, sends]

structure Waits (d d' : Desk) : Prop where
  performed : performed d'.trace = performed d.trace
  injecting : d'.injecting = d.injecting

section Waits
variable {postcard : Postcard} {monitors : List MonitorInfo} {d d' : Desk}

theorem Waits.record (h : Waits d d') {os : List Observation} (hos : Session.performed os = []) :
    Waits d (d'.record os) :=
  ⟨by rw [Desk.record, performed_append, hos, List.append_nil, h.performed], h.injecting⟩

theorem Waits.apply (h : Waits d d') (arm : Arm) : Waits d (d'.apply arm) := by
  cases arm with
  | exit reason => exact ⟨h.performed, h.injecting⟩
  | next active input reply =>
    refine ⟨?_, h.injecting⟩
    rw [Desk.apply, performed_append, h.performed]
    cases reply <;> exact List.append_nil _

theorem Waits.settle (h : Waits d d') (p : FrameDecoder × Polled) :
    Waits d (d'.settle monitors p) := by
  obtain ⟨decoder, polled⟩ := p
  have hdecoder : Waits d { d' with decoder := decoder } := ⟨h.performed, h.injecting⟩
  cases polled with
  | pending => exact h
  | message m => exact (hdecoder.record rfl).apply _
  | err => exact hdecoder.apply (messageArm monitors d'.active none)

theorem Waits.recv (h : Waits d d') (r : ReadResult) :
    Waits d (d'.recv postcard monitors r) := by
  unfold Desk.recv
  split_ifs
  · exact h.settle _
  · cases r with
    | bytes chunk =>
      have hread : Waits d { d' with decoder := d'.decoder.extend chunk } :=
        ⟨h.performed, h.injecting⟩
      exact (hread.record rfl).settle _
    | finished => exact h.apply _
    | failed => exact h.apply _

variable (postcard monitors) in
theorem waits_tick {t : Tick} (ht : ∀ result, t ≠ .inject result) :
    Waits d (d.tick postcard monitors t) := by
  have hsame : Waits d d := ⟨rfl, rfl⟩
  cases t with
  | command c =>
    simp only [Desk.tick]
    split_ifs
    · exact hsame
    · exact (hsame.record rfl).apply _
  | recv r =>
    simp only [Desk.tick]
    split_ifs
    · exact hsame
    · exact hsame.recv r
  | teardown =>
    simp only [Desk.tick]
    split_ifs <;> exact ⟨rfl, rfl⟩
  | inject result => exact absurd rfl (ht result)

theorem waits_step {k : ℕ} {j : Joint} {e : EndToEnd.Event} (he : ∀ result, e ≠ .inject result) :
    Waits j.desk (j.step postcard monitors k e).desk := by
  cases e with
  | app e =>
    rw [Joint.step]
    split_ifs <;> exact ⟨rfl, rfl⟩
  | send broken => exact ⟨rfl, rfl⟩
  | command c => exact waits_tick postcard monitors (t := .command c) fun _ h => by cases h
  | read n => exact waits_tick postcard monitors (t := .recv (.bytes _)) fun _ h => by cases h
  | finished => exact waits_tick postcard monitors (t := .recv .finished) fun _ h => by cases h
  | failed => exact waits_tick postcard monitors (t := .recv .failed) fun _ h => by cases h
  | teardown => exact waits_tick postcard monitors (t := .teardown) fun _ h => by cases h
  | inject result => exact absurd rfl (he result)

end Waits

structure Connected {D : Type*} [DecidableEq D] (s : Lifetime.State D) : Prop where
  placed : Lifetime.Placed s
  sound : s.eis.Sound s.accepted
  relays : s.eis.Relays s.accepted
  spawned : s.eis.thread ≠ .off

section Connected
variable {D : Type*} [DecidableEq D] {portal : Lifetime.State D}

theorem Connected.step (h : Connected portal) (e : Lifetime.Event D) :
    Connected (Lifetime.step portal e) where
  placed := h.placed.step e
  sound := h.placed.sound_step h.sound e
  relays := h.relays.step h.placed h.sound e
  spawned hoff := h.spawned ((Lifetime.eis_leads h.placed e h.spawned).1.mpr hoff)

theorem connected_of_live (format : VideoInfo) (es : List (Lifetime.Event D))
    {init : Lifetime.PortalInit} {others : ℕ}
    (hlive : (es.foldl Lifetime.step (Lifetime.start format)).handle = .live init others) :
    Connected (es.foldl Lifetime.step (Lifetime.start format)) := by
  let s := es.foldl Lifetime.step (Lifetime.start format)
  obtain ⟨hplaced, hsound, hrelays⟩ :
      Lifetime.Placed s ∧ s.eis.Sound s.accepted ∧ s.eis.Relays s.accepted := invariant
    (I := fun s : Lifetime.State D =>
      Lifetime.Placed s ∧ s.eis.Sound s.accepted ∧ s.eis.Relays s.accepted)
    ⟨Lifetime.placed_start format, Lifetime.sound_start format, Lifetime.relays_start format⟩
    fun s e h => ⟨h.1.step e, h.1.sound_step h.2.1 e, h.2.2.step h.1 h.2.1 e⟩
  have hthreads := hplaced
  rw [Lifetime.Placed, hlive] at hthreads
  exact ⟨hplaced, hsound, hrelays, hthreads.2.2⟩

theorem Connected.ended (h : Connected portal) (halive : portal.eis.alive = false) :
    portal.eis.thread = .ended := by
  cases hthread : portal.eis.thread with
  | off => exact absurd hthread h.spawned
  | ended => rfl
  | starting => simp [Lifetime.Eis.alive, hthread] at halive
  | looping => simp [Lifetime.Eis.alive, hthread] at halive

end Connected

/-- What was sent is a first part of what the operations send, and while the ei thread is there only
what is left of the operation in hand is missing. -/
structure InStep {D : Type*} (s : State D) : Prop where
  single : ∀ op ∈ s.calls, single op = true
  injecting : s.joint.desk.injecting = true → s.releases = []
  finished : s.joint.desk.injecting = false → s.calls = []
  part : s.own <+: commands s.joint.desk.trace
  rest : s.portal.eis.thread ≠ .ended → sends s.joint.desk.trace =
    ((s.injector.performAll s.calls).1, s.own ++ (s.injector.performAll s.calls).2 ++ s.releases)

structure Relayed {D : Type*} [DecidableEq D] (postcard : Postcard) (monitors : List MonitorInfo)
    (initial : MonitorInfo) (k : ℕ) (s : State D) : Prop where
  carried : EndToEnd.Carried postcard k s.joint
  consistent : Consistent postcard monitors initial s.joint.desk
  connected : Connected s.portal
  shuffle : Shuffle s.own s.others s.portal.accepted
  inStep : InStep s

variable {D : Type*} [DecidableEq D] {postcard : Postcard} {monitors : List MonitorInfo}
variable {initial : MonitorInfo} {k : ℕ} {s : State D}

theorem sends_congr {trace trace' : List Observation} (h : performed trace' = performed trace) :
    sends trace' = sends trace := by
  rw [sends, sends, h]

omit [DecidableEq D] in
theorem InStep.waits (h : InStep s) {j : Joint} (hwaits : Waits s.joint.desk j.desk) :
    InStep { s with joint := j } where
  single := h.single
  injecting hinjecting := h.injecting (hwaits.injecting.symm.trans hinjecting)
  finished hinjecting := h.finished (hwaits.injecting.symm.trans hinjecting)
  part := by
    rw [commands, sends_congr hwaits.performed]
    exact h.part
  rest hthread := by
    rw [sends_congr hwaits.performed]
    exact h.rest hthread

theorem Relayed.joint (h : Relayed postcard monitors initial k s) {e : EndToEnd.Event}
    (he : ∀ result, e ≠ .inject result) :
    Relayed postcard monitors initial k { s with joint := s.joint.step postcard monitors k e } where
  carried := h.carried.step e
  consistent := EndToEnd.consistent_step h.consistent e
  connected := h.connected
  shuffle := h.shuffle
  inStep := h.inStep.waits (waits_step he)

theorem inject_action (postcard : Postcard) (monitors : List MonitorInfo) (k : ℕ) {j : Joint}
    {a : InputAction} {queue : List InputAction} (hinjecting : j.desk.injecting = true)
    (hqueue : j.desk.queue = a :: queue) :
    (j.step postcard monitors k (.inject (.ok ()))).desk.trace =
        j.desk.trace ++ [.performed (.action a)] ∧
      (j.step postcard monitors k (.inject (.ok ()))).desk.injecting = true := by
  simp [Joint.step, Joint.host, Desk.tick, Desk.inject, Desk.record, hinjecting, hqueue]

theorem inject_release (postcard : Postcard) (monitors : List MonitorInfo) (k : ℕ) {j : Joint}
    (hinjecting : j.desk.injecting = true) (hqueue : j.desk.queue = [])
    (hclosed : j.desk.senderOpen = false) :
    (j.step postcard monitors k (.inject (.ok ()))).desk.trace =
        j.desk.trace ++ [.performed .releaseAll] ∧
      (j.step postcard monitors k (.inject (.ok ()))).desk.injecting = false := by
  simp [Joint.step, Joint.host, Desk.tick, Desk.inject, Desk.record, hinjecting, hqueue, hclosed]

omit [DecidableEq D] in
theorem InStep.next (h : InStep s) (hcalls : s.calls = [])
    (hinjecting : s.joint.desk.injecting = true) {j : Joint} {p : Performed}
    (htrace : j.desk.trace = s.joint.desk.trace ++ [.performed p]) :
    s.own <+: commands j.desk.trace ∧
      (s.portal.eis.thread ≠ .ended → sends j.desk.trace =
        ((s.injector.perform (operation p)).1, s.own ++ (s.injector.perform (operation p)).2)) := by
  have hsends := sends_snoc s.joint.desk.trace p
  rw [htrace]
  constructor
  · rw [commands, hsends]
    exact h.part.trans (List.prefix_append ..)
  · intro hthread
    have hrest := h.rest hthread
    rw [hcalls, h.injecting hinjecting, PortalInjector.performAll, List.append_nil,
      List.append_nil] at hrest
    rw [hsends, commands, hrest]

theorem Relayed.take (h : Relayed postcard monitors initial k s) :
    Relayed postcard monitors initial k (s.take postcard monitors k) := by
  by_cases htake : s.calls = [] ∧ s.joint.desk.injecting = true
  · rw [State.take, if_pos htake]
    obtain ⟨hcalls, hinjecting⟩ := htake
    have hcarried :
        EndToEnd.Carried postcard k (s.joint.step postcard monitors k (.inject (.ok ()))) :=
      h.carried.step _
    have hconsistent := EndToEnd.consistent_step (k := k) h.consistent (.inject (.ok ()))
    cases hqueue : s.joint.desk.queue with
    | cons a queue =>
      obtain ⟨htrace, hstill⟩ := inject_action postcard monitors k hinjecting hqueue
      obtain ⟨hpart, hrest⟩ := h.inStep.next hcalls hinjecting htrace
      refine ⟨hcarried, hconsistent, h.connected, h.shuffle, ?_, ?_, ?_, hpart, ?_⟩
      · refine single_calls ?_
        cases a <;> simp [applyInput]
      · exact fun _ => h.inStep.injecting hinjecting
      · intro hno
        cases hstill.symm.trans hno
      · intro hthread
        dsimp only
        rw [performAll_calls, h.inStep.injecting hinjecting, List.append_nil]
        exact hrest hthread
    | nil =>
      dsimp only
      split_ifs with hopen
      · exact h
      · obtain ⟨htrace, hdone⟩ := inject_release postcard monitors k hinjecting hqueue
          (by simpa using hopen)
        obtain ⟨hpart, hrest⟩ := h.inStep.next hcalls hinjecting htrace
        refine ⟨hcarried, hconsistent, h.connected, h.shuffle, h.inStep.single, ?_, ?_, hpart, ?_⟩
        · intro hstill
          cases hdone.symm.trans hstill
        · exact fun _ => hcalls
        · intro hthread
          dsimp only
          rw [hrest hthread, hcalls, PortalInjector.performAll, List.append_nil]
          rfl
  · rwa [State.take, if_neg htake]

omit [DecidableEq D] in
theorem alive_thread {portal : Lifetime.State D} (halive : portal.eis.alive = true) :
    portal.eis.thread ≠ .ended := by
  intro hended
  simp [Lifetime.Eis.alive, hended] at halive

theorem Relayed.send (h : Relayed postcard monitors initial k s)
    (halive : s.portal.eis.alive = true) {cmd : InputCmd} {injector : PortalInjector}
    {ops : List Operation} {releases : List InputCmd} (hops : ∀ op ∈ ops, single op = true)
    (hinjecting : s.joint.desk.injecting = true → releases = [])
    (hfinished : s.joint.desk.injecting = false → ops = [])
    (hrest : sends s.joint.desk.trace = ((injector.performAll ops).1,
      s.own ++ cmd :: ((injector.performAll ops).2 ++ releases))) :
    Relayed postcard monitors initial k
      (State.send { s with injector := injector, calls := ops, releases := releases } cmd) := by
  have hconnected := h.connected.step (.send cmd)
  have hshuffle := h.shuffle.left cmd
  rw [State.send, if_pos halive]
  refine ⟨h.carried, h.consistent, hconnected, ?_, hops, hinjecting, hfinished, ?_, fun _ => ?_⟩
  · rw [Lifetime.State.send, if_pos halive]
    exact hshuffle
  · rw [commands, hrest]
    exact ⟨(injector.performAll ops).2 ++ releases, by simp⟩
  · rw [hrest]
    simp

theorem Relayed.fail (h : Relayed postcard monitors initial k s)
    (hended : s.portal.eis.thread = .ended) (injector : PortalInjector) (ops : List Operation)
    (message : String) (hinjecting : s.joint.desk.injecting = true) :
    Relayed postcard monitors initial k
      (State.fail { s with injector := injector, calls := ops } message) := by
  have hwaits : Waits s.joint.desk
      (s.joint.desk.record [.inputError s!"input error: {message}"]) :=
    Waits.record ⟨rfl, rfl⟩ rfl
  refine ⟨h.carried.desk rfl rfl ?_, h.consistent.record (by simp [Observation.quiet]), h.connected,
    h.shuffle, by simp [State.fail], fun _ => h.inStep.injecting hinjecting, fun _ => rfl, ?_,
    fun hthread => absurd hended hthread⟩
  · simp [Joint.written, State.fail, Desk.record, bytesRead]
  · change s.own <+: (sends (s.joint.desk.record _).trace).2
    rw [sends_congr hwaits.performed]
    exact h.inStep.part

theorem Relayed.call (h : Relayed postcard monitors initial k s) :
    Relayed postcard monitors initial k s.call := by
  unfold State.call
  cases hcalls : s.calls with
  | nil => exact h
  | cons op rest =>
    have hinjecting : s.joint.desk.injecting = true := by
      by_contra hno
      rw [h.inStep.finished (by simpa using hno)] at hcalls
      cases hcalls
    have hsingle := h.inStep.single
    have hrest := h.inStep.rest
    rw [hcalls] at hsingle hrest
    rw [PortalInjector.performAll] at hrest
    dsimp only at hrest
    have hone := perform_single s.injector (hsingle op List.mem_cons_self)
    have hops := fun op' hop' => hsingle op' (List.mem_cons_of_mem _ hop')
    dsimp only
    rcases hone with hnone | ⟨cmd, hcmd⟩
    · rw [hnone] at hrest ⊢
      exact ⟨h.carried, h.consistent, h.connected, h.shuffle, hops, h.inStep.injecting,
        fun hno => absurd (hinjecting.symm.trans hno) (by simp), h.inStep.part, hrest⟩
    · rw [hcmd] at hrest ⊢
      dsimp only
      split_ifs with halive
      · refine h.send halive hops (fun hi => h.inStep.injecting hi)
          (fun hno => absurd (hinjecting.symm.trans hno) (by simp)) ?_
        rw [hrest (alive_thread halive)]
        simp
      · exact h.fail (h.connected.ended (by simpa using halive)) _ rest _ hinjecting

theorem Relayed.release (h : Relayed postcard monitors initial k s) :
    Relayed postcard monitors initial k s.release := by
  unfold State.release
  cases hreleases : s.releases with
  | nil => exact h
  | cons cmd rest =>
    have hfinished : s.joint.desk.injecting = false := by
      by_contra hno
      rw [h.inStep.injecting (by simpa using hno)] at hreleases
      cases hreleases
    have hcalls : s.calls = [] := h.inStep.finished hfinished
    have hopen (hi : s.joint.desk.injecting = true) : rest = [] :=
      absurd (hfinished.symm.trans hi) (by simp)
    have hrest := h.inStep.rest
    rw [hreleases, hcalls, PortalInjector.performAll, List.append_nil] at hrest
    dsimp only
    by_cases halive : s.portal.eis.alive = true
    · refine h.send halive h.inStep.single hopen h.inStep.finished ?_
      rw [hrest (alive_thread halive), hcalls]
      rfl
    · have hended := h.connected.ended (by simpa using halive)
      rw [State.send, if_neg halive]
      exact ⟨h.carried, h.consistent, h.connected, h.shuffle, h.inStep.single, hopen,
        h.inStep.finished, h.inStep.part, fun hthread => absurd hended hthread⟩

theorem Relayed.portal (h : Relayed postcard monitors initial k s) (e : Lifetime.Event D) :
    Relayed postcard monitors initial k { s with
      portal := Lifetime.step s.portal e
      others := s.others ++ Lifetime.accepts s.portal e } := by
  refine ⟨h.carried, h.consistent, h.connected.step e, ?_, h.inStep.single, h.inStep.injecting,
    h.inStep.finished, h.inStep.part, fun hthread => h.inStep.rest fun hended => hthread ?_⟩
  · dsimp only
    rw [Lifetime.accepted_step]
    simpa using h.shuffle.append (.of_right (Lifetime.accepts s.portal e))
  · exact (Lifetime.eis_leads h.connected.placed e h.connected.spawned).2 hended

theorem Relayed.step (h : Relayed postcard monitors initial k s) (e : Event D) :
    Relayed postcard monitors initial k (step postcard monitors k s e) := by
  cases e with
  | joint e =>
    cases e with
    | inject result => exact h
    | _ => exact h.joint nofun
  | take => exact h.take
  | call => exact h.call
  | release => exact h.release
  | portal e => exact h.portal e

theorem relayed_start {portal : Lifetime.State D} (h : Connected portal) :
    Relayed postcard monitors initial k (start portal initial) where
  carried := EndToEnd.carried_start
  consistent := consistent_start
  connected := h
  shuffle := .of_right portal.accepted
  inStep := ⟨nofun, fun _ => rfl, nofun, List.nil_prefix, fun _ => rfl⟩

theorem Relayed.applied (h : Relayed postcard monitors initial k s) (keyboard : Bool) :
    ∃ own others,
      Shuffle own others (ofClass keyboard s.portal.eis.client.applied) ∧
      own <+: ofClass keyboard (commands s.joint.desk.trace) ∧
      others <+: ofClass keyboard s.others := by
  have hpart : ofClass keyboard s.portal.eis.client.applied <+:
      ofClass keyboard s.portal.accepted :=
    (h.connected.relays.applied keyboard).trans (h.connected.relays.submitted.filter _)
  obtain ⟨own, others, hown, hothers, hshuffle⟩ :=
    Shuffle.of_prefix (h.shuffle.filter _) hpart
  exact ⟨own, others, hshuffle, hown.trans (h.inStep.part.filter _), hothers⟩

theorem Relayed.arrived (h : Relayed postcard monitors initial k s) (harrived : s.Arrived)
    (keyboard : Bool) :
    Shuffle (ofClass keyboard (commands s.joint.desk.trace)) (ofClass keyboard s.others)
      (ofClass keyboard s.portal.eis.client.applied) := by
  obtain ⟨hcalls, hreleases, hlooping, hmessages, hpending⟩ := harrived
  have hthread : s.portal.eis.thread ≠ .ended := by simp [hlooping]
  have hown : commands s.joint.desk.trace = s.own := by
    rw [commands, h.inStep.rest hthread, hcalls, hreleases]
    simp [PortalInjector.performAll]
  have hsubmitted : s.portal.eis.client.submitted = s.portal.accepted := by
    have htaken := h.connected.sound.taken hthread
    rwa [hmessages, Lifetime.inputs, List.filterMap_nil, List.append_nil] at htaken
  have happlied := (h.connected.relays.queued hthread).fifo keyboard
  rw [hpending, hsubmitted] at happlied
  rw [hown, ← (List.append_nil (ofClass keyboard s.portal.eis.client.applied))]
  exact happlied ▸ h.shuffle.filter _

def livePortal : List (Lifetime.Event ℕ) :=
  [.setup Lifetime.sampleDesktop, .initReceived, .spawnCapture none, .spawnEis none]

/-- A click between two motions of another session, while the pointer is still to come. -/
def sharedRun : List (Event ℕ) :=
  [.joint (.app .connectViewer), .joint (.app (.connected true)),
    .joint (.app (.viewerInput (.button 0 true))), .joint (.send none), .joint (.read 100), .take,
    .portal (.eisSetup none), .portal (.send (.motion ⟨0⟩ ⟨0⟩)), .call,
    .portal (.send (.motion ⟨1⟩ ⟨1⟩)), .portal .eisReads, .portal .eisReads,
    .portal (.server ⟨.connection, rfl⟩), .portal (.server ⟨.seatDevice 1, rfl⟩),
    .portal (.server ⟨.interface 1 "ei_pointer_absolute" 10, rfl⟩),
    .portal (.server ⟨.interface 1 "ei_button" 11, rfl⟩), .portal (.server ⟨.done 1, rfl⟩),
    .portal (.server ⟨.resumed 1 5, rfl⟩), .portal .eisReads]

end Controlis.Portal.Delivery
