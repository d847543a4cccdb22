import Controlis.Foundation.Runs
import Controlis.Portal.CaptureThread
import Controlis.Portal.Emulation
import Controlis.Portal.Release
import Controlis.Protocol.Message

/-!
# The lifetime of a portal session

A portal handle stands over three actors: the task that owns the session with
the desktop, the thread that captures, and the thread that injects. `new` brings
them up one after the other and may fail between any two. The last holder that
lets go of the handle stops both threads, waits until they are gone, and then
until the task has closed the session, two seconds at most. The actors, the
desktop and the injectors take their steps in any order.
-/

namespace Controlis.Portal.Lifetime
open Protocol Checked Runs

inductive PortalError
  | portal (message : String)
  | pipeWire (message : String)
  | noStream
deriving DecidableEq, Repr

inductive Call
  | remoteDesktop
  | screencast
  | createSession
  | selectDevices
  | selectSources
  | start
  | openPipeWireRemote
  | connectToEis
deriving DecidableEq, Repr

structure Stream where
  nodeId : UInt32
  size : Option (Int32 × Int32)
deriving DecidableEq, Repr

structure Desktop where
  refuses : Call → Option String
  streams : List Stream

def Desktop.ask (d : Desktop) (call : Call) : Except PortalError Unit :=
  match d.refuses call with
  | some message => .error (.portal message)
  | none => .ok ()

structure PortalInit where
  monitor : MonitorInfo
  nodeId : UInt32
deriving DecidableEq, Repr

def setupSession (d : Desktop) : Except PortalError PortalInit := do
  d.ask .remoteDesktop
  d.ask .screencast
  d.ask .createSession
  d.ask .selectDevices
  d.ask .selectSources
  d.ask .start
  match d.streams with
  | [] => throw .noStream
  | stream :: _ =>
    match stream.size with
    | none => throw .noStream
    | some (width, height) =>
      d.ask .openPipeWireRemote
      d.ask .connectToEis
      return ⟨⟨stream.nodeId, "Wayland (portal)", 0, 0, width.toUInt32, height.toUInt32, true⟩,
        stream.nodeId⟩

/-- The session exists from `create_session` on, whatever fails after that. -/
def Desktop.opens (d : Desktop) : Bool :=
  [.remoteDesktop, .screencast, .createSession].all fun call => (d.refuses call).isNone

inductive Session
  | absent
  | opened
  | closed
deriving DecidableEq, Repr

inductive Task
  | setup
  | waiting
  | closing
  | ended
deriving DecidableEq, Repr

inductive Thread
  | off
  | starting
  | looping
  | ended
deriving DecidableEq, Repr

structure Capture where
  thread : Thread
  quit : Bool
  data : StreamData

inductive Msg
  | input (cmd : InputCmd)
  | shutdown
deriving DecidableEq, Repr

/-- The ei thread with its channel. `readable`: the connection is still watched. -/
structure Eis (D : Type*) where
  thread : Thread
  running : Bool
  readable : Bool
  messages : List Msg
  client : Client D

/-- Where `PortalHandle::new` and, later, the handle's `Drop` have got. A live handle is held
by `others` beside its first holder. -/
inductive PortalHandle
  | awaiting
  | abandoned
  | granted (init : PortalInit)
  | capturing (init : PortalInit)
  | failed (error : PortalError)
  | live (init : PortalInit) (others : ℕ)
  | stopping
  | shutting
  | leaving
  | dropped
deriving DecidableEq, Repr

def PortalHandle.signals : PortalHandle → Bool
  | .abandoned | .failed _ | .leaving | .dropped => true
  | _ => false

/-- `init` is the channel from the task to `new`; `accepted` are the commands whose `send` did
not fail. -/
structure State (D : Type*) where
  handle : PortalHandle
  task : Task
  session : Session
  init : Option (Except PortalError PortalInit)
  capture : Capture
  eis : Eis D
  accepted : List InputCmd

def start {D : Type*} (format : VideoInfo) : State D where
  handle := .awaiting
  task := .setup
  session := .absent
  init := none
  capture := ⟨.off, false, .start format⟩
  eis := ⟨.off, true, true, [], .new⟩
  accepted := []

abbrev ServerEvent (D : Type*) := { event : Portal.Event D // inputOf event = none }

inductive Event (D : Type*)
  | setup (desktop : Desktop)
  | taskWakes
  | sessionCloses (refused : Option String)
  | taskDropped
  | abandon
  | initReceived
  | spawnCapture (refused : Option String)
  | spawnEis (refused : Option String)
  | clone
  | release
  | captureJoined
  | eisJoined
  | closedReceived
  | timedOut
  | captureSetup (failed : Option String)
  | stream (event : StreamEvent)
  | captureQuits
  | eisSetup (failed : Option String)
  | server (event : ServerEvent D)
  | connectionLost
  | dispatchFails (message : String)
  | eisReads
  | eisEnds
  | send (cmd : InputCmd)

namespace Capture

variable (c : Capture)

def setup (failed : Option String) : Capture :=
  if c.thread = .starting then
    { c with thread := if failed.isSome then .ended else .looping }
  else c

def stream (event : StreamEvent) : Capture :=
  if c.thread = .looping then
    match streamStep c.data event with
    | .ok data => { c with data := data }
    | .error _ => { c with thread := .ended }
  else c

def quits : Capture :=
  if c.thread = .looping ∧ c.quit then { c with thread := .ended } else c

end Capture

namespace Eis

variable {D : Type*} [DecidableEq D] (e : Eis D)

def alive : Bool := e.thread = .starting || e.thread = .looping

def post (msg : Msg) : Eis D :=
  if e.alive then { e with messages := e.messages ++ [msg] } else e

def setup (failed : Option String) : Eis D :=
  if e.thread = .starting then
    if failed.isSome then { e with thread := .ended, messages := [] }
    else { e with thread := .looping }
  else e

def server (event : ServerEvent D) : Eis D :=
  if e.thread = .looping ∧ e.readable then { e with client := e.client.step event.1 } else e

def connectionLost : Eis D :=
  if e.thread = .looping ∧ e.readable then { e with running := false, readable := false } else e

/-- One message. The callbacks of the same `dispatch` still run once `running` is off. -/
def reads : Eis D :=
  if e.thread = .looping then
    match e.messages with
    | [] => e
    | .input cmd :: rest => { e with messages := rest, client := e.client.step (.input cmd) }
    | .shutdown :: rest => { e with messages := rest, running := false }
  else e

def finish : Eis D :=
  { e with
    thread := .ended
    messages := []
    client := { e.client with state := e.client.state.teardown } }

def ends : Eis D := if e.thread = .looping ∧ e.running = false then e.finish else e

def dispatchFails : Eis D := if e.thread = .looping then e.finish else e

end Eis

variable {D : Type*}

namespace State

variable (s : State D)

def setup (d : Desktop) : State D :=
  if s.task = .setup then
    let session := if d.opens then .opened else .absent
    match setupSession d with
    | .error error => { s with task := .ended, session := session, init := some (.error error) }
    | .ok init =>
      if s.handle = .awaiting then
        { s with task := .waiting, session := session, init := some (.ok init) }
      else { s with task := .closing, session := session }
  else s

def taskWakes : State D :=
  if s.task = .waiting ∧ s.handle.signals then { s with task := .closing } else s

/-- A session that cannot be closed is only logged; `new`'s side hears of the end all the same. -/
def sessionCloses (refused : Option String) : State D :=
  if s.task = .closing then
    { s with task := .ended, session := if refused.isSome then s.session else .closed }
  else s

def initReceived : State D :=
  match s.handle, s.init with
  | .awaiting, some (.ok init) => { s with handle := .granted init }
  | .awaiting, some (.error error) => { s with handle := .failed error }
  | .awaiting, none =>
    if s.task = .ended then
      { s with handle := .failed (.portal "portal task exited before init") }
    else s
  | _, _ => s

def spawnCapture (refused : Option String) : State D :=
  match s.handle, refused with
  | .granted _, some message => { s with handle := .failed (.pipeWire message) }
  | .granted init, none =>
    { s with handle := .capturing init, capture := { s.capture with thread := .starting } }
  | _, _ => s

/-- Where the thread cannot be had, `capture_stop` goes without a `stop`. -/
def spawnEis (refused : Option String) : State D :=
  match s.handle, refused with
  | .capturing _, some message => { s with handle := .failed (.portal message) }
  | .capturing init, none =>
    { s with handle := .live init 0, eis := { s.eis with thread := .starting } }
  | _, _ => s

def clone : State D :=
  match s.handle with
  | .live init others => { s with handle := .live init (others + 1) }
  | _ => s

def release : State D :=
  match s.handle with
  | .live init (others + 1) => { s with handle := .live init others }
  | .live _ 0 => { s with handle := .stopping, capture := { s.capture with quit := true } }
  | _ => s

def captureJoined : State D :=
  if s.handle = .stopping ∧ s.capture.thread = .ended then
    { s with handle := .shutting, eis := s.eis.post .shutdown }
  else s

def eisJoined : State D :=
  if s.handle = .shutting ∧ s.eis.thread = .ended then { s with handle := .leaving } else s

def closedReceived : State D :=
  if s.handle = .leaving ∧ s.task = .ended then { s with handle := .dropped } else s

def timedOut : State D := if s.handle = .leaving then { s with handle := .dropped } else s

def abandon : State D := if s.handle = .awaiting then { s with handle := .abandoned } else s

def send (cmd : InputCmd) : State D :=
  if s.eis.alive then { s with eis := s.eis.post (.input cmd), accepted := s.accepted ++ [cmd] }
  else s

end State

variable [DecidableEq D]

def step (s : State D) : Event D → State D
  | .setup d => s.setup d
  | .taskWakes => s.taskWakes
  | .sessionCloses refused => s.sessionCloses refused
  | .taskDropped => { s with task := .ended }
  | .abandon => s.abandon
  | .initReceived => s.initReceived
  | .spawnCapture refused => s.spawnCapture refused
  | .spawnEis refused => s.spawnEis refused
  | .clone => s.clone
  | .release => s.release
  | .captureJoined => s.captureJoined
  | .eisJoined => s.eisJoined
  | .closedReceived => s.closedReceived
  | .timedOut => s.timedOut
  | .captureSetup failed => { s with capture := s.capture.setup failed }
  | .stream event => { s with capture := s.capture.stream event }
  | .captureQuits => { s with capture := s.capture.quits }
  | .eisSetup failed => { s with eis := s.eis.setup failed }
  | .server event => { s with eis := s.eis.server event }
  | .connectionLost => { s with eis := s.eis.connectionLost }
  | .dispatchFails _ => { s with eis := s.eis.dispatchFails }
  | .eisReads => { s with eis := s.eis.reads }
  | .eisEnds => { s with eis := s.eis.ends }
  | .send cmd => s.send cmd

def Leads (a b : Thread) : Prop := (a = .off ↔ b = .off) ∧ (a = .ended → b = .ended)

theorem Leads.refl (a : Thread) : Leads a a := ⟨.rfl, id⟩

theorem Capture.setup_leads (c : Capture) (failed : Option String) :
    Leads c.thread (c.setup failed).thread := by
  unfold Capture.setup
  split_ifs with hstarting <;> simp [Leads, hstarting]

theorem Capture.stream_leads (c : Capture) (event : StreamEvent) :
    Leads c.thread (c.stream event).thread := by
  unfold Capture.stream
  split_ifs with hlooping
  · split <;> simp [Leads, hlooping]
  · exact .refl _

theorem Capture.quits_leads (c : Capture) : Leads c.thread c.quits.thread := by
  unfold Capture.quits
  split_ifs with hquit
  · simp [Leads, hquit.1]
  · exact .refl _

@[simp] theorem Capture.setup_quit (c : Capture) (failed : Option String) :
    (c.setup failed).quit = c.quit := by
  unfold Capture.setup
  split_ifs <;> rfl

@[simp] theorem Capture.stream_quit (c : Capture) (event : StreamEvent) :
    (c.stream event).quit = c.quit := by
  unfold Capture.stream
  split_ifs
  · split <;> rfl
  · rfl

@[simp] theorem Capture.quits_quit (c : Capture) : c.quits.quit = c.quit := by
  unfold Capture.quits
  split_ifs <;> rfl

omit [DecidableEq D] in
@[simp] theorem Eis.post_thread (e : Eis D) (msg : Msg) : (e.post msg).thread = e.thread := by
  unfold Eis.post
  split_ifs <;> rfl

omit [DecidableEq D] in
theorem Eis.setup_leads (e : Eis D) (failed : Option String) :
    Leads e.thread (e.setup failed).thread := by
  unfold Eis.setup
  split_ifs with hstarting <;> simp [Leads, hstarting]

@[simp] theorem Eis.server_thread (e : Eis D) (event : ServerEvent D) :
    (e.server event).thread = e.thread := by
  unfold Eis.server
  split_ifs <;> rfl

omit [DecidableEq D] in
@[simp] theorem Eis.connectionLost_thread (e : Eis D) : e.connectionLost.thread = e.thread := by
  unfold Eis.connectionLost
  split_ifs <;> rfl

@[simp] theorem Eis.reads_thread (e : Eis D) : e.reads.thread = e.thread := by
  unfold Eis.reads
  split_ifs
  · split <;> rfl
  · rfl

theorem Eis.dispatchFails_leads (e : Eis D) : Leads e.thread e.dispatchFails.thread := by
  unfold Eis.dispatchFails Eis.finish
  split_ifs with hlooping <;> simp [Leads, hlooping]

theorem Eis.ends_leads (e : Eis D) : Leads e.thread e.ends.thread := by
  unfold Eis.ends Eis.finish
  split_ifs with hlooping
  · simp [Leads, hlooping.1]
  · exact .refl _

def PortalHandle.Fits (capture : Thread) (quit : Bool) (eis : Thread) : PortalHandle → Prop
  | .awaiting | .abandoned | .granted _ => capture = .off ∧ quit = false ∧ eis = .off
  | .capturing _ => capture ≠ .off ∧ quit = false ∧ eis = .off
  | .failed _ => quit = false ∧ eis = .off
  | .live _ _ => capture ≠ .off ∧ quit = false ∧ eis ≠ .off
  | .stopping => capture ≠ .off ∧ quit = true ∧ eis ≠ .off
  | .shutting => capture = .ended ∧ eis ≠ .off
  | .leaving | .dropped => capture = .ended ∧ eis = .ended

def Placed (s : State D) : Prop := s.handle.Fits s.capture.thread s.capture.quit s.eis.thread

theorem PortalHandle.Fits.leads {handle : PortalHandle} {c c' e e' : Thread} {quit : Bool}
    (h : handle.Fits c quit e) (hc : Leads c c') (he : Leads e e') : handle.Fits c' quit e' := by
  obtain ⟨hcoff, hcended⟩ := hc
  obtain ⟨heoff, heended⟩ := he
  cases handle <;> simp_all [PortalHandle.Fits]

variable {s : State D}

omit [DecidableEq D] in
theorem placed_start (format : VideoInfo) : Placed (start format : State D) := ⟨rfl, rfl, rfl⟩

omit [DecidableEq D] in
theorem Placed.initReceived (h : Placed s) : Placed s.initReceived := by
  unfold State.initReceived
  split
  · rename_i hhandle _
    rwa [Placed, hhandle] at h
  · rename_i hhandle _
    rw [Placed, hhandle] at h
    exact h.2
  · rename_i hhandle _
    split_ifs
    · rw [Placed, hhandle] at h
      exact h.2
    · exact h
  · exact h

omit [DecidableEq D] in
theorem Placed.spawnCapture (h : Placed s) (refused : Option String) :
    Placed (s.spawnCapture refused) := by
  unfold State.spawnCapture
  split
  · rename_i hhandle
    rw [Placed, hhandle] at h
    exact h.2
  · rename_i hhandle
    rw [Placed, hhandle] at h
    exact ⟨nofun, h.2⟩
  · exact h

omit [DecidableEq D] in
theorem Placed.spawnEis (h : Placed s) (refused : Option String) :
    Placed (s.spawnEis refused) := by
  unfold State.spawnEis
  split
  · rename_i hhandle
    rw [Placed, hhandle] at h
    exact h.2
  · rename_i hhandle
    rw [Placed, hhandle] at h
    exact ⟨h.1, h.2.1, nofun⟩
  · exact h

omit [DecidableEq D] in
theorem Placed.release (h : Placed s) : Placed s.release := by
  unfold State.release
  split
  · rename_i hhandle
    rwa [Placed, hhandle] at h
  · rename_i hhandle
    rw [Placed, hhandle] at h
    exact ⟨h.1, rfl, h.2.2⟩
  · exact h

theorem Placed.step (h : Placed s) (e : Event D) : Placed (step s e) := by
  -- the two threads take their steps where the handle has put them
  have hcapture {c : Capture} (hleads : Leads s.capture.thread c.thread)
      (hquit : c.quit = s.capture.quit) : Placed { s with capture := c } := by
    rw [Placed, hquit]
    exact h.leads hleads (.refl _)
  have heis {e : Eis D} (hleads : Leads s.eis.thread e.thread) : Placed { s with eis := e } :=
    h.leads (.refl _) hleads
  cases e with
  | setup d =>
    simp only [Lifetime.step, State.setup]
    repeat' split
    all_goals exact h
  | taskWakes =>
    simp only [Lifetime.step, State.taskWakes]
    split_ifs <;> exact h
  | sessionCloses refused =>
    simp only [Lifetime.step, State.sessionCloses]
    split_ifs <;> exact h
  | taskDropped => exact h
  | abandon =>
    simp only [Lifetime.step, State.abandon]
    split_ifs with hhandle
    · rwa [Placed, hhandle] at h
    · exact h
  | initReceived => exact h.initReceived
  | spawnCapture refused => exact h.spawnCapture refused
  | spawnEis refused => exact h.spawnEis refused
  | clone =>
    simp only [Lifetime.step, State.clone]
    split
    · rename_i hhandle
      rwa [Placed, hhandle] at h
    · exact h
  | release => exact h.release
  | captureJoined =>
    simp only [Lifetime.step, State.captureJoined]
    split_ifs with hjoined
    · rw [Placed, hjoined.1] at h
      exact ⟨hjoined.2, by simpa using h.2.2⟩
    · exact h
  | eisJoined =>
    simp only [Lifetime.step, State.eisJoined]
    split_ifs with hjoined
    · rw [Placed, hjoined.1] at h
      exact ⟨h.1, hjoined.2⟩
    · exact h
  | closedReceived =>
    simp only [Lifetime.step, State.closedReceived]
    split_ifs with hleaving
    · rwa [Placed, hleaving.1] at h
    · exact h
  | timedOut =>
    simp only [Lifetime.step, State.timedOut]
    split_ifs with hleaving
    · rwa [Placed, hleaving] at h
    · exact h
  | captureSetup failed => exact hcapture (s.capture.setup_leads failed) (by simp)
  | stream event => exact hcapture (s.capture.stream_leads event) (by simp)
  | captureQuits => exact hcapture s.capture.quits_leads (by simp)
  | eisSetup failed => exact heis (s.eis.setup_leads failed)
  | server event => exact heis (by simpa using .refl _)
  | connectionLost => exact heis (by simpa using .refl _)
  | dispatchFails => exact heis s.eis.dispatchFails_leads
  | eisReads => exact heis (by simpa using .refl _)
  | eisEnds => exact heis s.eis.ends_leads
  | send cmd =>
    simp only [Lifetime.step, State.send]
    split_ifs
    · exact heis (by simpa using .refl _)
    · exact h

def Msg.input? : Msg → Option InputCmd
  | .input cmd => some cmd
  | .shutdown => none

def inputs (messages : List Msg) : List InputCmd := messages.filterMap Msg.input?

theorem inputs_append (xs ys : List Msg) : inputs (xs ++ ys) = inputs xs ++ inputs ys :=
  List.filterMap_append ..

def Event.injects : Event D → Bool
  | .spawnEis _ | .captureJoined | .eisSetup _ | .server _ | .connectionLost | .dispatchFails _
  | .eisReads | .eisEnds | .send _ => true
  | _ => false

theorem eis_frame (s : State D) {e : Event D} (he : e.injects = false) :
    (step s e).eis = s.eis ∧ (step s e).accepted = s.accepted := by
  cases e with
  | setup d =>
    simp only [step, State.setup]
    repeat' split
    all_goals exact ⟨rfl, rfl⟩
  | initReceived =>
    simp only [step, State.initReceived]
    repeat' split
    all_goals exact ⟨rfl, rfl⟩
  | spawnCapture refused =>
    simp only [step, State.spawnCapture]
    split <;> exact ⟨rfl, rfl⟩
  | clone =>
    simp only [step, State.clone]
    split <;> exact ⟨rfl, rfl⟩
  | release =>
    simp only [step, State.release]
    split <;> exact ⟨rfl, rfl⟩
  | taskDropped | captureSetup | stream | captureQuits => exact ⟨rfl, rfl⟩
  | spawnEis | captureJoined | eisSetup | server | connectionLost | dispatchFails | eisReads
  | eisEnds | send => cases he
  | taskWakes =>
    simp only [step, State.taskWakes]
    split_ifs <;> exact ⟨rfl, rfl⟩
  | sessionCloses refused =>
    simp only [step, State.sessionCloses]
    split_ifs <;> exact ⟨rfl, rfl⟩
  | abandon =>
    simp only [step, State.abandon]
    split_ifs <;> exact ⟨rfl, rfl⟩
  | eisJoined =>
    simp only [step, State.eisJoined]
    split_ifs <;> exact ⟨rfl, rfl⟩
  | closedReceived =>
    simp only [step, State.closedReceived]
    split_ifs <;> exact ⟨rfl, rfl⟩
  | timedOut =>
    simp only [step, State.timedOut]
    split_ifs <;> exact ⟨rfl, rfl⟩

/-- What has been accepted is read in order, as long as there is a thread to read it. -/
structure Eis.Sound (e : Eis D) (accepted : List InputCmd) : Prop where
  fresh : e.thread = .off ∨ e.thread = .starting → e.client = .new
  taken : e.thread ≠ .ended → e.client.submitted ++ inputs e.messages = accepted

theorem submitted_server (c : Client D) (event : ServerEvent D) :
    (c.step event.1).submitted = c.submitted := by
  rw [step_submitted, inputsOf, List.filterMap_cons_none event.2]
  exact List.append_nil _

theorem submitted_input (c : Client D) (cmd : InputCmd) :
    (c.step (.input cmd)).submitted = c.submitted ++ [cmd] := step_submitted c _

section Sound

variable {e : Eis D} {accepted : List InputCmd}

omit [DecidableEq D] in
theorem Eis.Sound.post (h : e.Sound accepted) (halive : e.alive = true) (msg : Msg) :
    (e.post msg).Sound (accepted ++ inputs [msg]) := by
  unfold Eis.post
  rw [if_pos halive]
  refine ⟨h.fresh, fun hended => ?_⟩
  have htaken := h.taken hended
  dsimp only
  rw [inputs_append, ← List.append_assoc, htaken]

omit [DecidableEq D] in
theorem Eis.Sound.setup (h : e.Sound accepted) (failed : Option String) :
    (e.setup failed).Sound accepted := by
  unfold Eis.setup
  split_ifs with hstarting
  · exact ⟨nofun, fun hended => absurd rfl hended⟩
  · exact ⟨nofun, fun _ => h.taken (by simp [hstarting])⟩
  · exact h

theorem Eis.Sound.server (h : e.Sound accepted) (event : ServerEvent D) :
    (e.server event).Sound accepted := by
  unfold Eis.server
  split_ifs with hlooping
  · refine ⟨by simp [hlooping.1], fun hended => ?_⟩
    dsimp only
    rw [submitted_server]
    exact h.taken hended
  · exact h

omit [DecidableEq D] in
theorem Eis.Sound.connectionLost (h : e.Sound accepted) : e.connectionLost.Sound accepted := by
  unfold Eis.connectionLost
  split_ifs
  · exact ⟨h.fresh, h.taken⟩
  · exact h

theorem Eis.Sound.reads (h : e.Sound accepted) : e.reads.Sound accepted := by
  unfold Eis.reads
  split_ifs with hlooping
  · have htaken := h.taken (by simp [hlooping])
    split
    · exact h
    · rename_i cmd rest hmessages
      refine ⟨by simp [hlooping], fun _ => ?_⟩
      dsimp only
      rw [submitted_input, ← htaken, hmessages, List.append_assoc]
      rfl
    -- the loop goes on to its end: what follows in the channel is not dropped yet
    · rename_i rest hmessages
      refine ⟨by simp [hlooping], fun _ => ?_⟩
      rw [← htaken, hmessages]
      rfl
  · exact h

theorem Eis.Sound.finish (e : Eis D) (accepted : List InputCmd) : e.finish.Sound accepted :=
  ⟨nofun, fun hended => absurd rfl hended⟩

end Sound

omit [DecidableEq D] in
theorem sound_start (format : VideoInfo) :
    (start format : State D).eis.Sound (start format : State D).accepted :=
  ⟨fun _ => rfl, fun _ => rfl⟩

omit [DecidableEq D] in
theorem spawnEis_cases (s : State D) (refused : Option String) :
    ((s.spawnEis refused).eis = s.eis ∧ (s.spawnEis refused).accepted = s.accepted) ∨
      ∃ init, s.handle = .capturing init ∧ s.spawnEis refused =
        { s with handle := .live init 0, eis := { s.eis with thread := .starting } } := by
  unfold State.spawnEis
  split
  · exact .inl ⟨rfl, rfl⟩
  · rename_i init hhandle
    exact .inr ⟨init, hhandle, rfl⟩
  · exact .inl ⟨rfl, rfl⟩

theorem Placed.sound_step (hplaced : Placed s) (h : s.eis.Sound s.accepted) (e : Event D) :
    (Lifetime.step s e).eis.Sound (Lifetime.step s e).accepted := by
  cases hinjects : e.injects with
  | false =>
    obtain ⟨heis, haccepted⟩ := eis_frame s hinjects
    rwa [heis, haccepted]
  | true =>
    cases e with
    | spawnEis refused =>
      rcases spawnEis_cases s refused with ⟨heis, haccepted⟩ | ⟨init, hhandle, hspawned⟩
      · rwa [Lifetime.step, heis, haccepted]
      · rw [Placed, hhandle] at hplaced
        rw [Lifetime.step, hspawned]
        exact ⟨fun _ => h.fresh (.inl hplaced.2.2), fun _ => h.taken (by simp [hplaced.2.2])⟩
    -- a thread that is gone has closed its channel, and the shutdown is lost
    | captureJoined =>
      simp only [Lifetime.step, State.captureJoined]
      split_ifs
      · cases halive : s.eis.alive with
        | true =>
          have hposted := h.post halive .shutdown
          rwa [inputs, List.filterMap_cons_none rfl, List.filterMap_nil, List.append_nil] at hposted
        | false => rwa [Eis.post, if_neg (by simp [halive])]
      · exact h
    | eisSetup failed => exact h.setup failed
    | server event => exact h.server event
    | connectionLost => exact h.connectionLost
    | dispatchFails message =>
      simp only [Lifetime.step, Eis.dispatchFails]
      split_ifs
      · exact .finish _ _
      · exact h
    | eisReads => exact h.reads
    | eisEnds =>
      simp only [Lifetime.step, Eis.ends]
      split_ifs
      · exact .finish _ _
      · exact h
    | send cmd =>
      simp only [Lifetime.step, State.send]
      split_ifs with halive
      · exact h.post halive (.input cmd)
      · exact h
    | _ => cases hinjects

def Event.breaks : Event D → Bool
  | .eisSetup failed => failed.isSome
  | .connectionLost | .dispatchFails _ => true
  | _ => false

def PortalHandle.shutsDown : PortalHandle → Bool
  | .shutting | .leaving | .dropped => true
  | _ => false

def Eis.due (e : Eis D) : List InputCmd :=
  e.client.submitted ++
    if e.running then inputs (e.messages.takeWhile (· ≠ .shutdown)) else []

structure Unbroken (s : State D) : Prop where
  ended : s.eis.thread = .ended → s.eis.running = false
  running : s.handle.shutsDown = false → s.eis.running = true ∧ .shutdown ∉ s.eis.messages

theorem shutsDown_step (s : State D) {e : Event D} (he : e ≠ .captureJoined) :
    (step s e).handle.shutsDown = s.handle.shutsDown := by
  cases e with
  | captureJoined => exact absurd rfl he
  | setup d =>
    simp only [step, State.setup]
    repeat' split
    all_goals rfl
  | initReceived =>
    simp only [step, State.initReceived]
    split
    · rename_i hhandle _
      rw [hhandle]
      rfl
    · rename_i hhandle _
      rw [hhandle]
      rfl
    · rename_i hhandle _
      split_ifs
      · rw [hhandle]
        rfl
      · rfl
    · rfl
  | spawnCapture | spawnEis | clone | release =>
    simp only [step, State.spawnCapture, State.spawnEis, State.clone, State.release]
    split
    all_goals first | rfl | (rename_i hhandle; rw [hhandle]; rfl)
  | abandon | timedOut =>
    simp only [step, State.abandon, State.timedOut]
    split_ifs with hhandle
    · rw [hhandle]
      rfl
    · rfl
  | eisJoined | closedReceived =>
    simp only [step, State.eisJoined, State.closedReceived]
    split_ifs with hhandle
    · rw [hhandle.1]
      rfl
    · rfl
  | taskWakes | sessionCloses | send =>
    simp only [step, State.taskWakes, State.sessionCloses, State.send]
    split_ifs <;> rfl
  | _ => rfl

omit [DecidableEq D] in
theorem unbroken_start (format : VideoInfo) : Unbroken (start format : State D) :=
  ⟨nofun, fun _ => ⟨rfl, List.not_mem_nil⟩⟩

theorem Unbroken.reads (h : Unbroken s) : Unbroken { s with eis := s.eis.reads } := by
  unfold Eis.reads
  split_ifs with hlooping
  · have hended : s.eis.thread ≠ .ended := by simp [hlooping]
    split
    · exact h
    · rename_i cmd rest hmessages
      refine ⟨fun hthread => absurd hthread hended, fun hopen => ?_⟩
      obtain ⟨hrunning, hnone⟩ := h.running hopen
      rw [hmessages] at hnone
      exact ⟨hrunning, fun hmem => hnone (List.mem_cons_of_mem _ hmem)⟩
    · rename_i rest hmessages
      refine ⟨fun _ => rfl, fun hopen => ?_⟩
      have hnone := (h.running hopen).2
      rw [hmessages] at hnone
      exact absurd List.mem_cons_self hnone
  · exact h

theorem Unbroken.step (h : Unbroken s) {e : Event D} (hok : e.breaks = false) :
    Unbroken (Lifetime.step s e) := by
  have hsame (he : e ≠ .captureJoined) (heis : (Lifetime.step s e).eis = s.eis) :
      Unbroken (Lifetime.step s e) := by
    refine ⟨by rw [heis]; exact h.ended, fun hopen => ?_⟩
    rw [shutsDown_step s he] at hopen
    rw [heis]
    exact h.running hopen
  cases hinjects : e.injects with
  | false => exact hsame (by rintro rfl; cases hinjects) (eis_frame s hinjects).1
  | true =>
    cases e with
    -- the thread starts in a handle that has not shut anything down
    | spawnEis refused =>
      rcases spawnEis_cases s refused with ⟨heis, -⟩ | ⟨init, hhandle, hspawned⟩
      · exact hsame nofun heis
      · rw [Lifetime.step, hspawned]
        exact ⟨nofun, fun _ => h.running (by rw [hhandle]; rfl)⟩
    | captureJoined =>
      simp only [Lifetime.step, State.captureJoined]
      split_ifs
      · refine ⟨fun hended => ?_, nofun⟩
        have hthread : s.eis.thread = .ended := by simpa using hended
        simpa [Eis.post, Eis.alive, hthread] using h.ended hthread
      · exact h
    | eisSetup failed =>
      cases failed with
      | some message => cases hok
      | none =>
        simp only [Lifetime.step, Eis.setup]
        split_ifs
        · rename_i hfailed
          cases hfailed
        · exact ⟨nofun, h.running⟩
        · exact h
    | server event =>
      simp only [Lifetime.step, Eis.server]
      split_ifs
      · exact ⟨h.ended, h.running⟩
      · exact h
    | connectionLost => cases hok
    | dispatchFails message => cases hok
    | eisReads => exact h.reads
    | eisEnds =>
      simp only [Lifetime.step, Eis.ends]
      split_ifs with hstopped
      · refine ⟨fun _ => hstopped.2, fun hopen => ?_⟩
        have hrunning := (h.running hopen).1
        rw [hstopped.2] at hrunning
        cases hrunning
      · exact h
    | send cmd =>
      simp only [Lifetime.step, State.send]
      split_ifs with halive
      · unfold Eis.post
        rw [if_pos halive]
        refine ⟨h.ended, fun hopen => ?_⟩
        obtain ⟨hrunning, hnone⟩ := h.running hopen
        exact ⟨hrunning, by simpa using hnone⟩
      · exact h
    | _ => cases hinjects

omit [DecidableEq D] in
theorem due_post (e : Eis D) (msg : Msg) : e.due <+: (e.post msg).due := by
  unfold Eis.post
  split_ifs
  · cases hrunning : e.running with
    | false => simp [Eis.due, hrunning]
    | true =>
      simp only [Eis.due, hrunning, if_true]
      refine (List.prefix_append_right_inj _).mpr ?_
      rw [List.takeWhile_append]
      split_ifs
      · exact ((List.takeWhile_prefix _).trans (List.prefix_append _ _)).filterMap _
      · exact List.prefix_refl _
  · exact List.prefix_refl _

theorem due_reads (e : Eis D) : e.due <+: e.reads.due := by
  unfold Eis.reads
  split_ifs
  · split
    · exact List.prefix_refl _
    · rename_i cmd rest hmessages
      cases hrunning : e.running with
      -- what is read behind the shutdown is taken all the same
      | false => simp [Eis.due, hrunning, submitted_input]
      | true => simp [Eis.due, hrunning, submitted_input, hmessages, inputs, Msg.input?]
    · rename_i rest hmessages
      simp [Eis.due, hmessages, inputs]
  · exact List.prefix_refl _

theorem due_step (s : State D) {e : Event D} (hok : e.breaks = false) :
    s.eis.due <+: (step s e).eis.due := by
  cases hinjects : e.injects with
  | false =>
    simp only [(eis_frame s hinjects).1, List.prefix_refl]
  | true =>
    cases e with
    | spawnEis refused =>
      rcases spawnEis_cases s refused with ⟨heis, -⟩ | ⟨init, -, hspawned⟩
      · simp only [step, heis, List.prefix_refl]
      · simp only [step, hspawned]
        exact List.prefix_refl _
    | captureJoined =>
      simp only [step, State.captureJoined]
      split_ifs
      · exact due_post s.eis .shutdown
      · exact List.prefix_refl _
    | eisSetup failed =>
      cases failed with
      | some message => cases hok
      | none =>
        simp only [step, Eis.setup]
        split_ifs
        · rename_i hfailed
          cases hfailed
        · exact List.prefix_refl _
        · exact List.prefix_refl _
    | server event =>
      simp only [step, Eis.server]
      split_ifs
      · simp [Eis.due, submitted_server]
      · exact List.prefix_refl _
    | connectionLost => cases hok
    | dispatchFails message => cases hok
    | eisReads => exact due_reads s.eis
    | eisEnds =>
      simp only [step, Eis.ends]
      split_ifs with hstopped
      · simp [Eis.due, Eis.finish, hstopped.2]
      · exact List.prefix_refl _
    | send cmd =>
      simp only [step, State.send]
      split_ifs
      · exact due_post s.eis (.input cmd)
      · exact List.prefix_refl _
    | _ => cases hinjects

end Controlis.Portal.Lifetime
