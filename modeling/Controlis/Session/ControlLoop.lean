import Mathlib.Data.List.Forall2
import Controlis.Input.Coords
import Controlis.Input.Enigo
import Controlis.Protocol.Framing

/-!
# The control loop and the injection thread

During a session the host selects between UI commands and control messages and
forwards input to a thread of its own over an unbounded channel. Pending reads
are dropped whenever a command is taken first; the reassembly buffer outlives
them. A `Tick` is one step of the loop, of the teardown or of the thread, in
any interleaving, and the trace records what they do.
-/

namespace Controlis.Session
open Protocol Input

inductive HostCommand
  | approve
  | reject
  | stop
deriving DecidableEq, Repr

inductive InputAction
  | move (x y : Int32)
  | button (button : MouseButton) (action : PointerAction)
  | wheel (deltaX deltaY : F32)
  | key (key : KeyCode) (action : PointerAction)
  | text (text : String)
deriving DecidableEq, Repr

def applyInput : InputAction → Operation
  | .move x y => .movePointer x y
  | .button button action => .mouseButton button action
  | .wheel deltaX deltaY => .mouseWheel deltaX deltaY
  | .key key action => .key key action
  | .text text => .text text

structure Active where
  monitor : MonitorInfo
  activeId : UInt32
deriving DecidableEq, Repr

inductive Arm
  | exit (reason : String)
  | next (active : Active) (input : Option InputAction) (reply : Option ControlMessage)
deriving DecidableEq, Repr

def commandArm (active : Active) : Option HostCommand → Arm
  | some .stop => .exit "host ended the session"
  | none => .exit "host ended the session"
  | some _ => .next active none none

/-- A failed read, an oversized frame and a body that does not decode are all `Err`. -/
def messageArm (monitors : List MonitorInfo) (active : Active) : Option ControlMessage → Arm
  | some (.mouseMove xNorm yNorm) =>
    let m := active.monitor
    let (x, y) := normalizedToPixel xNorm yNorm m.originX m.originY m.widthPx m.heightPx
    .next active (some (.move x y)) none
  | some (.selectMonitor monitorId) =>
    match monitors.find? (·.id == monitorId) with
    | some monitor =>
      .next ⟨monitor, monitorId⟩ none (some (.resize monitor.widthPx monitor.heightPx))
    | none => .next active none none
  | some (.mouseButton button action) => .next active (some (.button button action)) none
  | some (.mouseWheel deltaX deltaY) => .next active (some (.wheel deltaX deltaY)) none
  | some (.keyEvent key action) => .next active (some (.key key action)) none
  | some (.text text) => .next active (some (.text text)) none
  | some (.ping nonce) => .next active none (some (.pong nonce))
  | some (.disconnect reason) => .exit s!"viewer disconnected: {reason}"
  | some _ => .next active none none
  | none => .exit "connection lost"

def firstMonitor (head : MonitorInfo) (rest : List MonitorInfo) : MonitorInfo :=
  ((head :: rest).find? (·.isPrimary)).getD head

inductive ReadResult
  | bytes (chunk : List UInt8)
  | finished
  | failed
deriving DecidableEq, Repr

inductive Polled
  | pending
  | message (m : ControlMessage)
  | err
deriving DecidableEq, Repr

/-- The part of `ControlReceiver::recv` before its next read. -/
def pollFrame (postcard : Postcard) (decoder : FrameDecoder) : FrameDecoder × Polled :=
  match decoder.nextFrame with
  | (decoder, .error _) => (decoder, .err)
  | (decoder, .ok none) => (decoder, .pending)
  | (decoder, .ok (some body)) =>
    match decode postcard body with
    | .error _ => (decoder, .err)
    | .ok m => (decoder, .message m)

inductive Performed
  | action (a : InputAction)
  | releaseAll
deriving DecidableEq, Repr

inductive Observation
  | command (c : Option HostCommand)
  | read (chunk : List UInt8)
  | received (m : ControlMessage)
  | replied (m : ControlMessage)
  | performed (p : Performed)
  | inputError (message : String)
deriving DecidableEq, Repr

structure Desk where
  decoder : FrameDecoder
  active : Active
  exit : Option String
  queue : List InputAction
  senderOpen : Bool
  injecting : Bool
  trace : List Observation

def Desk.start (monitor : MonitorInfo) : Desk :=
  ⟨.new, ⟨monitor, monitor.id⟩, none, [], true, true, []⟩

inductive Tick
  | command (c : Option HostCommand)
  | recv (r : ReadResult)
  | teardown
  | inject (result : Except String Unit)

def Desk.record (d : Desk) (os : List Observation) : Desk := { d with trace := d.trace ++ os }

def Desk.apply (d : Desk) : Arm → Desk
  | .exit reason => { d with exit := some reason }
  | .next active input reply =>
    { d with
      active := active
      queue := d.queue ++ input.toList
      trace := d.trace ++ reply.toList.map .replied }

def Desk.settle (monitors : List MonitorInfo) (d : Desk) : FrameDecoder × Polled → Desk
  | (decoder, .message m) =>
    ({ d with decoder := decoder }.record [.received m]).apply
      (messageArm monitors d.active (some m))
  | (decoder, .err) => { d with decoder := decoder }.apply (messageArm monitors d.active none)
  | (_, .pending) => d

/-- A buffered frame is taken before any read. -/
def Desk.recv (postcard : Postcard) (monitors : List MonitorInfo) (d : Desk) (r : ReadResult) :
    Desk :=
  if (pollFrame postcard d.decoder).2 ≠ .pending then
    d.settle monitors (pollFrame postcard d.decoder)
  else
    match r with
    | .bytes chunk =>
      let d := { d with decoder := d.decoder.extend chunk }.record [.read chunk]
      d.settle monitors (pollFrame postcard d.decoder)
    | .finished => d.apply (messageArm monitors d.active none)
    | .failed => d.apply (messageArm monitors d.active none)

/-- The thread takes the next action or, once the channel is closed and drained,
releases everything. A failing injection is reported and the thread goes on. -/
def Desk.inject (d : Desk) (result : Except String Unit) : Desk :=
  match d.queue with
  | a :: queue =>
    let d := { d with queue := queue }.record [.performed (.action a)]
    match result with
    | .ok () => d
    | .error e => d.record [.inputError s!"input error: {e}"]
  | [] =>
    if d.senderOpen then d else { d with injecting := false }.record [.performed .releaseAll]

def Desk.tick (postcard : Postcard) (monitors : List MonitorInfo) (d : Desk) : Tick → Desk
  | .command c =>
    if d.exit.isSome then d else (d.record [.command c]).apply (commandArm d.active c)
  | .recv r => if d.exit.isSome then d else d.recv postcard monitors r
  | .teardown => if d.exit.isSome then { d with senderOpen := false } else d
  | .inject result => if d.injecting then d.inject result else d

def Desk.run (postcard : Postcard) (monitors : List MonitorInfo) (d : Desk) (ticks : List Tick) :
    Desk :=
  ticks.foldl (Desk.tick postcard monitors) d

def received (trace : List Observation) : List ControlMessage :=
  trace.filterMap fun | .received m => some m | _ => none

def performed (trace : List Observation) : List Performed :=
  trace.filterMap fun | .performed p => some p | _ => none

def bytesRead (trace : List Observation) : List UInt8 :=
  trace.flatMap fun | .read chunk => chunk | _ => []

def selection (monitors : List MonitorInfo) : ControlMessage → Option MonitorInfo
  | .selectMonitor monitorId => monitors.find? (·.id == monitorId)
  | _ => none

def lastSelected (monitors : List MonitorInfo) (initial : MonitorInfo)
    (before : List ControlMessage) : MonitorInfo :=
  (before.reverse.findSome? (selection monitors)).getD initial

def translate (m : MonitorInfo) : ControlMessage → Option InputAction
  | .mouseMove xNorm yNorm =>
    let p := normalizedToPixel xNorm yNorm m.originX m.originY m.widthPx m.heightPx
    some (.move p.1 p.2)
  | .mouseButton button action => some (.button button action)
  | .mouseWheel deltaX deltaY => some (.wheel deltaX deltaY)
  | .keyEvent key action => some (.key key action)
  | .text text => some (.text text)
  | _ => none

def translations (monitors : List MonitorInfo) (initial : MonitorInfo) :
    List ControlMessage → List ControlMessage → List InputAction
  | _, [] => []
  | before, m :: ms =>
    (translate (lastSelected monitors initial before) m).toList ++
      translations monitors initial (before ++ [m]) ms

variable {postcard : Postcard} {monitors : List MonitorInfo} {initial : MonitorInfo} {d : Desk}

/-- The trace, the queue, the buffer and the two copies of the monitor agree. -/
structure Consistent (postcard : Postcard) (monitors : List MonitorInfo) (initial : MonitorInfo)
    (d : Desk) : Prop where
  active : d.active = ⟨lastSelected monitors initial (received d.trace),
    (lastSelected monitors initial (received d.trace)).id⟩
  fifo : ∃ done, performed d.trace =
      done.map .action ++ (bif d.injecting then [] else [.releaseAll]) ∧
    done ++ d.queue = translations monitors initial [] (received d.trace)
  framing : ∃ bodies bad, Parsed (bytesRead d.trace) (bodies ++ bad) d.decoder.buffer ∧
    List.Forall₂ (fun body m => decode postcard body = .ok m) bodies (received d.trace) ∧
    (d.exit = none → bad = [])
  closed : d.senderOpen = false → d.exit ≠ none
  finished : d.injecting = false → d.queue = [] ∧ d.senderOpen = false

theorem lastSelected_snoc (before : List ControlMessage) (m : ControlMessage) :
    lastSelected monitors initial (before ++ [m]) =
      (selection monitors m).getD (lastSelected monitors initial before) := by
  simp only [lastSelected, List.reverse_append, List.reverse_singleton, List.singleton_append,
    List.findSome?_cons]
  cases selection monitors m <;> rfl

theorem translations_snoc (before ms : List ControlMessage) (m : ControlMessage) :
    translations monitors initial before (ms ++ [m]) =
      translations monitors initial before ms ++
        (translate (lastSelected monitors initial (before ++ ms)) m).toList := by
  induction ms generalizing before with
  | nil => simp [translations]
  | cons x ms ih => simp [translations, ih]

theorem lastSelected_mem (h : initial ∈ monitors) (before : List ControlMessage) :
    lastSelected monitors initial before ∈ monitors := by
  rw [lastSelected]
  cases hsel : before.reverse.findSome? (selection monitors) with
  | none => exact h
  | some m =>
    obtain ⟨x, -, hx⟩ := List.exists_of_findSome?_eq_some hsel
    cases x <;> simp only [selection, reduceCtorEq] at hx
    exact List.mem_of_find?_eq_some hx

theorem messageArm_cases (active : Active) (m : ControlMessage) :
    (translate active.monitor m = none ∧ selection monitors m = none ∧
      ∃ reason, messageArm monitors active (some m) = .exit reason) ∨
    ∃ reply, messageArm monitors active (some m) =
      .next (match selection monitors m with
        | some s => ⟨s, s.id⟩
        | none => active) (translate active.monitor m) reply := by
  cases m with
  | disconnect reason => exact Or.inl ⟨rfl, rfl, _, rfl⟩
  | selectMonitor monitorId =>
    right
    simp only [messageArm, selection, translate]
    cases hfind : monitors.find? (·.id == monitorId) with
    | none => exact ⟨_, rfl⟩
    | some s =>
      have hid : s.id = monitorId := by simpa using List.find?_some hfind
      exact ⟨_, by rw [← hid]⟩
  | _ => exact Or.inr ⟨_, rfl⟩

@[simp] theorem received_append (xs ys : List Observation) :
    received (xs ++ ys) = received xs ++ received ys := List.filterMap_append ..

@[simp] theorem performed_append (xs ys : List Observation) :
    performed (xs ++ ys) = performed xs ++ performed ys := List.filterMap_append ..

@[simp] theorem bytesRead_append (xs ys : List Observation) :
    bytesRead (xs ++ ys) = bytesRead xs ++ bytesRead ys := List.flatMap_append ..

@[simp] theorem received_message (m : ControlMessage) : received [.received m] = [m] := rfl
@[simp] theorem received_read (chunk : List UInt8) : received [.read chunk] = [] := rfl
@[simp] theorem received_performed (p : Performed) : received [.performed p] = [] := rfl
@[simp] theorem performed_message (m : ControlMessage) : performed [.received m] = [] := rfl
@[simp] theorem performed_read (chunk : List UInt8) : performed [.read chunk] = [] := rfl
@[simp] theorem performed_performed (p : Performed) : performed [.performed p] = [p] := rfl
@[simp] theorem bytesRead_message (m : ControlMessage) : bytesRead [.received m] = [] := rfl
@[simp] theorem bytesRead_read (chunk : List UInt8) : bytesRead [.read chunk] = chunk := by
  simp [bytesRead]
@[simp] theorem bytesRead_performed (p : Performed) : bytesRead [.performed p] = [] := rfl

@[simp] theorem apply_next_none (d : Desk) : d.apply (.next d.active none none) = d := by
  simp [Desk.apply]

def Observation.quiet : Observation → Prop
  | .command _ => True
  | .replied _ => True
  | .inputError _ => True
  | _ => False

theorem quiet_trace {os : List Observation} (h : ∀ o ∈ os, o.quiet) :
    received os = [] ∧ performed os = [] ∧ bytesRead os = [] := by
  induction os with
  | nil => exact ⟨rfl, rfl, rfl⟩
  | cons o os ih =>
    obtain ⟨hr, hp, hb⟩ := ih fun x hx => h x (List.mem_cons_of_mem _ hx)
    have ho := h o (List.mem_cons_self ..)
    cases o with
    | command _ => exact ⟨hr, hp, hb⟩
    | replied _ => exact ⟨hr, hp, hb⟩
    | inputError _ => exact ⟨hr, hp, hb⟩
    | read _ => exact ho.elim
    | received _ => exact ho.elim
    | performed _ => exact ho.elim

theorem Consistent.record (h : Consistent postcard monitors initial d) {os : List Observation}
    (hos : ∀ o ∈ os, o.quiet) : Consistent postcard monitors initial (d.record os) := by
  obtain ⟨hr, hp, hb⟩ := quiet_trace hos
  obtain ⟨hactive, hfifo, hframing, hclosed, hfinished⟩ := h
  refine ⟨?_, ?_, ?_, hclosed, hfinished⟩
  · simpa [Desk.record, hr] using hactive
  · simpa [Desk.record, hr, hp] using hfifo
  · simpa [Desk.record, hr, hb] using hframing

theorem Consistent.stay (h : Consistent postcard monitors initial d) :
    Consistent postcard monitors initial (d.apply (.next d.active none none)) := by
  rwa [apply_next_none]

theorem Consistent.leave (h : Consistent postcard monitors initial d) (reason : String) :
    Consistent postcard monitors initial (d.apply (.exit reason)) := by
  obtain ⟨hactive, hfifo, ⟨bodies, bad, hparsed, hdec, -⟩, -, hfinished⟩ := h
  exact ⟨hactive, hfifo, ⟨bodies, bad, hparsed, hdec, fun he => by cases he⟩,
    fun _ he => (by cases he), hfinished⟩

theorem Consistent.receive (h : Consistent postcard monitors initial d) (hexit : d.exit = none)
    {decoder : FrameDecoder} {body : List UInt8} {m : ControlMessage}
    (hframe : d.decoder.nextFrame = (decoder, .ok (some body)))
    (hdecode : decode postcard body = .ok m) :
    Consistent postcard monitors initial (({ d with decoder := decoder }.record [.received m]).apply
      (messageArm monitors d.active (some m))) := by
  obtain ⟨hactive, ⟨done, hdone, hqueue⟩, ⟨bodies, bad, hparsed, hdec, hbad⟩, hclosed,
    hfinished⟩ := h
  obtain ⟨hbuffer, hlen⟩ := nextFrame_some hframe
  rw [hbad hexit, List.append_nil, hbuffer] at hparsed
  have hparsed' : Parsed (bytesRead (d.trace ++ [.received m])) ((bodies ++ [body]) ++ [])
      decoder.buffer := by
    simpa using hparsed.snoc hlen
  have hdec' : List.Forall₂ (fun body m => decode postcard body = .ok m) (bodies ++ [body])
      (received (d.trace ++ [.received m])) := by
    rw [received_append]
    exact List.rel_append hdec (.cons hdecode .nil)
  have hinjecting : d.injecting = true := by
    by_contra hno
    exact absurd hexit (hclosed (hfinished (by simpa using hno)).2)
  have hreceived : received (d.trace ++ [.received m]) = received d.trace ++ [m] := by
    simp
  have hperformed : performed (d.trace ++ [.received m]) = performed d.trace := by
    simp
  have hlast : lastSelected monitors initial (received d.trace ++ [m]) =
      (selection monitors m).getD (lastSelected monitors initial (received d.trace)) :=
    lastSelected_snoc (received d.trace) m
  rcases messageArm_cases d.active m with ⟨hinput, hselect, reason, harm⟩ | ⟨reply, harm⟩
  · rw [harm]
    refine ⟨?_, ⟨done, ?_, ?_⟩, ⟨bodies ++ [body], [], hparsed', hdec', fun _ => rfl⟩,
      fun _ he => (by cases he), hfinished⟩
    · simp only [Desk.apply, Desk.record, hreceived, hlast, hselect, Option.getD_none, hactive]
    · simp only [Desk.apply, Desk.record, hperformed, hdone]
    · simp only [Desk.apply, Desk.record, hreceived]
      rw [translations_snoc, List.nil_append, ← hqueue]
      rw [hactive] at hinput
      simp [hinput]
  · rw [harm]
    have hquiet : ∀ o ∈ reply.toList.map Observation.replied, o.quiet := by
      intro o ho
      obtain ⟨x, -, rfl⟩ := List.mem_map.mp ho
      trivial
    obtain ⟨hr, hp, hb⟩ := quiet_trace hquiet
    refine ⟨?_, ⟨done, ?_, ?_⟩, ⟨bodies ++ [body], [], ?_, ?_, fun _ => rfl⟩, hclosed, ?_⟩
    · simp only [Desk.apply, Desk.record, received_append, hr, List.append_nil]
      rw [← received_append, hreceived, hlast]
      cases selection monitors m with
      | none => simpa using hactive
      | some s => rfl
    · simp only [Desk.apply, Desk.record, performed_append, hp, List.append_nil]
      rw [← performed_append, hperformed, hdone]
    · simp only [Desk.apply, Desk.record, received_append, hr, List.append_nil]
      rw [← received_append, hreceived, translations_snoc, List.nil_append, ← hqueue, hactive,
        List.append_assoc]
    · simpa only [Desk.apply, Desk.record, bytesRead_append, hb, List.append_nil] using hparsed'
    · simpa only [Desk.apply, Desk.record, received_append, hr, List.append_nil] using hdec'
    · intro hno
      simp only [Desk.apply, Desk.record] at hno
      rw [hinjecting] at hno
      cases hno

theorem Consistent.settle (h : Consistent postcard monitors initial d) (hexit : d.exit = none) :
    Consistent postcard monitors initial (d.settle monitors (pollFrame postcard d.decoder)) := by
  rw [pollFrame]
  cases hframe : d.decoder.nextFrame with
  | mk decoder result =>
    cases result with
    | error e =>
      obtain rfl := nextFrame_unchanged hframe fun _ => by simp
      exact h.leave _
    | ok frame =>
      cases frame with
      | none => exact h
      | some body =>
        dsimp only
        cases hdecode : decode postcard body with
        | ok m => exact h.receive hexit hframe hdecode
        | error e =>
          -- the frame is consumed without a message, and the loop ends
          obtain ⟨hactive, hfifo, ⟨bodies, bad, hparsed, hdec, hbad⟩, -, hfinished⟩ := h
          obtain ⟨hbuffer, hlen⟩ := nextFrame_some hframe
          rw [hbad hexit, List.append_nil, hbuffer] at hparsed
          exact ⟨hactive, hfifo, ⟨bodies, [body], hparsed.snoc hlen, hdec, fun he => by cases he⟩,
            fun _ he => (by cases he), hfinished⟩

theorem Consistent.recv (h : Consistent postcard monitors initial d) (hexit : d.exit = none)
    (r : ReadResult) : Consistent postcard monitors initial (d.recv postcard monitors r) := by
  unfold Desk.recv
  split_ifs with hframe
  · exact h.settle hexit
  · cases r with
    | bytes chunk =>
      obtain ⟨hactive, hfifo, ⟨bodies, bad, hparsed, hdec, hbad⟩, hclosed, hfinished⟩ := h
      have hread : Consistent postcard monitors initial
          ({ d with decoder := d.decoder.extend chunk }.record [.read chunk]) := by
        refine ⟨?_, ?_, ⟨bodies, bad, ?_, ?_, hbad⟩, hclosed, hfinished⟩
        · simpa [Desk.record] using hactive
        · simpa [Desk.record] using hfifo
        · simpa [Desk.record, FrameDecoder.extend] using hparsed.extend chunk
        · simpa [Desk.record] using hdec
      exact hread.settle hexit
    | finished => exact h.leave _
    | failed => exact h.leave _

theorem Consistent.inject (h : Consistent postcard monitors initial d)
    (hinjecting : d.injecting = true) (result : Except String Unit) :
    Consistent postcard monitors initial (d.inject result) := by
  rw [Desk.inject]
  cases hq : d.queue with
  | nil =>
    dsimp only
    split_ifs with hopen
    · exact h
    · obtain ⟨hactive, ⟨done, hdone, hqueue⟩, hframing, hclosed, -⟩ := h
      refine ⟨?_, ⟨done, ?_, ?_⟩, ?_, hclosed, fun _ => ⟨rfl, by simpa [Desk.record] using hopen⟩⟩
      · simpa [Desk.record] using hactive
      · rw [hinjecting, cond_true, List.append_nil] at hdone
        simp [Desk.record, hdone]
      · rw [hq] at hqueue
        simpa [Desk.record] using hqueue
      · simpa [Desk.record] using hframing
  | cons a queue =>
    obtain ⟨hactive, ⟨done, hdone, hqueue⟩, hframing, hclosed, -⟩ := h
    have happlied : Consistent postcard monitors initial
        ({ d with queue := queue }.record [.performed (.action a)]) := by
      refine ⟨?_, ⟨done ++ [a], ?_, ?_⟩, ?_, hclosed, fun hno => ?_⟩
      · simpa [Desk.record] using hactive
      · rw [hinjecting, cond_true, List.append_nil] at hdone
        simp [Desk.record, hdone, hinjecting]
      · rw [hq] at hqueue
        simpa [Desk.record] using hqueue
      · simpa [Desk.record] using hframing
      · simp only [Desk.record] at hno
        rw [hinjecting] at hno
        cases hno
    cases result with
    | ok _ => exact happlied
    | error e => exact happlied.record (by simp [Observation.quiet])

theorem Consistent.tick (h : Consistent postcard monitors initial d) (t : Tick) :
    Consistent postcard monitors initial (d.tick postcard monitors t) := by
  cases t with
  | command c =>
    simp only [Desk.tick]
    split_ifs with hexit
    · exact h
    have hrecord : Consistent postcard monitors initial (d.record [.command c]) :=
      h.record (by simp [Observation.quiet])
    rcases c with _ | _ | _ | _
    · exact hrecord.leave _
    · exact hrecord.stay
    · exact hrecord.stay
    · exact hrecord.leave _
  | recv r =>
    simp only [Desk.tick]
    split_ifs with hexit
    · exact h
    · exact h.recv (by simpa using hexit) r
  | teardown =>
    simp only [Desk.tick]
    split_ifs with hexit
    · obtain ⟨hactive, hfifo, hframing, -, hfinished⟩ := h
      refine ⟨hactive, hfifo, hframing, fun _ he => ?_, fun hno => ⟨(hfinished hno).1, rfl⟩⟩
      have hnone : d.exit = none := he
      rw [hnone] at hexit
      cases hexit
    · exact h
  | inject result =>
    simp only [Desk.tick]
    split_ifs with hinjecting
    · exact h.inject hinjecting result
    · exact h

theorem consistent_start : Consistent postcard monitors initial (.start initial) := by
  refine ⟨rfl, ⟨[], rfl, rfl⟩, ⟨[], [], parsed_nil [], .nil, fun _ => rfl⟩, fun h => ?_,
    fun h => ?_⟩
  · cases h
  · cases h

theorem Consistent.run (h : Consistent postcard monitors initial d) (ticks : List Tick) :
    Consistent postcard monitors initial (d.run postcard monitors ticks) := by
  induction ticks generalizing d with
  | nil => exact h
  | cons t ticks ih => exact ih (h.tick t)

theorem inject_finishes (results : List (Except String Unit)) (hclosed : d.senderOpen = false)
    (hlen : d.queue.length < results.length) :
    (d.run postcard monitors (results.map .inject)).injecting = false := by
  have hstay (d : Desk) (hd : d.injecting = false) (results : List (Except String Unit)) :
      (d.run postcard monitors (results.map .inject)).injecting = false := by
    induction results generalizing d with
    | nil => exact hd
    | cons r results ih => exact ih _ (by simp [Desk.tick, hd])
  induction results generalizing d with
  | nil => simp at hlen
  | cons r results ih =>
    by_cases hinjecting : d.injecting = true
    · rw [List.map_cons, Desk.run, List.foldl_cons]
      simp only [Desk.tick, if_pos hinjecting]
      rw [Desk.inject]
      cases hq : d.queue with
      | nil =>
        refine hstay _ ?_ results
        simp [hclosed, Desk.record]
      | cons a queue =>
        rw [hq, List.length_cons, List.length_cons] at hlen
        cases r with
        | ok _ => exact ih (by exact hclosed) (by simpa [Desk.record] using hlen)
        | error e => exact ih (by exact hclosed) (by simpa [Desk.record] using hlen)
    · exact hstay d (by simpa using hinjecting) _

/-- Input reaches the injector once, in order and on the selected monitor, with
one release behind it, however the loop, the reads and the thread interleave. -/
theorem input_applied_in_order (postcard : Postcard) (head : MonitorInfo)
    (rest : List MonitorInfo) (hfit : ∀ m ∈ head :: rest, FitsDesktop m) (ticks : List Tick) :
    let monitors := head :: rest
    let initial := firstMonitor head rest
    let d := (Desk.start initial).run postcard monitors ticks
    let inputs := translations monitors initial [] (received d.trace)
    -- the messages are those on the stream, in order
    (∃ bodies bad, Parsed (bytesRead d.trace) (bodies ++ bad) d.decoder.buffer ∧
      List.Forall₂ (fun body m => decode postcard body = .ok m) bodies (received d.trace) ∧
      (d.exit = none → bad = [])) ∧
    -- the injector performs their translations, and after them one release
    (∃ done, performed d.trace =
        done.map .action ++ (bif d.injecting then [] else [.releaseAll]) ∧
      done ++ d.queue = inputs) ∧
    (d.injecting = false → performed d.trace = inputs.map .action ++ [.releaseAll]) ∧
    (d.exit ≠ none → ∀ results : List (Except String Unit), d.queue.length < results.length →
      (d.run postcard monitors (.teardown :: results.map .inject)).injecting = false) ∧
    -- both copies of the active monitor are the last one validly selected
    d.active.monitor = lastSelected monitors initial (received d.trace) ∧
    d.active.activeId = d.active.monitor.id ∧
    ∀ before xNorm yNorm, ∃ m ∈ monitors, m = lastSelected monitors initial before ∧
      Inside m (normalizedToPixel xNorm yNorm m.originX m.originY m.widthPx m.heightPx) := by
  intro monitors initial d inputs
  have hinitial : initial ∈ monitors := by
    simp only [initial, firstMonitor, monitors]
    cases hfind : (head :: rest).find? (·.isPrimary) with
    | none => exact List.mem_cons_self ..
    | some m => exact List.mem_of_find?_eq_some hfind
  have h : Consistent postcard monitors initial d := consistent_start.run ticks
  refine ⟨h.framing, h.fifo, fun hno => ?_, fun hexit results hlen => ?_, ?_, ?_, ?_⟩
  · obtain ⟨done, hdone, hqueue⟩ := h.fifo
    rw [(h.finished hno).1, List.append_nil] at hqueue
    rw [hdone, hno, cond_false, hqueue]
  · rw [Desk.run, List.foldl_cons]
    have hsome : d.exit.isSome = true := Option.isSome_iff_ne_none.mpr hexit
    have htear : d.tick postcard monitors .teardown = { d with senderOpen := false } := by
      simp only [Desk.tick, if_pos hsome]
    rw [htear]
    exact inject_finishes results rfl hlen
  · rw [h.active]
  · rw [h.active]
  · intro before xNorm yNorm
    have hmem := lastSelected_mem hinitial before
    exact ⟨_, hmem, rfl, normalizedToPixel_inside (hfit _ hmem) xNorm yNorm⟩

def samplePostcard : Postcard where
  toVec m :=
    if m = .selectMonitor 1 then .ok [4, 1]
    else if m = .mouseButton .left .press then .ok [6, 0, 0]
    else if m = .disconnect "" then .ok [13, 0]
    else .error "not in the sample"
  fromBytes body :=
    if body = [4, 1] then .ok (.selectMonitor 1)
    else if body = [6, 0, 0] then .ok (.mouseButton .left .press)
    else if body = [13, 0] then .ok (.disconnect "")
    else .error "not in the sample"

def leftMonitor : MonitorInfo := ⟨0, "left", 0, 0, 1920, 1080, true⟩

def rightMonitor : MonitorInfo := ⟨1, "right", 1920, 0, 1280, 1024, false⟩

/-- A selection and a click arrive in pieces around an ignored command, and the click fails. -/
def sampleTicks : List Tick :=
  [.recv (.bytes [2, 0, 0]), .command (some .approve), .recv (.bytes [0, 4, 1, 3, 0, 0, 0, 6]),
    .recv (.bytes [0, 0, 2, 0, 0, 0, 13, 0]), .inject (.error "no display"), .recv .finished,
    .teardown, .inject (.ok ())]

theorem input_applied_in_order_sample :
    let d := (Desk.start leftMonitor).run samplePostcard [leftMonitor, rightMonitor] sampleTicks
    performed d.trace = [.action (.button .left .press), .releaseAll] ∧
      d.active = ⟨rightMonitor, 1⟩ := by
  have hfit : ∀ m ∈ [leftMonitor, rightMonitor], FitsDesktop m := by
    intro m hm
    rcases List.mem_cons.mp hm with rfl | hm
    · exact ⟨by decide, by decide, by decide, by decide⟩
    · rw [List.mem_singleton.mp hm]
      exact ⟨by decide, by decide, by decide, by decide⟩
  obtain ⟨-, -, hdone, -⟩ :=
    input_applied_in_order samplePostcard leftMonitor [rightMonitor] hfit sampleTicks
  exact ⟨hdone rfl, by rfl⟩

end Controlis.Session
