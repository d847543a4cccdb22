import Controlis.Portal.EisInput

/-!
# The queue of the EIS client

A `Client` keeps beside its state which commands it was given and which it
handed to `apply`. A command overtakes the queue whenever it looks applicable;
keyboard and pointer commands never share that condition, and every event that
makes a class applicable empties the queue of it. So each class is served in
the order it came.
-/

namespace Controlis.Portal

variable {D : Type*}

/-- Keyboard commands are one class, motion, buttons and axes the other. -/
def InputCmd.keyboard : InputCmd → Bool
  | .key _ _ => true
  | _ => false

def ofClass (keyboard : Bool) (cmds : List InputCmd) : List InputCmd :=
  cmds.filter (·.keyboard == keyboard)

structure Client (D : Type*) where
  state : State D
  submitted : List InputCmd
  applied : List InputCmd

def Client.new : Client D := ⟨.new, [], []⟩

def Client.onInput (c : Client D) (cmd : InputCmd) : Client D :=
  if c.state.canApply cmd then
    { c with state := c.state.apply cmd, applied := c.applied ++ [cmd] }
  else { c with state := { c.state with pending := c.state.pending ++ [cmd] } }

def Client.flushPending (c : Client D) : Client D :=
  c.state.pending.foldl Client.onInput { c with state := { c.state with pending := [] } }

variable [DecidableEq D]

def State.unflushed (s : State D) : Event D → State D
  | .resumed device serial =>
    { s with
      lastSerial := serial
      pointer := setEmulating s.pointer device true
      keyboard := setEmulating s.keyboard device true
      log := s.log ++ starts s.pointer device serial s.sequence ++
        starts s.keyboard device serial s.sequence
      sequence := if waits s.pointer device || waits s.keyboard device then s.sequence + 1
        else s.sequence }
  | .keymap (some keymap) => { s with keymap := some keymap }
  | .input _ => s
  | event => step s event

def State.flushes (s : State D) : Event D → Bool
  | .resumed device _ => waits s.pointer device || waits s.keyboard device
  | .keymap loaded => loaded.isSome
  | _ => false

def Client.step (c : Client D) : Event D → Client D
  | .input cmd => { c with submitted := c.submitted ++ [cmd] }.onInput cmd
  | event =>
    let next := { c with state := c.state.unflushed event }
    if c.state.flushes event then next.flushPending else next

def Client.run (c : Client D) (events : List (Event D)) : Client D := events.foldl Client.step c

omit [DecidableEq D] in
theorem onInput_state (c : Client D) (cmd : InputCmd) :
    (c.onInput cmd).state = c.state.onInput cmd := by
  unfold Client.onInput State.onInput
  split_ifs <;> rfl

omit [DecidableEq D] in
theorem foldl_onInput_state (c : Client D) (cmds : List InputCmd) :
    (cmds.foldl Client.onInput c).state = cmds.foldl State.onInput c.state := by
  induction cmds generalizing c with
  | nil => rfl
  | cons cmd cmds ih => rw [List.foldl_cons, List.foldl_cons, ih, onInput_state]

omit [DecidableEq D] in
theorem flushPending_state (c : Client D) : c.flushPending.state = c.state.flushPending :=
  foldl_onInput_state _ _

theorem step_state (c : Client D) (event : Event D) :
    (c.step event).state = Portal.step c.state event := by
  cases event with
  | input cmd => exact onInput_state _ cmd
  | resumed device serial =>
    cases hstarted : waits c.state.pointer device || waits c.state.keyboard device with
    | true =>
      simp only [Client.step, State.flushes, hstarted, if_true, flushPending_state, Portal.step,
        State.resume, State.unflushed]
    | false =>
      simp [Client.step, State.flushes, hstarted, Portal.step, State.resume, State.unflushed]
  | keymap loaded =>
    cases loaded with
    | none => rfl
    | some keymap => exact flushPending_state _
  | _ => rfl

theorem run_state (c : Client D) (events : List (Event D)) :
    (c.run events).state = events.foldl Portal.step c.state := by
  induction events generalizing c with
  | nil => rfl
  | cons event events ih =>
    rw [Client.run, List.foldl_cons, ← Client.run, ih, step_state, List.foldl_cons]

variable {c : Client D} {s : State D} {cmd cmd' : InputCmd} {event : Event D}

omit [DecidableEq D] in
theorem canApply_class (s : State D) (h : cmd.keyboard = cmd'.keyboard) :
    s.canApply cmd = s.canApply cmd' := by
  cases cmd <;> cases cmd' <;> first | rfl | cases h

omit [DecidableEq D] in
theorem canApply_pending (s : State D) (pending : List InputCmd) :
    State.canApply { s with pending := pending } = s.canApply := by
  funext cmd
  cases cmd <;> rfl

omit [DecidableEq D] in
theorem canApply_onInput (c : Client D) (cmd cmd' : InputCmd) :
    (c.onInput cmd).state.canApply cmd' = c.state.canApply cmd' := by
  unfold Client.onInput
  split_ifs <;> cases cmd' <;> rfl

omit [DecidableEq D] in
theorem foldl_onInput (c : Client D) (cmds : List InputCmd) :
    (cmds.foldl Client.onInput c).applied = c.applied ++ cmds.filter c.state.canApply ∧
    (cmds.foldl Client.onInput c).state.pending =
      c.state.pending ++ cmds.filter (!c.state.canApply ·) ∧
    (cmds.foldl Client.onInput c).submitted = c.submitted ∧
    ∀ cmd, (cmds.foldl Client.onInput c).state.canApply cmd = c.state.canApply cmd := by
  induction cmds generalizing c with
  | nil => simp
  | cons cmd cmds ih =>
    obtain ⟨happlied, hpending, hsubmitted, hcan⟩ := ih (c.onInput cmd)
    have hsame : (c.onInput cmd).state.canApply = c.state.canApply :=
      funext (canApply_onInput c cmd)
    rw [hsame] at happlied hpending
    rw [List.foldl_cons]
    refine ⟨?_, ?_, ?_, fun cmd' => by rw [hcan, hsame]⟩
    · rw [happlied]
      by_cases h : c.state.canApply cmd <;> simp [Client.onInput, h]
    · rw [hpending]
      by_cases h : c.state.canApply cmd <;> simp [Client.onInput, h, State.apply]
    · rw [hsubmitted]
      by_cases h : c.state.canApply cmd <;> simp [Client.onInput, h]

/-- Nothing is lost, doubled or overtaken within a class, and nothing waits in vain. -/
structure Queued (c : Client D) : Prop where
  fifo : ∀ keyboard, ofClass keyboard c.applied ++ ofClass keyboard c.state.pending =
    ofClass keyboard c.submitted
  idle : ∀ cmd ∈ c.state.pending, c.state.canApply cmd = false

omit [DecidableEq D] in
theorem ofClass_append (keyboard : Bool) (xs ys : List InputCmd) :
    ofClass keyboard (xs ++ ys) = ofClass keyboard xs ++ ofClass keyboard ys :=
  List.filter_append ..

omit [DecidableEq D] in
theorem ofClass_filter {can : InputCmd → Bool} {b : Bool} (keyboard : Bool) (cmds : List InputCmd)
    (h : ∀ cmd, cmd.keyboard = keyboard → can cmd = b) :
    ofClass keyboard (cmds.filter can) = bif b then ofClass keyboard cmds else [] := by
  rw [ofClass, List.filter_filter]
  cases b with
  | true =>
    apply List.filter_congr
    intro cmd _
    by_cases hclass : cmd.keyboard = keyboard <;> simp [hclass, h]
  | false =>
    apply List.filter_eq_nil_iff.mpr
    intro cmd _
    by_cases hclass : cmd.keyboard = keyboard <;> simp [hclass, h]

omit [DecidableEq D] in
/-- A class is applicable as a whole or not at all. -/
theorem exists_canApply (s : State D) (keyboard : Bool) :
    ∃ b, ∀ cmd, cmd.keyboard = keyboard → s.canApply cmd = b := by
  cases keyboard with
  | true => exact ⟨s.canApply (.key 0 false), fun cmd h => canApply_class s h⟩
  | false => exact ⟨s.canApply (.axis ⟨0⟩ ⟨0⟩), fun cmd h => canApply_class s h⟩

omit [DecidableEq D] in
theorem ofClass_split (s : State D) (keyboard : Bool) (cmds : List InputCmd) :
    ofClass keyboard (cmds.filter s.canApply) ++ ofClass keyboard (cmds.filter (!s.canApply ·)) =
      ofClass keyboard cmds := by
  obtain ⟨b, hb⟩ := exists_canApply s keyboard
  have hnot : ∀ cmd : InputCmd, cmd.keyboard = keyboard → (!s.canApply cmd) = !b :=
    fun cmd h => congrArg (!·) (hb cmd h)
  rw [ofClass_filter keyboard cmds hb, ofClass_filter keyboard cmds hnot]
  cases b <;> simp

omit [DecidableEq D] in
theorem Queued.flush (h : ∀ keyboard, ofClass keyboard c.applied ++
    ofClass keyboard c.state.pending = ofClass keyboard c.submitted) : Queued c.flushPending := by
  obtain ⟨happlied, hpending, hsubmitted, hcan⟩ :=
    foldl_onInput { c with state := { c.state with pending := [] } } c.state.pending
  rw [canApply_pending] at happlied hpending
  rw [List.nil_append] at hpending
  refine ⟨fun keyboard => ?_, fun cmd hcmd => ?_⟩
  · rw [Client.flushPending, happlied, hpending, hsubmitted, ofClass_append, List.append_assoc,
      ofClass_split]
    exact h keyboard
  · rw [Client.flushPending] at hcmd ⊢
    rw [hpending] at hcmd
    rw [hcan, canApply_pending]
    simpa using (List.mem_filter.mp hcmd).2

omit [DecidableEq D] in
theorem Queued.submit (h : Queued c) (cmd : InputCmd) :
    Queued ({ c with submitted := c.submitted ++ [cmd] }.onInput cmd) := by
  unfold Client.onInput
  split_ifs with hcan
  · -- the class of an applicable command has nothing in the queue
    have hnone : ofClass cmd.keyboard c.state.pending = [] := by
      apply List.filter_eq_nil_iff.mpr
      intro queued hqueued hclass
      have hidle := h.idle queued hqueued
      rw [canApply_class c.state (beq_iff_eq.mp hclass)] at hidle
      rw [hidle] at hcan
      cases hcan
    refine ⟨fun keyboard => ?_, fun queued hqueued => ?_⟩
    · have hpending : (c.state.apply cmd).pending = c.state.pending := rfl
      dsimp only
      rw [hpending, ofClass_append, ofClass_append, ← h.fifo keyboard]
      by_cases hclass : cmd.keyboard = keyboard
      · rw [← hclass, hnone, List.append_nil, List.append_nil]
      · have hother : ofClass keyboard [cmd] = [] := by simp [ofClass, hclass]
        rw [hother, List.append_nil, List.append_nil]
    · rw [← h.idle queued hqueued]
      cases queued <;> rfl
  · refine ⟨fun keyboard => ?_, fun queued hqueued => ?_⟩
    · dsimp only
      rw [ofClass_append, ofClass_append, ← h.fifo keyboard, List.append_assoc]
    · rw [canApply_pending]
      rcases List.mem_append.mp hqueued with hqueued | hqueued
      · exact h.idle queued hqueued
      · obtain rfl := List.mem_singleton.mp hqueued
        simpa using hcan

section Slot
variable {I : Type*}

theorem any_setEmulating_false (slot : Option (Emulator D I)) (device : D)
    (h : (setEmulating slot device false).any (·.emulating) = true) :
    slot.any (·.emulating) = true := by
  cases slot with
  | none => cases h
  | some e =>
    by_cases hd : e.device = device
    · simp [setEmulating, hd] at h
    · simpa [setEmulating, hd] using h

theorem setEmulating_of_not_waits {slot : Option (Emulator D I)} {device : D}
    (h : waits slot device = false) : setEmulating slot device true = slot := by
  cases slot with
  | none => rfl
  | some e =>
    by_cases hd : e.device = device
    · have hon : e.emulating = true := by simpa [waits, hd] using h
      obtain ⟨device', objects, emulating⟩ := e
      subst hd hon
      simp [setEmulating]
    · simp [setEmulating, hd]

end Slot

theorem unflushed_pending (s : State D) (event : Event D) (hinput : ∀ cmd, event ≠ .input cmd) :
    (s.unflushed event).pending = s.pending := by
  cases event with
  | input cmd => exact absurd rfl (hinput cmd)
  | done device =>
    simp only [State.unflushed, step, State.finishDevice]
    split
    · rfl
    · split
      · rfl
      · split_ifs <;> rfl
  | keymap loaded => cases loaded <;> rfl
  | _ => rfl

theorem canApply_unflushed (hflush : s.flushes event = false)
    (hcan : (s.unflushed event).canApply cmd = true) : s.canApply cmd = true := by
  have hslots {s' : State D} (h : s'.canApply cmd = true)
      (hp : s'.pointer.any (·.emulating) = true → s.pointer.any (·.emulating) = true)
      (hk : s'.keyboard.any (·.emulating) = true → s.keyboard.any (·.emulating) = true)
      (hm : s'.keymap = s.keymap) : s.canApply cmd = true := by
    cases cmd with
    | key keysym pressed =>
      simp only [State.canApply, Bool.and_eq_true, hm] at h ⊢
      exact ⟨h.1, hk h.2⟩
    | _ => exact hp h
  cases event with
  | input cmd => exact hcan
  | done device =>
    simp only [State.unflushed, step, State.finishDevice] at hcan
    split at hcan
    · exact hcan
    · split at hcan
      · exact hslots hcan id (fun h => by simp at h) rfl
      · split_ifs at hcan
        · exact hslots hcan (fun h => by simp at h) id rfl
        · exact hcan
  | resumed device serial =>
    obtain ⟨hp, hk⟩ : waits s.pointer device = false ∧ waits s.keyboard device = false := by
      simpa [State.flushes] using hflush
    refine hslots hcan ?_ ?_ rfl
    · simp only [State.unflushed, setEmulating_of_not_waits hp]
      exact id
    · simp only [State.unflushed, setEmulating_of_not_waits hk]
      exact id
  | paused device serial =>
    exact hslots hcan (any_setEmulating_false _ _) (any_setEmulating_false _ _) rfl
  | keymap loaded =>
    cases loaded with
    | none => exact hcan
    | some keymap => cases hflush
  | _ => exact hslots hcan id id rfl

theorem step_of_event (c : Client D) (hinput : ∀ cmd, event ≠ .input cmd) : c.step event =
    if c.state.flushes event then { c with state := c.state.unflushed event }.flushPending
    else { c with state := c.state.unflushed event } := by
  cases event with
  | input cmd => exact absurd rfl (hinput cmd)
  | _ => rfl

theorem Queued.step (h : Queued c) (event : Event D) : Queued (c.step event) := by
  by_cases hinput : ∀ cmd, event ≠ .input cmd
  · have hpending := unflushed_pending c.state event hinput
    rw [step_of_event c hinput]
    split_ifs with hflush
    · refine Queued.flush fun keyboard => ?_
      dsimp only
      rw [hpending]
      exact h.fifo keyboard
    · refine ⟨fun keyboard => ?_, fun cmd hcmd => ?_⟩
      · dsimp only
        rw [hpending]
        exact h.fifo keyboard
      · dsimp only at hcmd ⊢
        rw [hpending] at hcmd
        cases hcan : (c.state.unflushed event).canApply cmd with
        | false => rfl
        | true =>
          have happlicable := canApply_unflushed (by simpa using hflush) hcan
          rw [h.idle cmd hcmd] at happlicable
          cases happlicable
  · push Not at hinput
    obtain ⟨cmd, rfl⟩ := hinput
    exact h.submit cmd

omit [DecidableEq D] in
theorem queued_new : Queued (.new : Client D) :=
  ⟨fun _ => rfl, fun _ h => by cases h⟩

theorem Queued.run (h : Queued c) (events : List (Event D)) : Queued (c.run events) := by
  induction events generalizing c with
  | nil => exact h
  | cons event events ih => exact ih (h.step event)

/-- In every run, whatever devices and keymaps do between the commands. -/
theorem queue_keeps_classes_in_order (events : List (Event D)) :
    Queued (Client.new.run events) ∧
      (Client.new.run events).state = events.foldl Portal.step .new :=
  ⟨queued_new.run events, run_state .new events⟩

end Controlis.Portal
