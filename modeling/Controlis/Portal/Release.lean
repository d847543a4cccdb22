import Controlis.Foundation.Runs
import Controlis.Portal.Injector
import Controlis.Portal.Queue

/-!
# Releasing everything through the portal

The EIS client looks keysyms up in the keymap of the compositor, perhaps long
after they were sent, and many keysyms have one key code. While there is one
keymap and no device is replaced, a keysym has one name in all of a run, and
what the devices have seen is what was applied under these names. So when the
queue has drained behind `release_all`, no key and no button is down.
-/

namespace Controlis.Portal
open Strokes
open Input (Operation)

variable {D : Type*}

def keyEvent : Entry D → Option (Stroke (ℕ × UInt32))
  | .sent (.key object code pressed) => some ((object, code), pressed)
  | _ => none

def buttonEvent : Entry D → Option (Stroke (ℕ × UInt32))
  | .sent (.button object code pressed) => some ((object, code), pressed)
  | _ => none

/-- What went to the devices: key codes and button codes, each with the object it went through. -/
def keyEvents (log : List (Entry D)) : List (Stroke (ℕ × UInt32)) :=
  log.filterMap keyEvent

def buttonEvents (log : List (Entry D)) : List (Stroke (ℕ × UInt32)) :=
  log.filterMap buttonEvent

namespace State

def keyCode (s : State D) (keysym : Int32) : Option (ℕ × UInt32) :=
  (s.keymap.bind (· keysym.toUInt32)).bind fun code => s.keyboard.map fun k => (k.objects, code)

def buttonCode (s : State D) (code : Int32) : Option (ℕ × UInt32) :=
  s.pointer.bind fun p => p.objects.button.map fun object => (object, code.toUInt32)

end State

theorem keyEvents_append (log log' : List (Entry D)) :
    keyEvents (log ++ log') = keyEvents log ++ keyEvents log' := List.filterMap_append ..

theorem buttonEvents_append (log log' : List (Entry D)) :
    buttonEvents (log ++ log') = buttonEvents log ++ buttonEvents log' := List.filterMap_append ..

theorem keyEvents_pointer (s : State D) (object : PointerObjects → Option ℕ)
    {request : ℕ → Request D} (h : ∀ o, keyEvent (.sent (request o)) = none) :
    keyEvents ((s.pointerRequests object request).map .sent) = [] := by
  unfold State.pointerRequests
  cases s.pointer with
  | none => rfl
  | some p =>
    have hframe : keyEvent (.sent (.frame p.device s.lastSerial)) = none := rfl
    cases hobject : object p.objects <;> simp [keyEvents, hobject, h, hframe]

theorem buttonEvents_pointer (s : State D) (object : PointerObjects → Option ℕ)
    {request : ℕ → Request D} (h : ∀ o, buttonEvent (.sent (request o)) = none) :
    buttonEvents ((s.pointerRequests object request).map .sent) = [] := by
  unfold State.pointerRequests
  cases s.pointer with
  | none => rfl
  | some p =>
    have hframe : buttonEvent (.sent (.frame p.device s.lastSerial)) = none := rfl
    cases hobject : object p.objects <;> simp [buttonEvents, hobject, h, hframe]

theorem keyEvents_apply (s : State D) (cmd : InputCmd) :
    keyEvents (s.apply cmd).log = keyEvents s.log ++ rename s.keyCode (keyStrokes [cmd]) := by
  rw [State.apply, keyEvents_append]
  congr 1
  cases cmd with
  | motion x y => exact keyEvents_pointer s _ fun _ => rfl
  | button code pressed => exact keyEvents_pointer s _ fun _ => rfl
  | axis dx dy => exact keyEvents_pointer s _ fun _ => rfl
  | key keysym pressed =>
    have hstroke : keyStrokes [.key keysym pressed] = [(keysym, pressed)] := rfl
    rw [hstroke, State.requests, rename]
    cases hcode : s.keymap.bind (· keysym.toUInt32) <;> cases hkeyboard : s.keyboard <;>
      simp [keyEvents, keyEvent, State.keyCode, hcode, hkeyboard]

theorem buttonEvents_apply (s : State D) (cmd : InputCmd) :
    buttonEvents (s.apply cmd).log =
      buttonEvents s.log ++ rename s.buttonCode (buttonStrokes [cmd]) := by
  rw [State.apply, buttonEvents_append]
  congr 1
  cases cmd with
  | motion x y => exact buttonEvents_pointer s _ fun _ => rfl
  | axis dx dy => exact buttonEvents_pointer s _ fun _ => rfl
  | key keysym pressed =>
    rw [State.requests]
    cases s.keymap.bind (· keysym.toUInt32) <;> cases s.keyboard <;> rfl
  | button code pressed =>
    have hstroke : buttonStrokes [.button code pressed] = [(code, pressed)] := rfl
    rw [hstroke, State.requests, State.pointerRequests, rename]
    cases hpointer : s.pointer with
    | none => simp [State.buttonCode, hpointer, buttonEvents]
    | some p =>
      cases hobject : p.objects.button <;>
        simp [buttonEvents, buttonEvent, State.buttonCode, hpointer, hobject]

variable [DecidableEq D]

def replaces (s : State D) (device : D) : Bool :=
  match s.devices device with
  | none => false
  | some data =>
    if (data "ei_keyboard").isSome then s.keyboard.isSome
    else ((data "ei_pointer_absolute").isSome || (data "ei_button").isSome ||
      (data "ei_scroll").isSome) && s.pointer.isSome

/-- The compositor sends one keymap and does not replace its devices. -/
def Calm (s : State D) : Event D → Prop
  | .done device => replaces s device = false
  | .keymap loaded => loaded.isSome → s.keymap.isNone
  | _ => True

instance (s : State D) (event : Event D) : Decidable (Calm s event) := by
  cases event <;> unfold Calm <;> infer_instance

structure Keeps (s s' : State D) : Prop where
  keys : keyEvents s'.log = keyEvents s.log
  buttons : buttonEvents s'.log = buttonEvents s.log
  keymap : s.keymap.isSome → s'.keymap = s.keymap
  keyboard : s.keyboard.isSome → s'.keyboard.map (·.objects) = s.keyboard.map (·.objects)
  pointer : s.pointer.isSome → s'.pointer.map (·.objects) = s.pointer.map (·.objects)

omit [DecidableEq D] in
theorem Keeps.refl (s : State D) : Keeps s s := ⟨rfl, rfl, fun _ => rfl, fun _ => rfl, fun _ => rfl⟩

theorem objects_setEmulating {I : Type*} (slot : Option (Emulator D I)) (device : D) (on : Bool) :
    (setEmulating slot device on).map (·.objects) = slot.map (·.objects) := by
  cases slot with
  | none => rfl
  | some e => by_cases h : e.device = device <;> simp [setEmulating, h]

theorem events_starts {I : Type*} (slot : Option (Emulator D I)) (device : D)
    (serial sequence : UInt32) : keyEvents (starts slot device serial sequence) = [] ∧
      buttonEvents (starts slot device serial sequence) = [] := by
  unfold starts
  split_ifs <;> exact ⟨rfl, rfl⟩

omit [DecidableEq D] in
theorem keeps_finishDevice {s : State D} {device : D} (h : replaces s device = false) :
    Keeps s (s.finishDevice device) := by
  unfold State.finishDevice
  unfold replaces at h
  cases hdata : s.devices device with
  | none => exact .refl s
  | some data =>
    rw [hdata] at h
    dsimp only at h ⊢
    cases hkeyboard : data "ei_keyboard" with
    | some keyboard =>
      have hfree : s.keyboard = none := by simpa [hkeyboard] using h
      exact { Keeps.refl s with keyboard := by simp [hfree] }
    | none =>
      dsimp only
      split_ifs with hobjects
      · have hfree : s.pointer = none := by simpa [hkeyboard, hobjects] using h
        exact { Keeps.refl s with pointer := by simp [hfree] }
      · exact .refl s

theorem keeps_unflushed {s : State D} {event : Event D} (h : Calm s event) :
    Keeps s (s.unflushed event) := by
  cases event with
  | done device => exact keeps_finishDevice h
  | resumed device serial =>
    obtain ⟨hpk, hpb⟩ := events_starts s.pointer device serial s.sequence
    obtain ⟨hkk, hkb⟩ := events_starts s.keyboard device serial s.sequence
    exact {
      keys := by simp [State.unflushed, keyEvents_append, hpk, hkk]
      buttons := by simp [State.unflushed, buttonEvents_append, hpb, hkb]
      keymap := fun _ => rfl
      keyboard := fun _ => objects_setEmulating s.keyboard device true
      pointer := fun _ => objects_setEmulating s.pointer device true }
  | paused device serial =>
    exact {
      keys := by simp [State.unflushed, step, State.pause, keyEvents, keyEvent]
      buttons := by simp [State.unflushed, step, State.pause, buttonEvents, buttonEvent]
      keymap := fun _ => rfl
      keyboard := fun _ => objects_setEmulating s.keyboard device false
      pointer := fun _ => objects_setEmulating s.pointer device false }
  | keymap loaded =>
    cases loaded with
    | none => exact .refl s
    | some keymap =>
      have hfree : s.keymap = none := by simpa [Calm] using h
      exact { Keeps.refl s with keymap := by simp [hfree] }
  | _ => exact { Keeps.refl s with }

/-- What was emitted is what was applied, under the names that are still in use. -/
structure Emitted (c : Client D) : Prop where
  keys : keyEvents c.state.log = rename c.state.keyCode (keyStrokes c.applied)
  buttons : buttonEvents c.state.log = rename c.state.buttonCode (buttonStrokes c.applied)
  keyed : keyStrokes c.applied ≠ [] → c.state.keymap.isSome ∧ c.state.keyboard.isSome
  pointed : buttonStrokes c.applied ≠ [] → c.state.pointer.isSome

variable {c : Client D} {s : State D}

omit [DecidableEq D] in
theorem emitted_new : Emitted (.new : Client D) :=
  ⟨rfl, rfl, fun h => absurd rfl h, fun h => absurd rfl h⟩

omit [DecidableEq D] in
theorem keyCode_congr {s' : State D} (hkeymap : s'.keymap = s.keymap)
    (hkeyboard : s'.keyboard.map (·.objects) = s.keyboard.map (·.objects)) :
    s'.keyCode = s.keyCode := by
  have hmap (s : State D) (code : UInt32) : (s.keyboard.map fun k => (k.objects, code)) =
      (s.keyboard.map (·.objects)).map (·, code) := by
    rw [Option.map_map]
    rfl
  funext keysym
  simp only [State.keyCode, hmap, hkeymap, hkeyboard]

omit [DecidableEq D] in
theorem buttonCode_congr {s' : State D}
    (hpointer : s'.pointer.map (·.objects) = s.pointer.map (·.objects)) :
    s'.buttonCode = s.buttonCode := by
  have hbind (s : State D) (code : Int32) : s.buttonCode code =
      (s.pointer.map (·.objects)).bind fun p => p.button.map fun o => (o, code.toUInt32) := by
    rw [Option.bind_map]
    rfl
  funext code
  rw [hbind, hbind, hpointer]

omit [DecidableEq D] in
theorem Emitted.keeps {s' : State D} (h : Emitted c) (hkeeps : Keeps c.state s') :
    Emitted { c with state := s' } where
  keys := by
    dsimp only
    rw [hkeeps.keys, h.keys]
    by_cases hnone : keyStrokes c.applied = []
    · rw [hnone]
      rfl
    · obtain ⟨hkeymap, hkeyboard⟩ := h.keyed hnone
      rw [keyCode_congr (hkeeps.keymap hkeymap) (hkeeps.keyboard hkeyboard)]
  buttons := by
    dsimp only
    rw [hkeeps.buttons, h.buttons]
    by_cases hnone : buttonStrokes c.applied = []
    · rw [hnone]
      rfl
    · rw [buttonCode_congr (hkeeps.pointer (h.pointed hnone))]
  keyed hsome := by
    obtain ⟨hkeymap, hkeyboard⟩ := h.keyed hsome
    refine ⟨by rw [hkeeps.keymap hkeymap]; exact hkeymap, ?_⟩
    rw [← Option.isSome_map, hkeeps.keyboard hkeyboard, Option.isSome_map]
    exact hkeyboard
  pointed hsome := by
    have hpointer := h.pointed hsome
    rw [← Option.isSome_map, hkeeps.pointer hpointer, Option.isSome_map]
    exact hpointer

omit [DecidableEq D] in
theorem Emitted.onInput (h : Emitted c) (cmd : InputCmd) : Emitted (c.onInput cmd) := by
  unfold Client.onInput
  split_ifs with hcan
  · exact {
      keys := by
        dsimp only
        rw [keyEvents_apply, h.keys, keyStrokes_append, rename_append]
        rfl
      buttons := by
        dsimp only
        rw [buttonEvents_apply, h.buttons, buttonStrokes_append, rename_append]
        rfl
      keyed := fun hsome => by
        cases cmd with
        | key keysym pressed =>
          simp only [State.canApply, Bool.and_eq_true] at hcan
          exact ⟨hcan.1, Option.isSome_of_any hcan.2⟩
        | _ =>
          rw [keyStrokes_skip rfl] at hsome
          exact h.keyed hsome
      pointed := fun hsome => by
        cases cmd with
        | key keysym pressed =>
          rw [buttonStrokes_skip rfl] at hsome
          exact h.pointed hsome
        | _ => exact Option.isSome_of_any hcan }
  · exact h.keeps { Keeps.refl c.state with }

omit [DecidableEq D] in
theorem Emitted.flushPending (h : Emitted c) : Emitted c.flushPending := by
  have hstart : Emitted { c with state := { c.state with pending := [] } } :=
    h.keeps { Keeps.refl c.state with }
  exact Runs.invariant hstart fun c cmd hc => hc.onInput cmd

theorem Emitted.step {event : Event D} (h : Emitted c) (hcalm : Calm c.state event) :
    Emitted (c.step event) := by
  by_cases hinput : ∀ cmd, event ≠ .input cmd
  · have hnext := h.keeps (keeps_unflushed hcalm)
    rw [step_of_event c hinput]
    split_ifs
    · exact hnext.flushPending
    · exact hnext
  · push Not at hinput
    obtain ⟨cmd, rfl⟩ := hinput
    have hsubmitted : Emitted { c with submitted := c.submitted ++ [cmd] } :=
      ⟨h.keys, h.buttons, h.keyed, h.pointed⟩
    exact hsubmitted.onInput cmd

theorem Emitted.run {events : List (Event D)} (h : Emitted c)
    (hcalm : Runs.Meets Portal.step Calm c.state events) : Emitted (c.run events) := by
  induction events generalizing c with
  | nil => exact h
  | cons event events ih =>
    apply ih (h.step hcalm.1)
    rw [step_state]
    exact hcalm.2

def inputOf : Event D → Option InputCmd
  | .input cmd => some cmd
  | _ => none

def inputsOf (events : List (Event D)) : List InputCmd := events.filterMap inputOf

theorem step_submitted (c : Client D) (event : Event D) :
    (c.step event).submitted = c.submitted ++ inputsOf [event] := by
  by_cases hinput : ∀ cmd, event ≠ .input cmd
  · have hnone : inputsOf [event] = [] := by
      cases event with
      | input cmd => exact absurd rfl (hinput cmd)
      | _ => rfl
    rw [step_of_event c hinput, hnone, List.append_nil]
    split_ifs
    · exact (foldl_onInput _ _).2.2.1
    · rfl
  · push Not at hinput
    obtain ⟨cmd, rfl⟩ := hinput
    exact (foldl_onInput { c with submitted := c.submitted ++ [cmd] } [cmd]).2.2.1

theorem run_submitted (c : Client D) (events : List (Event D)) :
    (c.run events).submitted = c.submitted ++ inputsOf events := by
  induction events generalizing c with
  | nil => exact (List.append_nil _).symm
  | cons event events ih =>
    rw [Client.run, List.foldl_cons, ← Client.run, ih, step_submitted, List.append_assoc]
    exact congrArg (c.submitted ++ ·) (List.filterMap_append (l := [event])).symm

theorem keyStrokes_ofClass (cmds : List InputCmd) :
    keyStrokes (ofClass true cmds) = keyStrokes cmds := by
  rw [keyStrokes, ofClass, List.filterMap_filter]
  congr 1
  funext cmd
  cases cmd <;> rfl

theorem buttonStrokes_ofClass (cmds : List InputCmd) :
    buttonStrokes (ofClass false cmds) = buttonStrokes cmds := by
  rw [buttonStrokes, ofClass, List.filterMap_filter]
  congr 1
  funext cmd
  cases cmd <;> rfl

theorem devices_allUp {events : List (Event D)} (hcalm : Runs.Meets step Calm .new events)
    (hdrained : (events.foldl step .new).pending = [])
    (hkeys : AllUp (keyStrokes (inputsOf events)))
    (hbuttons : AllUp (buttonStrokes (inputsOf events))) :
    AllUp (keyEvents (events.foldl step .new).log) ∧
      AllUp (buttonEvents (events.foldl step .new).log) := by
  have hemitted : Emitted (Client.new.run events) := emitted_new.run hcalm
  have hqueued : Queued (Client.new.run events) := queued_new.run events
  have hstate : (Client.new.run events).state = events.foldl step .new := run_state .new events
  have hsubmitted : (Client.new.run events).submitted = inputsOf events := run_submitted .new events
  have hclass (keyboard : Bool) : ofClass keyboard (Client.new.run events).applied =
      ofClass keyboard (inputsOf events) := by
    have hfifo := hqueued.fifo keyboard
    rw [hstate, hdrained, hsubmitted] at hfifo
    rw [← hfifo]
    exact (List.append_nil _).symm
  rw [← hstate]
  constructor
  · rw [hemitted.keys, ← keyStrokes_ofClass, hclass true, keyStrokes_ofClass]
    exact hkeys.rename
  · rw [hemitted.buttons, ← buttonStrokes_ofClass, hclass false, buttonStrokes_ofClass]
    exact hbuttons.rename

theorem release_all_frees_the_devices (ops : List Operation) {events : List (Event D)}
    (hsent : inputsOf events = (PortalInjector.new.performAll (ops ++ [.releaseAll])).2)
    (hcalm : Runs.Meets step Calm .new events) (hdrained : (events.foldl step .new).pending = []) :
    AllUp (keyEvents (events.foldl step .new).log) ∧
      AllUp (buttonEvents (events.foldl step .new).log) := by
  obtain ⟨hkeys, hbuttons⟩ := sent_allUp ops
  exact devices_allUp hcalm hdrained (hsent ▸ hkeys) (hsent ▸ hbuttons)

/-- `a` and `A` share a key; they wait for the keymap and for the resumed keyboard. -/
def shared : List Operation :=
  [.key (.unicode 'a') .press, .key (.unicode 'A') .press, .mouseButton .left .press,
    .key (.function 13) .press]

def sharedRun : List (Event ℕ) :=
  [.connection, .seatDevice 0, .interface 0 "ei_keyboard" 7, .done 0, .seatDevice 1,
    .interface 1 "ei_button" 8, .done 1, .resumed 1 1, .input (.key 0x61 true),
    .keymap (some fun sym => if sym = 0x61 ∨ sym = 0x41 then some 30 else none),
    .input (.key 0x41 true), .resumed 0 2, .input (.button 0x110 true), .paused 0 3,
    .input (.key 0x61 false), .input (.key 0x41 false), .input (.button 0x110 false),
    .resumed 0 4]

theorem release_all_frees_the_devices_shared :
    AllUp (keyEvents (sharedRun.foldl step .new).log) ∧
      AllUp (buttonEvents (sharedRun.foldl step .new).log) :=
  release_all_frees_the_devices shared (by decide) (by decide) (by decide)

end Controlis.Portal
