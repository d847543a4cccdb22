import Mathlib.Algebra.Order.Ring.Nat
import Mathlib.Logic.Function.Basic
import Mathlib.Tactic.Common

/-!
# The EIS input client

The client keeps one slot for a pointer device and one for a keyboard. A device
announces its interfaces, is done, and is then resumed and paused by the
compositor; a resumed device in a slot is sent `start_emulating`. Commands that
no device can take yet wait in a queue. When the thread ends, whatever the
reason, it stops the devices in the slots and disconnects. The log holds the
requests sent and the pauses received, in order.
-/

namespace Controlis.Portal

structure F64 where
  bits : UInt64
deriving DecidableEq, Repr

inductive InputCmd
  | motion (x y : F64)
  | button (code : Int32) (pressed : Bool)
  | axis (dx dy : F64)
  | key (keysym : Int32) (pressed : Bool)
deriving DecidableEq, Repr

/-- Interface objects are named by numbers. Coordinates are rounded to `f32` on the wire. -/
inductive Request (D : Type*)
  | startEmulating (device : D) (serial sequence : UInt32)
  | stopEmulating (device : D) (serial : UInt32)
  | frame (device : D) (serial : UInt32)
  | motionAbsolute (object : ℕ) (x y : F64)
  | button (object : ℕ) (code : UInt32) (pressed : Bool)
  | scroll (object : ℕ) (dx dy : F64)
  | key (object : ℕ) (code : UInt32) (pressed : Bool)
  | disconnect
deriving DecidableEq, Repr

inductive Entry (D : Type*)
  | sent (request : Request D)
  | paused (device : D)
deriving DecidableEq, Repr

/-- A device in a slot, with the objects it was announced with. -/
structure Emulator (D I : Type*) where
  device : D
  objects : I
  emulating : Bool
deriving DecidableEq, Repr

structure PointerObjects where
  absolute : Option ℕ
  button : Option ℕ
  scroll : Option ℕ
deriving DecidableEq, Repr

abbrev PointerDevice (D : Type*) := Emulator D PointerObjects

abbrev KeyboardDevice (D : Type*) := Emulator D ℕ

section Slot

variable {D I : Type*} [DecidableEq D] (slot : Option (Emulator D I)) (device : D)

def holds : Bool := slot.any fun e => e.device = device

def active : Bool := slot.any fun e => e.device = device ∧ e.emulating

def waits : Bool := slot.any fun e => e.device = device ∧ ¬ e.emulating

def setEmulating (emulating : Bool) : Option (Emulator D I) :=
  slot.map fun e => if e.device = device then { e with emulating := emulating } else e

def starts (serial sequence : UInt32) : List (Entry D) :=
  if waits slot device then [.sent (.startEmulating device serial sequence)] else []

omit [DecidableEq D] in
def stops (serial : UInt32) : List (Entry D) :=
  match slot with
  | some e => if e.emulating then [.sent (.stopEmulating e.device serial)] else []
  | none => []

end Slot

structure State (D : Type*) where
  connected : Bool
  devices : D → Option (String → Option ℕ)
  pointer : Option (PointerDevice D)
  keyboard : Option (KeyboardDevice D)
  /-- Keysym to evdev keycode. -/
  keymap : Option (UInt32 → Option UInt32)
  lastSerial : UInt32
  sequence : UInt32
  pending : List InputCmd
  log : List (Entry D)

def State.new {D : Type*} : State D where
  connected := false
  devices := fun _ => none
  pointer := none
  keyboard := none
  keymap := none
  lastSerial := 0
  sequence := 0
  pending := []
  log := []

namespace State

variable {D : Type*} (s : State D)

def canApply : InputCmd → Bool
  | .key _ _ => s.keymap.isSome && s.keyboard.any (·.emulating)
  | _ => s.pointer.any (·.emulating)

def pointerRequests (object : PointerObjects → Option ℕ) (request : ℕ → Request D) :
    List (Request D) :=
  match s.pointer with
  | none => []
  | some p => ((object p.objects).map request).toList ++ [.frame p.device s.lastSerial]

def requests : InputCmd → List (Request D)
  | .motion x y => s.pointerRequests (·.absolute) (.motionAbsolute · x y)
  | .button code pressed => s.pointerRequests (·.button) (.button · code.toUInt32 pressed)
  | .axis dx dy => s.pointerRequests (·.scroll) (.scroll · dx dy)
  | .key keysym pressed =>
    match s.keymap.bind (· keysym.toUInt32), s.keyboard with
    | some code, some k => [.key k.objects code pressed, .frame k.device s.lastSerial]
    | _, _ => []

def apply (cmd : InputCmd) : State D :=
  { s with log := s.log ++ (s.requests cmd).map .sent }

def onInput (cmd : InputCmd) : State D :=
  if s.canApply cmd then s.apply cmd else { s with pending := s.pending ++ [cmd] }

def flushPending : State D :=
  s.pending.foldl onInput { s with pending := [] }

def loadKeymap : Option (UInt32 → Option UInt32) → State D
  | none => s
  | some keymap => { s with keymap := some keymap }.flushPending

def teardown [DecidableEq D] : State D :=
  { s with
    pointer := s.pointer.map ({ · with emulating := false })
    keyboard := s.keyboard.map ({ · with emulating := false })
    log := s.log ++ stops s.pointer s.lastSerial ++ stops s.keyboard s.lastSerial ++
      if s.connected then [.sent .disconnect] else [] }

variable [DecidableEq D]

def interface (device : D) (name : String) (object : ℕ) : State D :=
  { s with devices := fun d =>
      if d = device then (s.devices d).map (Function.update · name (some object))
      else s.devices d }

/-- A keyboard is a keyboard even if it has pointer interfaces too. -/
def finishDevice (device : D) : State D :=
  match s.devices device with
  | none => s
  | some data =>
    match data "ei_keyboard" with
    | some keyboard => { s with keyboard := some ⟨device, keyboard, false⟩ }
    | none =>
      let objects : PointerObjects :=
        ⟨data "ei_pointer_absolute", data "ei_button", data "ei_scroll"⟩
      if objects.absolute.isSome || objects.button.isSome || objects.scroll.isSome then
        { s with pointer := some ⟨device, objects, false⟩ }
      else s

def resume (device : D) : State D :=
  let resumed := { s with
    pointer := setEmulating s.pointer device true
    keyboard := setEmulating s.keyboard device true
    log := s.log ++ starts s.pointer device s.lastSerial s.sequence ++
      starts s.keyboard device s.lastSerial s.sequence }
  if waits s.pointer device || waits s.keyboard device then
    { resumed with sequence := s.sequence + 1 }.flushPending
  else resumed

def pause (device : D) : State D :=
  { s with
    pointer := setEmulating s.pointer device false
    keyboard := setEmulating s.keyboard device false
    log := s.log ++ [.paused device] }

end State

inductive Event (D : Type*)
  | connection
  | handshake (serial : UInt32)
  | seatDevice (device : D)
  | interface (device : D) (name : String) (object : ℕ)
  | done (device : D)
  | resumed (device : D) (serial : UInt32)
  | paused (device : D) (serial : UInt32)
  /-- A keymap that does not load changes nothing. -/
  | keymap (loaded : Option (UInt32 → Option UInt32))
  | input (cmd : InputCmd)

variable {D : Type*} [DecidableEq D]

def step (s : State D) : Event D → State D
  | .connection => { s with connected := true }
  | .handshake serial => { s with lastSerial := serial }
  | .seatDevice device =>
    { s with devices := Function.update s.devices device (some fun _ => none) }
  | .interface device name object => s.interface device name object
  | .done device => s.finishDevice device
  | .resumed device serial => { s with lastSerial := serial }.resume device
  | .paused device serial => { s with lastSerial := serial }.pause device
  | .keymap loaded => s.loadKeymap loaded
  | .input cmd => s.onInput cmd

def mark (device : D) (on : Bool) : Entry D → Bool
  | .sent (.startEmulating d _ _) => if d = device then true else on
  | .sent (.stopEmulating d _) => if d = device then false else on
  | .paused d => if d = device then false else on
  | .sent _ => on

def emulates (log : List (Entry D)) (device : D) : Bool := log.foldl (mark device) false

def sequenceOf : Entry D → Option UInt32
  | .sent (.startEmulating _ _ sequence) => some sequence
  | _ => none

def sequences (log : List (Entry D)) : List UInt32 := log.filterMap sequenceOf

def Timely (log : List (Entry D)) : Entry D → Prop
  | .sent (.startEmulating device _ sequence) =>
    emulates log device = false ∧ ∀ earlier ∈ sequences log, earlier < sequence
  | .sent .disconnect => ∀ device, emulates log device = false
  | _ => True

def Orderly (log : List (Entry D)) : List (Entry D) → Prop
  | [] => True
  | e :: es => Timely log e ∧ Orderly (log ++ [e]) es

/-- Every start and the disconnect come at their time, and nothing is left emulating. -/
structure Balanced (log : List (Entry D)) : Prop where
  orderly : Orderly [] log
  settled : ∀ device, emulates log device = false

def displaces (s : State D) (device : D) : Bool :=
  match s.devices device with
  | none => false
  | some data =>
    if (data "ei_keyboard").isSome then s.keyboard.any (·.emulating)
    else ((data "ei_pointer_absolute").isSome || (data "ei_button").isSome ||
      (data "ei_scroll").isSome) && s.pointer.any (·.emulating)

def Clean (s : State D) : Event D → Prop
  | .done device => displaces s device = false
  | .resumed device _ => waits s.pointer device ∨ waits s.keyboard device →
    ¬ (holds s.pointer device ∧ holds s.keyboard device) ∧ (sequences s.log).length < 2 ^ 32
  | _ => True

end Controlis.Portal
