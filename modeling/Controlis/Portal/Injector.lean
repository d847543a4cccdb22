import Controlis.Foundation.Binary32
import Controlis.Foundation.Strokes
import Controlis.Input.Enigo
import Controlis.Portal.EisInput
import Controlis.Protocol.Message

/-!
# The portal injector

The injector turns keys and buttons into keysyms and button codes and sends them
as commands. It remembers each press and, at a release, forgets every press of
the same keysym, so whatever its commands have left down is on its lists. The
doubles used here are those that `i32` and `f32` values convert to.
-/

namespace Controlis.Portal
open Protocol Binary32 Strokes
open Input (Operation)

def F64.ofParts (negative : Bool) (exponent fraction : ℕ) : F64 :=
  ⟨.ofNat ((if negative then 2 ^ 63 else 0) + exponent * 2 ^ 52 + fraction)⟩

/-- `n / 2 ^ scale`, where `n` is positive and has at most 53 bits. -/
def F64.scaled (negative : Bool) (n scale : ℕ) : F64 :=
  .ofParts negative (1023 + n.log2 - scale) ((n - 2 ^ n.log2) * 2 ^ (52 - n.log2))

def F64.ofInt32 (x : Int32) : F64 :=
  if x = 0 then ⟨0⟩ else .scaled (x < 0) x.toInt.natAbs 0

def F64.ofF32 (x : F32) : F64 :=
  let e := exponent x.bits
  let m := fraction x.bits
  if e = 255 then .ofParts (sign x.bits) 2047 (m * 2 ^ 29)
  else if e = 0 then
    if m = 0 then .ofParts (sign x.bits) 0 0 else .scaled (sign x.bits) m 149
  else .ofParts (sign x.bits) (e + 896) (m * 2 ^ 29)

def F32.neg (x : F32) : F32 := ⟨x.bits ^^^ 0x80000000⟩

example : F64.ofInt32 (-3) = ⟨0xC008000000000000⟩ := by decide
example : F64.ofF32 ⟨0x3F800000⟩ = ⟨0x3FF0000000000000⟩ := by decide
example : F64.ofF32 ⟨1⟩ = ⟨0x36A0000000000000⟩ := by decide

def unicodeKeysym (c : Char) : UInt32 := if c.val ≤ 0x7F then c.val else 0x01000000 + c.val

def keysymOf : KeyCode → Option UInt32
  | .unicode c => some (unicodeKeysym c)
  | .enter => some 0xFF0D
  | .escape => some 0xFF1B
  | .backspace => some 0xFF08
  | .tab => some 0xFF09
  | .space => some 0x0020
  | .delete => some 0xFFFF
  | .home => some 0xFF50
  | .end => some 0xFF57
  | .pageUp => some 0xFF55
  | .pageDown => some 0xFF56
  | .arrowLeft => some 0xFF51
  | .arrowRight => some 0xFF53
  | .arrowUp => some 0xFF52
  | .arrowDown => some 0xFF54
  | .shift => some 0xFFE1
  | .control => some 0xFFE3
  | .alt => some 0xFFE9
  | .meta => some 0xFFEB
  | .capsLock => some 0xFFE5
  | .function n => if 1 ≤ n ∧ n ≤ 12 then some (0xFFBE + (n.toUInt32 - 1)) else none

def toKeysym (key : KeyCode) : Option Int32 :=
  (keysymOf key).bind fun sym => if sym.toNat < 2 ^ 31 then some sym.toInt32 else none

def evdevButton : MouseButton → Int32
  | .left => 0x110
  | .right => 0x111
  | .middle => 0x112

structure PortalInjector where
  heldKeys : List Int32
  heldButtons : List Int32

def PortalInjector.new : PortalInjector := ⟨[], []⟩

namespace PortalInjector

def key (p : PortalInjector) (key : KeyCode) (action : PointerAction) :
    PortalInjector × List InputCmd :=
  match toKeysym key with
  | none => (p, [])
  | some keysym =>
    match action with
    | .press => ({ p with heldKeys := p.heldKeys ++ [keysym] }, [.key keysym true])
    | .release => ({ p with heldKeys := p.heldKeys.filter (· ≠ keysym) }, [.key keysym false])

def mouseButton (p : PortalInjector) (button : MouseButton) (action : PointerAction) :
    PortalInjector × List InputCmd :=
  let code := evdevButton button
  match action with
  | .press => ({ p with heldButtons := p.heldButtons ++ [code] }, [.button code true])
  | .release => ({ p with heldButtons := p.heldButtons.filter (· ≠ code) }, [.button code false])

def releaseAll (p : PortalInjector) : PortalInjector × List InputCmd :=
  (⟨[], []⟩, p.heldKeys.map (.key · false) ++ p.heldButtons.map (.button · false))

def text (p : PortalInjector) : List Char → PortalInjector × List InputCmd
  | [] => (p, [])
  | c :: cs =>
    let (p, pressed) := p.key (.unicode c) .press
    let (p, released) := p.key (.unicode c) .release
    let (p, rest) := p.text cs
    (p, pressed ++ released ++ rest)

def perform (p : PortalInjector) : Operation → PortalInjector × List InputCmd
  | .movePointer x y => (p, [.motion (.ofInt32 x) (.ofInt32 y)])
  | .mouseButton button action => p.mouseButton button action
  | .mouseWheel deltaX deltaY => (p, [.axis (.ofF32 deltaX) (.ofF32 (F32.neg deltaY))])
  | .key key action => p.key key action
  | .text text => p.text text.toList
  | .releaseAll => p.releaseAll

def performAll (p : PortalInjector) : List Operation → PortalInjector × List InputCmd
  | [] => (p, [])
  | op :: ops =>
    let (p, sent) := p.perform op
    let (p, rest) := p.performAll ops
    (p, sent ++ rest)

end PortalInjector

def keyStroke : InputCmd → Option (Stroke Int32)
  | .key keysym pressed => some (keysym, pressed)
  | _ => none

def buttonStroke : InputCmd → Option (Stroke Int32)
  | .button code pressed => some (code, pressed)
  | _ => none

def keyStrokes (cmds : List InputCmd) : List (Stroke Int32) := cmds.filterMap keyStroke
def buttonStrokes (cmds : List InputCmd) : List (Stroke Int32) := cmds.filterMap buttonStroke

/-- What is down after the commands sent is what the injector would release. -/
structure Tracked (p : PortalInjector) (sent : List InputCmd) : Prop where
  keys : Tracks p.heldKeys (keyStrokes sent)
  buttons : Tracks p.heldButtons (buttonStrokes sent)

variable {p : PortalInjector} {sent : List InputCmd}

theorem keyStrokes_append (xs ys : List InputCmd) :
    keyStrokes (xs ++ ys) = keyStrokes xs ++ keyStrokes ys := List.filterMap_append ..

theorem buttonStrokes_append (xs ys : List InputCmd) :
    buttonStrokes (xs ++ ys) = buttonStrokes xs ++ buttonStrokes ys := List.filterMap_append ..

theorem keyStrokes_skip {cmd : InputCmd} (h : keyStroke cmd = none) :
    keyStrokes (sent ++ [cmd]) = keyStrokes sent := by
  rw [keyStrokes_append, keyStrokes, keyStrokes, List.filterMap_cons_none h]
  exact List.append_nil _

theorem buttonStrokes_skip {cmd : InputCmd} (h : buttonStroke cmd = none) :
    buttonStrokes (sent ++ [cmd]) = buttonStrokes sent := by
  rw [buttonStrokes_append, buttonStrokes, buttonStrokes, List.filterMap_cons_none h]
  exact List.append_nil _

theorem Tracked.ofKey {heldKeys : List Int32} {keysym : Int32} {pressed : Bool} (h : Tracked p sent)
    (hkeys : Tracks heldKeys (keyStrokes sent ++ [(keysym, pressed)])) :
    Tracked { p with heldKeys := heldKeys } (sent ++ [.key keysym pressed]) := by
  refine ⟨?_, ?_⟩
  · rw [keyStrokes_append]
    exact hkeys
  · rw [buttonStrokes_skip rfl]
    exact h.buttons

theorem Tracked.ofButton {heldButtons : List Int32} {code : Int32} {pressed : Bool}
    (h : Tracked p sent) (hbuttons : Tracks heldButtons (buttonStrokes sent ++ [(code, pressed)])) :
    Tracked { p with heldButtons := heldButtons } (sent ++ [.button code pressed]) := by
  refine ⟨?_, ?_⟩
  · rw [keyStrokes_skip rfl]
    exact h.keys
  · rw [buttonStrokes_append]
    exact hbuttons

theorem Tracked.ofPointer {cmd : InputCmd} (h : Tracked p sent) (hkey : keyStroke cmd = none)
    (hbutton : buttonStroke cmd = none) : Tracked p (sent ++ [cmd]) := by
  refine ⟨?_, ?_⟩
  · rw [keyStrokes_skip hkey]
    exact h.keys
  · rw [buttonStrokes_skip hbutton]
    exact h.buttons

theorem Tracked.key (h : Tracked p sent) (key : KeyCode) (action : PointerAction) :
    Tracked (p.key key action).1 (sent ++ (p.key key action).2) := by
  unfold PortalInjector.key
  cases toKeysym key with
  | none => simpa using h
  | some keysym =>
    cases action with
    | press => exact h.ofKey (h.keys.press keysym)
    | release => exact h.ofKey (h.keys.release keysym)

theorem Tracked.mouseButton (h : Tracked p sent) (button : MouseButton) (action : PointerAction) :
    Tracked (p.mouseButton button action).1 (sent ++ (p.mouseButton button action).2) := by
  cases action with
  | press => exact h.ofButton (h.buttons.press (evdevButton button))
  | release => exact h.ofButton (h.buttons.release (evdevButton button))

theorem Tracked.text (h : Tracked p sent) (text : List Char) :
    Tracked (p.text text).1 (sent ++ (p.text text).2) := by
  induction text generalizing p sent with
  | nil => simpa [PortalInjector.text] using h
  | cons c cs ih =>
    have hpair := (h.key (.unicode c) .press).key (.unicode c) .release
    have hrest := ih hpair
    simpa [PortalInjector.text] using hrest

theorem keyStrokes_keys (keysyms : List Int32) :
    keyStrokes (keysyms.map (.key · false)) = keysyms.map (·, false) := by
  rw [keyStrokes, List.filterMap_map]
  exact congrFun List.filterMap_eq_map keysyms

theorem buttonStrokes_buttons (codes : List Int32) :
    buttonStrokes (codes.map (.button · false)) = codes.map (·, false) := by
  rw [buttonStrokes, List.filterMap_map]
  exact congrFun List.filterMap_eq_map codes

theorem keyStrokes_buttons (codes : List Int32) :
    keyStrokes (codes.map (.button · false)) = [] := by
  simp [keyStrokes, keyStroke]

theorem buttonStrokes_keys (keysyms : List Int32) :
    buttonStrokes (keysyms.map (.key · false)) = [] := by
  simp [buttonStrokes, buttonStroke]

theorem Tracked.released (h : Tracked p sent) :
    AllUp (keyStrokes (sent ++ p.releaseAll.2)) ∧
      AllUp (buttonStrokes (sent ++ p.releaseAll.2)) := by
  have hkeys := h.keys.releaseAll
  have hbuttons := h.buttons.releaseAll
  constructor
  · rw [PortalInjector.releaseAll, keyStrokes_append, keyStrokes_append, keyStrokes_keys,
      keyStrokes_buttons, List.append_nil]
    exact hkeys
  · rw [PortalInjector.releaseAll, buttonStrokes_append, buttonStrokes_append, buttonStrokes_keys,
      buttonStrokes_buttons, List.nil_append]
    exact hbuttons

theorem Tracked.releaseAll (h : Tracked p sent) :
    Tracked p.releaseAll.1 (sent ++ p.releaseAll.2) :=
  ⟨h.released.1.tracks, h.released.2.tracks⟩

theorem Tracked.perform (h : Tracked p sent) (op : Operation) :
    Tracked (p.perform op).1 (sent ++ (p.perform op).2) := by
  cases op with
  | movePointer x y => exact h.ofPointer rfl rfl
  | mouseButton button action => exact h.mouseButton button action
  | mouseWheel deltaX deltaY => exact h.ofPointer rfl rfl
  | key key action => exact h.key key action
  | text text => exact h.text text.toList
  | releaseAll => exact h.releaseAll

theorem Tracked.performAll (h : Tracked p sent) (ops : List Operation) :
    Tracked (p.performAll ops).1 (sent ++ (p.performAll ops).2) := by
  induction ops generalizing p sent with
  | nil => simpa [PortalInjector.performAll] using h
  | cons op ops ih =>
    have hrest := ih (h.perform op)
    simpa [PortalInjector.performAll] using hrest

theorem performAll_append (p : PortalInjector) (ops ops' : List Operation) :
    p.performAll (ops ++ ops') = (((p.performAll ops).1.performAll ops').1,
      (p.performAll ops).2 ++ ((p.performAll ops).1.performAll ops').2) := by
  induction ops generalizing p with
  | nil => rfl
  | cons op ops ih => simp [PortalInjector.performAll, ih]

/-- What is sent for operations that end with `release_all` presses nothing. -/
theorem sent_allUp (ops : List Operation) :
    AllUp (keyStrokes (PortalInjector.new.performAll (ops ++ [.releaseAll])).2) ∧
      AllUp (buttonStrokes (PortalInjector.new.performAll (ops ++ [.releaseAll])).2) := by
  have hnew : Tracked .new [] := ⟨allUp_nil.tracks, allUp_nil.tracks⟩
  have hops := (hnew.performAll ops).released
  rw [performAll_append]
  simpa [PortalInjector.performAll, PortalInjector.perform] using hops

end Controlis.Portal
