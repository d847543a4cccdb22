import Controlis.Foundation.Binary32
import Controlis.Foundation.Runs
import Controlis.Foundation.Strokes
import Controlis.Protocol.Message

/-!
# The enigo injector

Each call on the injector comes with the answers of the system to the calls it
may make. Presses and releases update the set of held keys only if the system
accepted them, so the held keys are the keys that are down. `release_all` clears
the sets before it tries, and ignores the answers: it is right exactly when the
system releases everything that was held.
-/

namespace Controlis.Input
open Protocol Binary32 Strokes

inductive InputError
  | init (message : String)
  | inject (message : String)
deriving DecidableEq, Repr

inductive Operation
  | movePointer (x y : Int32)
  | mouseButton (button : MouseButton) (action : PointerAction)
  | mouseWheel (deltaX deltaY : F32)
  | key (key : KeyCode) (action : PointerAction)
  | text (text : String)
  | releaseAll
deriving DecidableEq, Repr

inductive Key
  | unicode (c : Char)
  | return
  | escape
  | backspace
  | tab
  | space
  | delete
  | home
  | «end»
  | pageUp
  | pageDown
  | upArrow
  | downArrow
  | leftArrow
  | rightArrow
  | shift
  | control
  | alt
  | «meta»
  | capsLock
  | f1 | f2 | f3 | f4 | f5 | f6 | f7 | f8 | f9 | f10 | f11 | f12
deriving DecidableEq, Repr

inductive Button
  | left
  | right
  | middle
deriving DecidableEq, Repr

inductive Direction
  | press
  | release
deriving DecidableEq, Repr

inductive Axis
  | horizontal
  | vertical
deriving DecidableEq, Repr

inductive OsCall
  | moveMouse (x y : Int32)
  | button (button : Button) (direction : Direction)
  | scroll (length : Int32) (axis : Axis)
  | key (key : Key) (direction : Direction)
  | text (text : String)
deriving DecidableEq, Repr

abbrev Answers := OsCall → Except String Unit

def toDirection : PointerAction → Direction
  | .press => .press
  | .release => .release

def toButton : MouseButton → Button
  | .left => .left
  | .right => .right
  | .middle => .middle

def functionKey : UInt8 → Except InputError Key
  | 1 => .ok .f1
  | 2 => .ok .f2
  | 3 => .ok .f3
  | 4 => .ok .f4
  | 5 => .ok .f5
  | 6 => .ok .f6
  | 7 => .ok .f7
  | 8 => .ok .f8
  | 9 => .ok .f9
  | 10 => .ok .f10
  | 11 => .ok .f11
  | 12 => .ok .f12
  | other => .error (.inject s!"unsupported function key F{other}")

def toKey : KeyCode → Except InputError Key
  | .unicode c => .ok (.unicode c)
  | .enter => .ok .return
  | .escape => .ok .escape
  | .backspace => .ok .backspace
  | .tab => .ok .tab
  | .space => .ok .space
  | .delete => .ok .delete
  | .home => .ok .home
  | .end => .ok .end
  | .pageUp => .ok .pageUp
  | .pageDown => .ok .pageDown
  | .arrowUp => .ok .upArrow
  | .arrowDown => .ok .downArrow
  | .arrowLeft => .ok .leftArrow
  | .arrowRight => .ok .rightArrow
  | .shift => .ok .shift
  | .control => .ok .control
  | .alt => .ok .alt
  | .meta => .ok .meta
  | .capsLock => .ok .capsLock
  | .function n => functionKey n

/-- `round() as i32`: ties away from zero, saturating, zero for NaN. -/
def steps (x : F32) : Int32 :=
  let e := exponent x.bits
  let m := fraction x.bits
  if isNan x.bits then 0
  else
    let size := if e = 0 then 0 else if e < 150 then Binary32.round ⟨2 ^ 23 + m, 150 - e⟩
      else (2 ^ 23 + m) * 2 ^ (e - 150)
    if sign x.bits then .ofInt (-(min size (2 ^ 31) : ℕ)) else .ofInt (min size (2 ^ 31 - 1) : ℕ)

example : steps ⟨0x3F000000⟩ = 1 ∧ steps ⟨0xBEFFFFFF⟩ = 0 ∧ steps ⟨0xC0200000⟩ = -3 ∧
    steps ⟨0x7F800000⟩ = 2147483647 ∧ steps ⟨0xCF000000⟩ = -2147483648 := by decide

/-- The sets are lists without order of meaning; `performed` are the calls the system accepted. -/
structure EnigoInjector where
  heldKeys : List KeyCode
  heldButtons : List MouseButton
  performed : List OsCall

def EnigoInjector.new : Except String Unit → Except InputError EnigoInjector
  | .ok () => .ok ⟨[], [], []⟩
  | .error e => .error (.init e)

namespace EnigoInjector

variable (os : Answers) (s : EnigoInjector)

def call (c : OsCall) (next : EnigoInjector → EnigoInjector × Except InputError Unit) :
    EnigoInjector × Except InputError Unit :=
  match os c with
  | .ok () => next { s with performed := s.performed ++ [c] }
  | .error e => (s, .error (.inject e))

def ignore (c : OsCall) : EnigoInjector :=
  match os c with
  | .ok () => { s with performed := s.performed ++ [c] }
  | .error _ => s

def movePointer (x y : Int32) : EnigoInjector × Except InputError Unit :=
  s.call os (.moveMouse x y) (·, .ok ())

def mouseButton (button : MouseButton) (action : PointerAction) :
    EnigoInjector × Except InputError Unit :=
  s.call os (.button (toButton button) (toDirection action)) fun s =>
    match action with
    | .press => ({ s with heldButtons := s.heldButtons.insert button }, .ok ())
    | .release => ({ s with heldButtons := s.heldButtons.filter (· ≠ button) }, .ok ())

def mouseWheel (deltaX deltaY : F32) : EnigoInjector × Except InputError Unit :=
  let stepsX := steps deltaX
  let stepsY := steps deltaY
  let vertical (s : EnigoInjector) :=
    if stepsY ≠ 0 then s.call os (.scroll (-stepsY) .vertical) (·, .ok ()) else (s, .ok ())
  if stepsX ≠ 0 then s.call os (.scroll stepsX .horizontal) vertical else vertical s

def key (key : KeyCode) (action : PointerAction) : EnigoInjector × Except InputError Unit :=
  match toKey key with
  | .error e => (s, .error e)
  | .ok enigoKey =>
    s.call os (.key enigoKey (toDirection action)) fun s =>
      match action with
      | .press => ({ s with heldKeys := s.heldKeys.insert key }, .ok ())
      | .release => ({ s with heldKeys := s.heldKeys.filter (· ≠ key) }, .ok ())

def text (text : String) : EnigoInjector × Except InputError Unit :=
  s.call os (.text text) (·, .ok ())

def releaseKey (key : KeyCode) : EnigoInjector :=
  match toKey key with
  | .ok enigoKey => s.ignore os (.key enigoKey .release)
  | .error _ => s

def releaseButton (button : MouseButton) : EnigoInjector :=
  s.ignore os (.button (toButton button) .release)

def releaseAll : EnigoInjector × Except InputError Unit :=
  let drained := { s with heldKeys := [], heldButtons := [] }
  let freed := s.heldKeys.foldl (releaseKey os) drained
  (s.heldButtons.foldl (releaseButton os) freed, .ok ())

def perform : Operation → EnigoInjector × Except InputError Unit
  | .movePointer x y => s.movePointer os x y
  | .mouseButton button action => s.mouseButton os button action
  | .mouseWheel deltaX deltaY => s.mouseWheel os deltaX deltaY
  | .key key action => s.key os key action
  | .text text => s.text os text
  | .releaseAll => s.releaseAll os

end EnigoInjector

/-- `cleared`: the last call was a `release_all` that returned `Ok`. -/
structure Seat where
  injector : EnigoInjector
  cleared : Bool

def Seat.new : Seat := ⟨⟨[], [], []⟩, false⟩

def Seat.step (s : Seat) (call : Operation × Answers) : Seat :=
  let (injector, result) := s.injector.perform call.2 call.1
  ⟨injector, call.1 = .releaseAll && result.isOk⟩

def keyStroke : OsCall → Option (Stroke Key)
  | .key key direction => some (key, direction = .press)
  | _ => none

def buttonStroke : OsCall → Option (Stroke Button)
  | .button button direction => some (button, direction = .press)
  | _ => none

def keyStrokes (calls : List OsCall) : List (Stroke Key) := calls.filterMap keyStroke
def buttonStrokes (calls : List OsCall) : List (Stroke Button) := calls.filterMap buttonStroke

def osKeys (keys : List KeyCode) : List Key := keys.filterMap fun key => (toKey key).toOption
def osButtons (buttons : List MouseButton) : List Button := buttons.map toButton

structure NothingForgotten (s : Seat) : Prop where
  keys : Tracks (osKeys s.injector.heldKeys) (keyStrokes s.injector.performed)
  buttons : Tracks (osButtons s.injector.heldButtons) (buttonStrokes s.injector.performed)
  cleared : s.cleared →
    AllUp (keyStrokes s.injector.performed) ∧ AllUp (buttonStrokes s.injector.performed)

def Released (s : Seat) : Operation × Answers → Prop
  | (.releaseAll, os) => (∀ key ∈ osKeys s.injector.heldKeys, os (.key key .release) = .ok ()) ∧
    ∀ button ∈ osButtons s.injector.heldButtons, os (.button button .release) = .ok ()
  | _ => True

def stuck : List (Operation × Answers) :=
  [(.key .control .press, fun _ => .ok ()), (.releaseAll, fun _ => .error "connection lost")]

theorem stuck_forgets : ¬ ∀ pre, pre <+: stuck → NothingForgotten (pre.foldl Seat.step .new) := by
  intro h
  have hend := (h stuck List.prefix_rfl).keys .control rfl
  cases hend

def ofKey : Key → KeyCode
  | .unicode c => .unicode c
  | .return => .enter
  | .escape => .escape
  | .backspace => .backspace
  | .tab => .tab
  | .space => .space
  | .delete => .delete
  | .home => .home
  | .end => .end
  | .pageUp => .pageUp
  | .pageDown => .pageDown
  | .upArrow => .arrowUp
  | .downArrow => .arrowDown
  | .leftArrow => .arrowLeft
  | .rightArrow => .arrowRight
  | .shift => .shift
  | .control => .control
  | .alt => .alt
  | .meta => .meta
  | .capsLock => .capsLock
  | .f1 => .function 1
  | .f2 => .function 2
  | .f3 => .function 3
  | .f4 => .function 4
  | .f5 => .function 5
  | .f6 => .function 6
  | .f7 => .function 7
  | .f8 => .function 8
  | .f9 => .function 9
  | .f10 => .function 10
  | .f11 => .function 11
  | .f12 => .function 12

theorem functionKey_inverse {n : UInt8} {e : Key} (h : functionKey n = .ok e) :
    ofKey e = .function n := by
  unfold functionKey at h
  split at h <;> cases h <;> rfl

theorem toKey_inverse {key : KeyCode} {e : Key} (h : toKey key = .ok e) : ofKey e = key := by
  cases key with
  | function n => exact functionKey_inverse h
  | _ => cases h; rfl

theorem toButton_injective : Function.Injective toButton := by
  intro b b' h
  cases b <;> cases b' <;> first | rfl | cases h

variable {s : EnigoInjector} {os : Answers}

structure Exact (s : EnigoInjector) : Prop where
  keys : Matches (osKeys s.heldKeys) (keyStrokes s.performed)
  buttons : Matches (osButtons s.heldButtons) (buttonStrokes s.performed)

theorem mem_osKeys {keys : List KeyCode} {e : Key} :
    e ∈ osKeys keys ↔ ∃ key ∈ keys, toKey key = .ok e := by
  have hok (r : Except InputError Key) : r.toOption = some e ↔ r = .ok e := by
    cases r <;> simp [Except.toOption]
  simp [osKeys, hok]

theorem mem_osKeys_insert {keys : List KeyCode} {key : KeyCode} {e : Key} (hkey : toKey key = .ok e)
    (e' : Key) : e' ∈ osKeys (keys.insert key) ↔ e' = e ∨ e' ∈ osKeys keys := by
  simp [mem_osKeys, hkey, eq_comm]

theorem mem_osKeys_remove {keys : List KeyCode} {key : KeyCode} {e : Key} (hkey : toKey key = .ok e)
    (e' : Key) : e' ∈ osKeys (keys.filter (· ≠ key)) ↔ e' ∈ osKeys keys ∧ e' ≠ e := by
  simp only [mem_osKeys, List.mem_filter, decide_eq_true_eq]
  constructor
  · rintro ⟨key', ⟨hheld, hne⟩, he⟩
    refine ⟨⟨key', hheld, he⟩, fun heq => hne ?_⟩
    rw [← toKey_inverse he, ← toKey_inverse hkey, heq]
  · rintro ⟨⟨key', hheld, he⟩, hne⟩
    refine ⟨key', ⟨hheld, fun heq => hne ?_⟩, he⟩
    rw [heq, hkey] at he
    exact (Except.ok.inj he).symm

theorem mem_osButtons_insert (buttons : List MouseButton) (button : MouseButton) (b : Button) :
    b ∈ osButtons (buttons.insert button) ↔ b = toButton button ∨ b ∈ osButtons buttons := by
  simp [osButtons, eq_comm]

theorem mem_osButtons_remove (buttons : List MouseButton) (button : MouseButton) (b : Button) :
    b ∈ osButtons (buttons.filter (· ≠ button)) ↔ b ∈ osButtons buttons ∧ b ≠ toButton button := by
  simp only [osButtons, List.mem_map, List.mem_filter, decide_eq_true_eq]
  constructor
  · rintro ⟨m, ⟨hheld, hne⟩, rfl⟩
    exact ⟨⟨m, hheld, rfl⟩, fun heq => hne (toButton_injective heq)⟩
  · rintro ⟨⟨m, hheld, rfl⟩, hne⟩
    exact ⟨m, ⟨hheld, fun heq => hne (congrArg toButton heq)⟩, rfl⟩

theorem Exact.ofKey {keys : List KeyCode} {e : Key} {direction : Direction} (h : Exact s)
    (hkeys : Matches (osKeys keys) (keyStrokes s.performed ++ [(e, decide (direction = .press))])) :
    Exact { s with heldKeys := keys, performed := s.performed ++ [.key e direction] } := by
  refine ⟨?_, ?_⟩
  · simpa [keyStrokes, keyStroke, List.filterMap_cons] using hkeys
  · have hbuttons := h.buttons
    simpa [buttonStrokes, buttonStroke, List.filterMap_cons] using hbuttons

theorem Exact.ofButton {buttons : List MouseButton} {b : Button} {direction : Direction}
    (h : Exact s)
    (hbuttons : Matches (osButtons buttons)
      (buttonStrokes s.performed ++ [(b, decide (direction = .press))])) :
    Exact { s with heldButtons := buttons, performed := s.performed ++ [.button b direction] } := by
  refine ⟨?_, ?_⟩
  · have hkeys := h.keys
    simpa [keyStrokes, keyStroke, List.filterMap_cons] using hkeys
  · simpa [buttonStrokes, buttonStroke, List.filterMap_cons] using hbuttons

theorem Exact.ofOther {c : OsCall} (h : Exact s) (hkey : keyStroke c = none)
    (hbutton : buttonStroke c = none) : Exact { s with performed := s.performed ++ [c] } := by
  refine ⟨?_, ?_⟩
  · have hkeys := h.keys
    simpa [keyStrokes, hkey] using hkeys
  · have hbuttons := h.buttons
    simpa [buttonStrokes, hbutton] using hbuttons

theorem Exact.call {c : OsCall} {next : EnigoInjector → EnigoInjector × Except InputError Unit}
    (h : Exact s) (hnext : Exact (next { s with performed := s.performed ++ [c] }).1) :
    Exact (s.call os c next).1 := by
  unfold EnigoInjector.call
  split
  · exact hnext
  · exact h

theorem Exact.mouseWheel (h : Exact s) (deltaX deltaY : F32) :
    Exact (s.mouseWheel os deltaX deltaY).1 := by
  have hvertical {s : EnigoInjector} (hs : Exact s) : Exact (if steps deltaY ≠ 0 then
      s.call os (.scroll (-steps deltaY) .vertical) (·, .ok ()) else (s, .ok ())).1 := by
    by_cases hy : steps deltaY ≠ 0
    · rw [if_pos hy]
      exact hs.call (hs.ofOther rfl rfl)
    · rw [if_neg hy]
      exact hs
  unfold EnigoInjector.mouseWheel
  by_cases hx : steps deltaX ≠ 0
  · rw [if_pos hx]
    apply h.call
    exact hvertical (h.ofOther rfl rfl)
  · rw [if_neg hx]
    exact hvertical h

theorem Exact.mouseButton (h : Exact s) (button : MouseButton) (action : PointerAction) :
    Exact (s.mouseButton os button action).1 := by
  apply h.call
  cases action with
  | press => exact h.ofButton (h.buttons.press (mem_osButtons_insert s.heldButtons button))
  | release => exact h.ofButton (h.buttons.release (mem_osButtons_remove s.heldButtons button))

theorem Exact.key (h : Exact s) (key : KeyCode) (action : PointerAction) :
    Exact (s.key os key action).1 := by
  unfold EnigoInjector.key
  cases hkey : toKey key with
  | error e => exact h
  | ok enigoKey =>
    apply h.call
    cases action with
    | press => exact h.ofKey (h.keys.press (mem_osKeys_insert hkey))
    | release => exact h.ofKey (h.keys.release (mem_osKeys_remove hkey))

def accepted (os : Answers) (c : OsCall) : Bool := (os c).isOk

theorem ignore_eq (s : EnigoInjector) (c : OsCall) : s.ignore os c =
    { s with performed := s.performed ++ [c].filter (accepted os) } := by
  unfold EnigoInjector.ignore
  cases hc : os c <;> simp [accepted, hc, Except.isOk, Except.toBool]

theorem foldl_releaseKey (keys : List KeyCode) (s : EnigoInjector) :
    keys.foldl (EnigoInjector.releaseKey os) s = { s with performed := s.performed ++
      ((osKeys keys).map fun e => OsCall.key e .release).filter (accepted os) } := by
  induction keys generalizing s with
  | nil => simp [osKeys]
  | cons key keys ih =>
    rw [List.foldl_cons, ih, EnigoInjector.releaseKey]
    cases hkey : toKey key with
    | error e => simp [osKeys, hkey, Except.toOption]
    | ok enigoKey =>
      simp [osKeys, hkey, Except.toOption, ignore_eq, ← List.filter_append]

theorem foldl_releaseButton (buttons : List MouseButton) (s : EnigoInjector) :
    buttons.foldl (EnigoInjector.releaseButton os) s = { s with performed := s.performed ++
      ((osButtons buttons).map fun b => OsCall.button b .release).filter (accepted os) } := by
  induction buttons generalizing s with
  | nil => simp [osButtons]
  | cons button buttons ih =>
    rw [List.foldl_cons, ih, EnigoInjector.releaseButton]
    simp [osButtons, ignore_eq, ← List.filter_append]

def freedKeys (os : Answers) (s : EnigoInjector) : List Key :=
  (osKeys s.heldKeys).filter fun e => accepted os (.key e .release)

def freedButtons (os : Answers) (s : EnigoInjector) : List Button :=
  (osButtons s.heldButtons).filter fun b => accepted os (.button b .release)

theorem performed_releaseAll (s : EnigoInjector) : (s.releaseAll os).1.performed = s.performed ++
    ((freedKeys os s).map (.key · .release) ++ (freedButtons os s).map (.button · .release)) := by
  simp only [EnigoInjector.releaseAll, foldl_releaseKey, foldl_releaseButton, List.append_assoc,
    List.filter_map]
  rfl

theorem held_releaseAll (os : Answers) (s : EnigoInjector) :
    (s.releaseAll os).1.heldKeys = [] ∧ (s.releaseAll os).1.heldButtons = [] := by
  simp [EnigoInjector.releaseAll, foldl_releaseKey, foldl_releaseButton]

theorem keyStrokes_releaseAll (s : EnigoInjector) : keyStrokes (s.releaseAll os).1.performed =
    keyStrokes s.performed ++ (freedKeys os s).map (·, false) := by
  have hkeys : keyStrokes ((freedKeys os s).map (.key · .release)) =
      (freedKeys os s).map (·, false) := by
    rw [keyStrokes, List.filterMap_map]
    exact congrFun List.filterMap_eq_map _
  have hbuttons : keyStrokes ((freedButtons os s).map (.button · .release)) = [] := by
    simp [keyStrokes, keyStroke]
  rw [performed_releaseAll, keyStrokes, List.filterMap_append, List.filterMap_append]
  rw [keyStrokes] at hkeys hbuttons
  rw [hkeys, hbuttons, List.append_nil]
  rfl

theorem buttonStrokes_releaseAll (s : EnigoInjector) :
    buttonStrokes (s.releaseAll os).1.performed =
      buttonStrokes s.performed ++ (freedButtons os s).map (·, false) := by
  have hkeys : buttonStrokes ((freedKeys os s).map (.key · .release)) = [] := by
    simp [buttonStrokes, buttonStroke]
  have hbuttons : buttonStrokes ((freedButtons os s).map (.button · .release)) =
      (freedButtons os s).map (·, false) := by
    rw [buttonStrokes, List.filterMap_map]
    exact congrFun List.filterMap_eq_map _
  rw [performed_releaseAll, buttonStrokes, List.filterMap_append, List.filterMap_append]
  rw [buttonStrokes] at hkeys hbuttons
  rw [hkeys, hbuttons, List.nil_append]
  rfl

theorem accepted_iff {c : OsCall} : accepted os c = true ↔ os c = .ok () := by
  unfold accepted
  cases os c <;> simp [Except.isOk, Except.toBool]

/-- Nothing is down after a `release_all` iff the system released whatever was held. -/
theorem Exact.releaseAll_iff (h : Exact s) (os : Answers) :
    (AllUp (keyStrokes (s.releaseAll os).1.performed) ↔
      ∀ e ∈ osKeys s.heldKeys, os (.key e .release) = .ok ()) ∧
    (AllUp (buttonStrokes (s.releaseAll os).1.performed) ↔
      ∀ b ∈ osButtons s.heldButtons, os (.button b .release) = .ok ()) := by
  have hkeys := h.keys.allUp_iff fun e => accepted os (.key e .release)
  have hbuttons := h.buttons.allUp_iff fun b => accepted os (.button b .release)
  simp only [accepted_iff] at hkeys hbuttons
  rw [keyStrokes_releaseAll, buttonStrokes_releaseAll]
  exact ⟨hkeys, hbuttons⟩

structure Sound (s : Seat) : Prop where
  exact : Exact s.injector
  cleared : s.cleared →
    AllUp (keyStrokes s.injector.performed) ∧ AllUp (buttonStrokes s.injector.performed)

theorem Sound.nothingForgotten {s : Seat} (h : Sound s) : NothingForgotten s :=
  ⟨h.exact.keys.tracks, h.exact.buttons.tracks, h.cleared⟩

theorem Sound.new : Sound .new :=
  ⟨⟨fun _ => by simp [Down, lastOf, keyStrokes, Seat.new, osKeys], fun _ => by
    simp [Down, lastOf, buttonStrokes, Seat.new, osButtons]⟩, fun h => by cases h⟩

theorem Exact.perform (h : Exact s) {op : Operation} (hop : op ≠ .releaseAll) :
    Exact (s.perform os op).1 := by
  cases op with
  | movePointer x y => exact h.call (h.ofOther rfl rfl)
  | mouseButton button action => exact h.mouseButton button action
  | mouseWheel deltaX deltaY => exact h.mouseWheel deltaX deltaY
  | key key action => exact h.key key action
  | text text => exact h.call (h.ofOther rfl rfl)
  | releaseAll => exact absurd rfl hop

theorem Sound.step {s : Seat} {call : Operation × Answers} (h : Sound s) (hcall : Released s call) :
    Sound (s.step call) := by
  obtain ⟨op, os⟩ := call
  by_cases hop : op = .releaseAll
  · subst hop
    obtain ⟨hkeys, hbuttons⟩ := h.exact.releaseAll_iff os
    have hup : AllUp (keyStrokes (s.injector.releaseAll os).1.performed) ∧
        AllUp (buttonStrokes (s.injector.releaseAll os).1.performed) :=
      ⟨hkeys.mpr hcall.1, hbuttons.mpr hcall.2⟩
    obtain ⟨hnokeys, hnobuttons⟩ := held_releaseAll os s.injector
    refine ⟨⟨?_, ?_⟩, fun _ => hup⟩
    · intro e
      simpa [Seat.step, EnigoInjector.perform, hnokeys, osKeys] using hup.1 e
    · intro b
      simpa [Seat.step, EnigoInjector.perform, hnobuttons, osButtons] using hup.2 b
  · refine ⟨h.exact.perform hop, fun hcleared => ?_⟩
    simp [Seat.step, hop] at hcleared

theorem released_of_nothingForgotten {s : Seat} {call : Operation × Answers} (h : Sound s)
    (hnext : NothingForgotten (s.step call)) : Released s call := by
  obtain ⟨op, os⟩ := call
  cases op with
  | releaseAll =>
    obtain ⟨hkeys, hbuttons⟩ := hnext.cleared rfl
    obtain ⟨hkeysIff, hbuttonsIff⟩ := h.exact.releaseAll_iff os
    exact ⟨hkeysIff.mp hkeys, hbuttonsIff.mp hbuttons⟩
  | _ => trivial

theorem nothing_forgotten_iff (calls : List (Operation × Answers)) :
    Runs.Meets Seat.step Released .new calls ↔
      ∀ pre, pre <+: calls → NothingForgotten (pre.foldl Seat.step .new) :=
  Runs.meets_iff Sound.new (fun _ => Sound.nothingForgotten) (fun _ _ => Sound.step)
    fun _ _ => released_of_nothingForgotten

end Controlis.Input
