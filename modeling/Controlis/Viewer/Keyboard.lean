import Controlis.Foundation.Binary32
import Controlis.Foundation.Numeral
import Controlis.Protocol.Message

/-!
# From the keyboard to the wire

The canvas handlers turn a keyboard event into a UI event, and `toControlMessage`
turns that into a control message. Typing travels as text; named keys and keys
of a chord as key events. The handlers keep no state: each event is judged by
its own key and flags. A stroke moves a physical key, and what the browser
reports for it depends on the strokes before.
-/

namespace Controlis.Viewer.Keyboard
open Protocol Binary32 Numeral

inductive UiInputEvent
  | move (x y : F32)
  | button (button : UInt8) (pressed : Bool)
  | wheel (dx dy : F32)
  | key (key : String) (pressed : Bool)
  | text (text : String)
deriving DecidableEq, Repr

def clamp (x : F32) : F32 :=
  if isNan x.bits then x
  else if sign x.bits then if x.bits = 0x80000000 then x else ⟨0⟩
  else if 0x3F800000 < x.bits then ⟨0x3F800000⟩
  else x

def action (pressed : Bool) : PointerAction := if pressed then .press else .release

def mapButton (button : UInt8) : Option MouseButton :=
  match button with
  | 0 => some .left
  | 1 => some .middle
  | 2 => some .right
  | _ => none

def parseU8 (cs : List Char) : Option UInt8 :=
  let ds : List Char := match cs with
    | '+' :: ds => ds
    | ds => ds
  let n := value 10 (ds.map fun c => c.toNat - 48)
  if ds ≠ [] ∧ ds.all Char.isDigit ∧ n < 2 ^ 8 then some (.ofNat n) else none

def functionNumber : List Char → Option UInt8
  | 'F' :: n => parseU8 n
  | _ => none

def mapKey (key : String) : Option KeyCode :=
  match key with
  | "Enter" => some .enter
  | "Escape" => some .escape
  | "Backspace" => some .backspace
  | "Tab" => some .tab
  | " " | "Spacebar" => some .space
  | "Delete" => some .delete
  | "Home" => some .home
  | "End" => some .end
  | "PageUp" => some .pageUp
  | "PageDown" => some .pageDown
  | "ArrowUp" => some .arrowUp
  | "ArrowDown" => some .arrowDown
  | "ArrowLeft" => some .arrowLeft
  | "ArrowRight" => some .arrowRight
  | "Shift" => some .shift
  | "Control" => some .control
  | "Alt" | "AltGraph" => some .alt
  | "Meta" | "OS" => some .meta
  | "CapsLock" => some .capsLock
  | _ =>
    match functionNumber key.toList with
    | some n => if 1 ≤ n ∧ n ≤ 12 then some (.function n) else none
    | none =>
      match key.toList with
      | [c] => some (.unicode c.toLower)
      | _ => none

def toControlMessage : UiInputEvent → Option ControlMessage
  | .move x y => some (.mouseMove (clamp x) (clamp y))
  | .button button pressed => (mapButton button).map (.mouseButton · (action pressed))
  | .wheel dx dy => some (.mouseWheel dx dy)
  | .key key pressed => (mapKey key).map (.keyEvent · (action pressed))
  | .text text => if text.isEmpty then none else some (.text text)

def namedKeys : List String :=
  ["Enter", "Escape", "Backspace", "Tab", "Delete", "Home", "End",
    "PageUp", "PageDown", "ArrowUp", "ArrowDown", "ArrowLeft", "ArrowRight",
    "Shift", "Control", "Alt", "AltGraph", "Meta", "OS", "CapsLock",
    "F1", "F2", "F3", "F4", "F5", "F6", "F7", "F8", "F9", "F10", "F11", "F12"]

structure KeyboardEvent where
  key : String
  ctrlKey : Bool
  altKey : Bool
  metaKey : Bool
deriving DecidableEq, Repr

def utf16Length (s : String) : ℕ := (s.toList.map fun c => if c.toNat < 0x10000 then 1 else 2).sum

def onKeyDown (e : KeyboardEvent) : Option UiInputEvent :=
  if e.key ∈ namedKeys then some (.key e.key true)
  else if utf16Length e.key = 1 then
    -- in a chord the physical key matters; plain typing travels as text
    if e.ctrlKey || e.altKey || e.metaKey then some (.key e.key true) else some (.text e.key)
  else none

def onKeyUp (e : KeyboardEvent) : Option UiInputEvent :=
  if e.key ∈ namedKeys ∨ (utf16Length e.key = 1 ∧ (e.ctrlKey || e.altKey || e.metaKey)) then
    some (.key e.key false)
  else none

/-- Never leave modifiers stuck on the host when focus moves away. -/
def onBlur : List UiInputEvent := ["Shift", "Control", "Alt", "Meta"].map (.key · false)

inductive Stroke (K : Type*)
  | down (key : K)
  | up (key : K)
deriving DecidableEq, Repr

variable {K : Type*} [DecidableEq K]

def strike (held : List K) : Stroke K → List K
  | .down key => if key ∈ held then held else key :: held
  | .up key => held.filter (· ≠ key)

def held (strokes : List (Stroke K)) : List K := strokes.foldl strike []

/-- What keys mean to the browser. The label may depend on the strokes before: on the modifiers
held, on locks, on a dead key. -/
structure Layout (K : Type*) where
  label : List (Stroke K) → K → String
  ctrl : K → Bool
  alt : K → Bool
  metaFlag : K → Bool

def Stroke.key : Stroke K → K
  | .down key | .up key => key

def Stroke.pressed : Stroke K → Bool
  | .down _ => true
  | .up _ => false

variable (layout : Layout K)

def Layout.event (before : List (Stroke K)) (stroke : Stroke K) : KeyboardEvent where
  key := layout.label before stroke.key
  ctrlKey := (held (before ++ [stroke])).any layout.ctrl
  altKey := (held (before ++ [stroke])).any layout.alt
  metaKey := (held (before ++ [stroke])).any layout.metaFlag

def Layout.handle (before : List (Stroke K)) (stroke : Stroke K) : Option ControlMessage :=
  let e := layout.event before stroke
  (if stroke.pressed then onKeyDown e else onKeyUp e).bind toControlMessage

def Layout.sent : List (Stroke K) → List (Stroke K) → List ControlMessage
  | _, [] => []
  | before, stroke :: strokes =>
    (layout.handle before stroke).toList ++ sent (before ++ [stroke]) strokes

/-- Strokes that leave no key down; a key that is held may go down again, which repeats it. -/
structure Typing (K : Type*) [DecidableEq K] where
  strokes : List (Stroke K)
  released : held strokes = []

def actionOn (k : KeyCode) : ControlMessage → Option PointerAction
  | .keyEvent k' action => if k' = k then some action else none
  | _ => none

def lastAction (k : KeyCode) : List ControlMessage → Option PointerAction
  | [] => none
  | m :: ms => (lastAction k ms).or (actionOn k m)

def NothingSticks (ms : List ControlMessage) : Prop :=
  ∀ k, .keyEvent k .press ∈ ms → lastAction k ms = some .release

/-- Letters count without their case, and Alt and Meta have two names. -/
def fold (label : String) : String :=
  match label with
  | "AltGraph" => "Alt"
  | "OS" => "Meta"
  | _ => if utf16Length label = 1 then .ofList (label.toList.map Char.toLower) else label

def Layout.Chord (strokes : List (Stroke K)) : Prop :=
  ∃ key ∈ held strokes, layout.ctrl key ∨ layout.alt key ∨ layout.metaFlag key

/-- A named key moves, or a character key while Ctrl, Alt or Meta is held. -/
def Layout.Shortcut (before : List (Stroke K)) (stroke : Stroke K) : Prop :=
  layout.label before stroke.key ∈ namedKeys ∨
    utf16Length (layout.label before stroke.key) = 1 ∧ layout.Chord (before ++ [stroke])

def Layout.LetGo (before : List (Stroke K)) (key : K) (label : String) : Prop :=
  layout.Shortcut before (.up key) ∧ fold (layout.label before key) = fold label

/-- A key that goes down as a shortcut comes up as one, under its label: the modifier is still held
then, and the label has not changed. Or else another key of that label is let go so, or the same key
at a later time. -/
def Layout.Paired (strokes : List (Stroke K)) : Prop :=
  ∀ pre key mid post, strokes = pre ++ .down key :: (mid ++ .up key :: post) → .up key ∉ mid →
    layout.Shortcut pre (.down key) →
    layout.LetGo (pre ++ [.down key] ++ mid) key (layout.label pre key) ∨
    ∃ early other late, mid ++ .up key :: post = early ++ .up other :: late ∧
      layout.LetGo (pre ++ [.down key] ++ early) other (layout.label pre key)

def KeyboardEvent.Shortcut (e : KeyboardEvent) : Prop :=
  e.key ∈ namedKeys ∨ (utf16Length e.key = 1 ∧ (e.ctrlKey || e.altKey || e.metaKey))

instance (e : KeyboardEvent) : Decidable e.Shortcut := inferInstanceAs (Decidable (_ ∨ _))

def KeyboardEvent.code (e : KeyboardEvent) : Option KeyCode :=
  if e.Shortcut then mapKey e.key else none

def Layout.ComesUp (before strokes : List (Stroke K)) (k : KeyCode) : Prop :=
  ∃ mid key post, strokes = mid ++ .up key :: post ∧
    (layout.event (before ++ mid) (.up key)).code = some k

variable {layout} {before strokes : List (Stroke K)} {k : KeyCode}

theorem key_actionOn (key : String) (pressed : Bool) :
    (toControlMessage (.key key pressed)).bind (actionOn k) =
      if mapKey key = some k then some (action pressed) else none := by
  rw [toControlMessage]
  cases mapKey key with
  | none => rfl
  | some k' => simp [actionOn]

theorem text_actionOn (text : String) :
    (toControlMessage (.text text)).bind (actionOn k) = none := by
  rw [toControlMessage]
  split_ifs <;> rfl

theorem onKeyDown_shortcut {e : KeyboardEvent} (h : e.Shortcut) :
    onKeyDown e = some (.key e.key true) := by
  rw [onKeyDown]
  split_ifs with hnamed hlength hchord
  · rfl
  · rfl
  · exact absurd (h.resolve_left hnamed).2 hchord
  · exact absurd (h.resolve_left hnamed).1 hlength

theorem onKeyDown_other {e : KeyboardEvent} (h : ¬ e.Shortcut) :
    ((onKeyDown e).bind toControlMessage).bind (actionOn k) = none := by
  rw [KeyboardEvent.Shortcut, not_or] at h
  rw [onKeyDown, if_neg h.1]
  split_ifs with hlength hchord
  · exact absurd ⟨hlength, hchord⟩ h.2
  · exact text_actionOn e.key
  · rfl

theorem onKeyUp_shortcut {e : KeyboardEvent} (h : e.Shortcut) :
    onKeyUp e = some (.key e.key false) := if_pos h

theorem onKeyUp_other {e : KeyboardEvent} (h : ¬ e.Shortcut) : onKeyUp e = none := if_neg h

theorem handle_actionOn (stroke : Stroke K) :
    (layout.handle before stroke).bind (actionOn k) =
      if (layout.event before stroke).code = some k then some (action stroke.pressed)
        else none := by
  rw [Layout.handle, KeyboardEvent.code]
  generalize layout.event before stroke = e
  by_cases hshortcut : e.Shortcut
  · rw [if_pos hshortcut, onKeyDown_shortcut hshortcut, onKeyUp_shortcut hshortcut]
    cases stroke with
    | down key => exact key_actionOn e.key true
    | up key => exact key_actionOn e.key false
  · rw [if_neg hshortcut, onKeyUp_other hshortcut]
    cases stroke with
    | down key => exact onKeyDown_other hshortcut
    | up key => rfl

theorem lastAction_append (ms ms' : List ControlMessage) :
    lastAction k (ms ++ ms') = (lastAction k ms').or (lastAction k ms) := by
  induction ms with
  | nil => simp [lastAction]
  | cons m ms ih => rw [List.cons_append, lastAction, lastAction, ih, Option.or_assoc]

theorem blur_releases (ms : List ControlMessage) (hk : k ∈ [.shift, .control, .alt, .meta]) :
    lastAction k (ms ++ onBlur.filterMap toControlMessage) = some .release := by
  have hblur : lastAction k (onBlur.filterMap toControlMessage) = some .release := by
    revert k
    decide
  rw [lastAction_append, hblur]
  rfl

theorem lastAction_toList (m : Option ControlMessage) :
    lastAction k m.toList = m.bind (actionOn k) := by
  cases m <;> simp [lastAction]

theorem sent_append (before xs ys : List (Stroke K)) :
    layout.sent before (xs ++ ys) = layout.sent before xs ++ layout.sent (before ++ xs) ys := by
  induction xs generalizing before with
  | nil => simp [Layout.sent]
  | cons x xs ih => simp [Layout.sent, ih]

theorem lastAction_sent_cons (stroke : Stroke K) :
    lastAction k (layout.sent before (stroke :: strokes)) =
      (lastAction k (layout.sent (before ++ [stroke]) strokes)).or
        (if (layout.event before stroke).code = some k then some (action stroke.pressed)
          else none) := by
  rw [Layout.sent, lastAction_append, lastAction_toList, handle_actionOn]

theorem comesUp_of_last (h : lastAction k (layout.sent before strokes) = some .release) :
    layout.ComesUp before strokes k := by
  induction strokes generalizing before with
  | nil => cases h
  | cons stroke strokes ih =>
    rw [lastAction_sent_cons, Option.or_eq_some_iff] at h
    rcases h with hlater | ⟨-, hnow⟩
    · obtain ⟨mid, key, post, rfl, hcode⟩ := ih hlater
      exact ⟨stroke :: mid, key, post, rfl, by simpa using hcode⟩
    · split_ifs at hnow with hcode
      cases stroke with
      | down key => cases hnow
      | up key => exact ⟨[], key, strokes, rfl, by simpa using hcode⟩

theorem last_of_comesUp (h : layout.ComesUp before strokes k) :
    lastAction k (layout.sent before strokes) ≠ none := by
  obtain ⟨mid, key, post, rfl, hcode⟩ := h
  rw [sent_append, lastAction_append, lastAction_sent_cons, if_pos hcode]
  simp

theorem mem_of_last {a : PointerAction} {ms : List ControlMessage}
    (h : lastAction k ms = some a) : .keyEvent k a ∈ ms := by
  induction ms with
  | nil => cases h
  | cons m ms ih =>
    rw [lastAction, Option.or_eq_some_iff] at h
    rcases h with hlater | ⟨-, hnow⟩
    · exact List.mem_cons_of_mem _ (ih hlater)
    · cases m <;> simp_all [actionOn]

theorem last_of_mem {a : PointerAction} {ms : List ControlMessage} (h : .keyEvent k a ∈ ms) :
    lastAction k ms ≠ none := by
  obtain ⟨pre, post, rfl⟩ := List.append_of_mem h
  rw [lastAction_append, lastAction]
  simp [actionOn]

theorem nothingSticks_iff (ms : List ControlMessage) :
    NothingSticks ms ↔ ∀ k, lastAction k ms ≠ some .press := by
  constructor
  · intro h k hpress
    cases hpress.symm.trans (h k (mem_of_last hpress))
  · intro h k hmem
    cases hlast : lastAction k ms with
    | none => exact absurd hlast (last_of_mem hmem)
    | some a =>
      cases a with
      | press => exact absurd hlast (h k)
      | release => rfl

theorem last_ne_press (h : ∀ pre key post, strokes = pre ++ .down key :: post →
    (layout.event (before ++ pre) (.down key)).code = some k →
    layout.ComesUp (before ++ pre ++ [.down key]) post k) :
    lastAction k (layout.sent before strokes) ≠ some .press := by
  induction strokes generalizing before with
  | nil => simp [Layout.sent, lastAction]
  | cons stroke strokes ih =>
    have hrest : lastAction k (layout.sent (before ++ [stroke]) strokes) ≠ some .press := by
      apply ih
      intro pre key post hsplit hcode
      have hup := h (stroke :: pre) key post (congrArg _ hsplit) (by simpa using hcode)
      simpa using hup
    rw [lastAction_sent_cons, Ne, Option.or_eq_some_iff, not_or, not_and]
    refine ⟨hrest, fun hnone hnow => ?_⟩
    split_ifs at hnow with hcode
    cases stroke with
    | down key =>
      apply last_of_comesUp _ hnone
      simpa using h [] key strokes rfl (by simpa using hcode)
    | up key => cases hnow

theorem held_snoc (before : List (Stroke K)) (stroke : Stroke K) :
    held (before ++ [stroke]) = strike (held before) stroke := by
  rw [held, List.foldl_append]
  rfl

theorem exists_up {key : K} {before after : List (Stroke K)} (hdown : key ∈ held before)
    (hup : key ∉ held (before ++ after)) :
    ∃ mid post, after = mid ++ .up key :: post ∧ .up key ∉ mid := by
  induction after generalizing before with
  | nil => exact absurd hdown (by simpa using hup)
  | cons stroke after ih =>
    by_cases hnow : stroke = .up key
    · exact ⟨[], after, by rw [hnow]; rfl, by simp⟩
    · have hstill : key ∈ held (before ++ [stroke]) := by
        rw [held_snoc]
        cases stroke with
        | down other =>
          rw [strike]
          split_ifs
          · exact hdown
          · exact List.mem_cons_of_mem _ hdown
        | up other =>
          have hother : key ≠ other := fun heq => hnow (heq ▸ rfl)
          exact List.mem_filter.mpr ⟨hdown, by simpa using hother⟩
      obtain ⟨mid, post, rfl, hmid⟩ := ih hstill (by simpa using hup)
      exact ⟨stroke :: mid, post, rfl, by simpa [hmid] using Ne.symm hnow⟩

theorem mem_held_down (before : List (Stroke K)) (key : K) :
    key ∈ held (before ++ [.down key]) := by
  rw [held_snoc, strike]
  split_ifs with hheld
  · exact hheld
  · exact List.mem_cons_self

theorem comesUp_of_nothingSticks (t : Typing K) (h : NothingSticks (layout.sent [] t.strokes))
    {pre post : List (Stroke K)} {key : K} (hsplit : t.strokes = pre ++ .down key :: post)
    (hcode : (layout.event pre (.down key)).code = some k) :
    layout.ComesUp (pre ++ [.down key]) post k := by
  have hlast := (nothingSticks_iff _).mp h k
  rw [hsplit, sent_append, lastAction_append, List.nil_append, lastAction_sent_cons,
    if_pos hcode] at hlast
  apply comesUp_of_last
  cases hafter : lastAction k (layout.sent (pre ++ [.down key]) post) with
  | none =>
    rw [hafter] at hlast
    exact absurd rfl hlast
  | some a =>
    cases a with
    | press =>
      rw [hafter] at hlast
      exact absurd rfl hlast
    | release => rfl

def labelOf : KeyCode → String
  | .unicode c => .singleton c
  | .enter => "Enter"
  | .escape => "Escape"
  | .backspace => "Backspace"
  | .tab => "Tab"
  | .space => " "
  | .delete => "Delete"
  | .home => "Home"
  | .end => "End"
  | .pageUp => "PageUp"
  | .pageDown => "PageDown"
  | .arrowUp => "ArrowUp"
  | .arrowDown => "ArrowDown"
  | .arrowLeft => "ArrowLeft"
  | .arrowRight => "ArrowRight"
  | .shift => "Shift"
  | .control => "Control"
  | .alt => "Alt"
  | .meta => "Meta"
  | .capsLock => "CapsLock"
  | .function n => "F" ++ toString n.toNat

/-- Every label that is forwarded has a code, which tells the label, and which the folded label
has as well. -/
structure Coded (label : String) : Prop where
  code : (mapKey label).map labelOf = some (fold label)
  folded : mapKey (fold label) = mapKey label

theorem coded_of_named {label : String} (h : label ∈ namedKeys) : Coded label := by
  have hall : ∀ label ∈ namedKeys, (mapKey label).map labelOf = some (fold label) ∧
      mapKey (fold label) = mapKey label := by decide
  exact ⟨(hall label h).1, (hall label h).2⟩

theorem toList_of_single {label : String} (h : utf16Length label = 1) :
    ∃ c, label.toList = [c] := by
  rw [utf16Length] at h
  match hlist : label.toList with
  | [] => simp [hlist] at h
  | [c] => exact ⟨c, rfl⟩
  | c :: d :: cs =>
    rw [hlist] at h
    simp only [List.map_cons, List.sum_cons] at h
    split_ifs at h <;> omega

theorem mapKey_single {label : String} {c : Char} (h : label.toList = [c]) :
    mapKey label = some (if c = ' ' then .space else .unicode c.toLower) := by
  obtain rfl : label = .singleton c := String.toList_injective (by simpa using h)
  have hparse : functionNumber [c] = none := by
    rw [functionNumber.eq_def]
    split
    · rename_i n hcons
      obtain rfl : n = [] := by simpa using (List.cons.inj hcons).2.symm
      rfl
    · rfl
  by_cases hspace : c = ' '
  · subst hspace
    rfl
  · rw [if_neg hspace]
    unfold mapKey
    split
    -- no named key has a label of one character
    all_goals try
      rename_i hname
      simpa [hspace] using congrArg String.toList hname
    simp [hparse]

theorem toLower_cases (c : Char) :
    c.toLower = c ∨ c.toNat ≤ 90 ∧ 97 ≤ c.toLower.toNat := by
  by_cases hupper : c.val ≥ 'A'.val ∧ c.val ≤ 'Z'.val
  · right
    have hlow : 65 ≤ c.val.toNat := hupper.1
    have hhigh : c.val.toNat ≤ 90 := hupper.2
    have hval : c.toLower.val = c.val + 32 := congrArg Char.val (dif_pos hupper)
    refine ⟨hhigh, ?_⟩
    have hsum : (c.val + 32).toNat = c.val.toNat + 32 := by
      have hlt : c.val.toNat + 32 < 2 ^ 32 := by omega
      rw [UInt32.toNat_add]
      exact Nat.mod_eq_of_lt hlt
    rw [Char.toNat, hval, hsum]
    omega
  · left
    exact dif_neg hupper

theorem toLower_eq_space {c : Char} : c.toLower = ' ' ↔ c = ' ' := by
  constructor
  · intro hspace
    rcases toLower_cases c with hsame | ⟨-, hlower⟩
    · exact hsame.symm.trans hspace
    · rw [hspace] at hlower
      exact absurd hlower (by decide)
  · rintro rfl
    rfl

theorem toLower_toLower (c : Char) : c.toLower.toLower = c.toLower := by
  rcases toLower_cases c with hsame | ⟨-, hlower⟩
  · rw [hsame, hsame]
  · rcases toLower_cases c.toLower with hsame | ⟨hupper, -⟩
    · exact hsame
    · omega

theorem coded_of_single {label : String} (h : utf16Length label = 1) : Coded label := by
  obtain ⟨c, hc⟩ := toList_of_single h
  have hfold : fold label = .singleton c.toLower := by
    have hname (name : String) (hname : 1 < name.toList.length) : label ≠ name := by
      rintro rfl
      rw [hc] at hname
      exact absurd hname (by simp)
    rw [fold.eq_3 label (hname _ (by decide)) (hname _ (by decide)), if_pos h, hc]
    rfl
  constructor
  · rw [mapKey_single hc, hfold]
    by_cases hspace : c = ' '
    · subst hspace
      rfl
    · rw [if_neg hspace]
      rfl
  · rw [mapKey_single hc, hfold, mapKey_single (String.toList_singleton _)]
    simp only [toLower_eq_space, toLower_toLower]

/-- Labels that are forwarded have one code iff they are the same when folded. -/
theorem mapKey_eq_iff {a b : String} (ha : Coded a) (hb : Coded b) :
    mapKey a = mapKey b ↔ fold a = fold b := by
  constructor
  · intro h
    have hlabel := ha.code.symm.trans (h ▸ hb.code)
    exact Option.some.inj hlabel
  · intro h
    rw [← ha.folded, h, hb.folded]

/-- What the handlers test is what the stroke is. -/
theorem code_eq_iff {before : List (Stroke K)} {stroke : Stroke K} :
    (layout.event before stroke).code = some k ↔
      layout.Shortcut before stroke ∧ mapKey (layout.label before stroke.key) = some k := by
  have hchord : ((layout.event before stroke).ctrlKey || (layout.event before stroke).altKey ||
      (layout.event before stroke).metaKey) = true ↔ layout.Chord (before ++ [stroke]) := by
    simp only [Layout.event, Layout.Chord, Bool.or_eq_true, List.any_eq_true, or_assoc]
    constructor
    · rintro (⟨key, hheld, hkey⟩ | ⟨key, hheld, hkey⟩ | ⟨key, hheld, hkey⟩)
      · exact ⟨key, hheld, .inl hkey⟩
      · exact ⟨key, hheld, .inr (.inl hkey)⟩
      · exact ⟨key, hheld, .inr (.inr hkey)⟩
    · rintro ⟨key, hheld, hkey | hkey | hkey⟩
      · exact .inl ⟨key, hheld, hkey⟩
      · exact .inr (.inl ⟨key, hheld, hkey⟩)
      · exact .inr (.inr ⟨key, hheld, hkey⟩)
  have hshortcut : (layout.event before stroke).Shortcut ↔ layout.Shortcut before stroke := by
    rw [KeyboardEvent.Shortcut, hchord]
    rfl
  rw [KeyboardEvent.code]
  by_cases h : (layout.event before stroke).Shortcut
  · rw [if_pos h]
    exact ⟨fun hcode => ⟨hshortcut.mp h, hcode⟩, And.right⟩
  · rw [if_neg h]
    exact ⟨fun hcode => (by cases hcode), fun hcode => absurd (hshortcut.mpr hcode.1) h⟩

theorem Layout.Shortcut.coded {stroke : Stroke K} (h : layout.Shortcut before stroke) :
    Coded (layout.label before stroke.key) := by
  rcases h with hnamed | ⟨hsingle, -⟩
  · exact coded_of_named hnamed
  · exact coded_of_single hsingle

theorem letGo_iff {label : String} {key : K} (hlabel : Coded label) (hk : mapKey label = some k) :
    layout.LetGo before key label ↔ (layout.event before (.up key)).code = some k := by
  rw [code_eq_iff, Layout.LetGo]
  constructor
  · rintro ⟨hshortcut, hfold⟩
    exact ⟨hshortcut, ((mapKey_eq_iff hshortcut.coded hlabel).mpr hfold).trans hk⟩
  · rintro ⟨hshortcut, hcode⟩
    exact ⟨hshortcut, (mapKey_eq_iff hshortcut.coded hlabel).mp (hcode.trans hk.symm)⟩

inductive SampleKey
  | controlLeft
  | keyC
deriving DecidableEq, Repr

def sampleLayout : Layout SampleKey where
  label _ key := match key with
    | .controlLeft => "Control"
    | .keyC => "c"
  ctrl key := key == .controlLeft
  alt _ := false
  metaFlag _ := false

def copyChord : Typing SampleKey where
  strokes := [.down .controlLeft, .down .keyC, .up .controlLeft, .up .keyC]
  released := by decide

end Controlis.Viewer.Keyboard
