import Mathlib.Algebra.Order.BigOperators.Group.List
import Controlis.Foundation.FirstCome
import Controlis.Portal.Release

/-!
# Text through a keymap

The client turns a keymap into a map from keysyms to key codes: of all keys that
carry a keysym, plain or shifted, the first one stays. Text is sent as presses
of these keys alone, so what arrives is what each of them types unshifted.
-/

namespace Controlis.Portal
open FirstCome Strokes Protocol

structure Keymap where
  minKeycode : UInt32
  maxKeycode : UInt32
  symsByLevel : ℕ → ℕ → ℕ → List UInt32

def evdevOffset : ℕ := 8

namespace Keymap
variable (k : Keymap) (charOf : UInt32 → Option Char)

def keycodes : List ℕ :=
  List.range' k.minKeycode.toNat (k.maxKeycode.toNat + 1 - k.minKeycode.toNat)

def reverse : UInt32 → Option UInt32 :=
  k.keycodes.foldl (fun m raw =>
    (List.range 2).foldl (fun m level =>
      insertAll m (.ofNat (raw - evdevOffset)) (k.symsByLevel raw 0 level)) m) fun _ => none

def types (code : UInt32) : List Char :=
  (k.symsByLevel (code.toNat + evdevOffset) 0 0).filterMap charOf

def readBack (events : List (Stroke (ℕ × UInt32))) : List (List Char) :=
  events.filterMap fun event => if event.2 then some (k.types charOf event.1.2) else none

def Carries (sym : UInt32) (raw : ℕ) : Prop :=
  (k.minKeycode.toNat ≤ raw ∧ raw ≤ k.maxKeycode.toNat) ∧
    (sym ∈ k.symsByLevel raw 0 0 ∨ sym ∈ k.symsByLevel raw 0 1)

def First (sym : UInt32) (raw : ℕ) : Prop :=
  k.Carries sym raw ∧ ∀ other < raw, ¬k.Carries sym other

/-- The first key that carries the keysym sent for `c` types `c` and nothing else, unshifted. -/
def TypesPlain (c : Char) : Prop :=
  ∃ raw, k.First (unicodeKeysym c) raw ∧
    (k.symsByLevel (max raw evdevOffset) 0 0).filterMap charOf = [c]

end Keymap

variable {D : Type*}

def typeText (p : PortalInjector) (text : List Char) (s : State D) : State D :=
  (p.text text).2.foldl State.onInput s

def textEvents (p : PortalInjector) (text : List Char) (s : State D) :
    List (Stroke (ℕ × UInt32)) :=
  (keyEvents (typeText p text s).log).drop (keyEvents s.log).length

structure Ready (k : Keymap) (s : State D) : Prop where
  keymap : s.keymap = some k.reverse
  keyboard : s.keyboard.any (·.emulating) = true

/-- Every press types one character of the text, in order. -/
def Arrives (k : Keymap) (charOf : UInt32 → Option Char) (p : PortalInjector) (text : List Char)
    (s : State D) : Prop :=
  k.readBack charOf (textEvents p text s) = text.map fun c => [c]

theorem mem_keycodes {k : Keymap} {raw : ℕ} :
    raw ∈ k.keycodes ↔ k.minKeycode.toNat ≤ raw ∧ raw ≤ k.maxKeycode.toNat := by
  rw [Keymap.keycodes, List.mem_range'_1]
  omega

theorem reverse_eq_collect (k : Keymap) : k.reverse =
    collect (fun raw => k.symsByLevel raw 0 0 ++ k.symsByLevel raw 0 1)
      (fun raw => .ofNat (raw - evdevOffset)) k.keycodes := by
  rw [Keymap.reverse, collect]
  simp only [insertAll_append]
  rfl

theorem first_iff {k : Keymap} {sym : UInt32} {raw : ℕ} :
    (k.keycodes.find? fun raw => sym ∈ k.symsByLevel raw 0 0 ++ k.symsByLevel raw 0 1) = some raw ↔
      k.First sym raw := by
  have hsorted : k.keycodes.Pairwise (· < ·) := List.pairwise_lt_range'
  rw [find?_ascending hsorted]
  simp only [decide_eq_true_eq, List.mem_append, mem_keycodes, Keymap.First, Keymap.Carries]
  constructor
  · rintro ⟨hrange, hsym, hleast⟩
    exact ⟨⟨hrange, hsym⟩, fun other hlt hother => hleast other hother.1 hlt hother.2⟩
  · rintro ⟨⟨hrange, hsym⟩, hleast⟩
    exact ⟨hrange, hsym, fun other hother hlt hsym => hleast other hlt ⟨hother, hsym⟩⟩

theorem reverse_eq_some {k : Keymap} {sym code : UInt32} :
    k.reverse sym = some code ↔ ∃ raw, k.First sym raw ∧ .ofNat (raw - evdevOffset) = code := by
  rw [reverse_eq_collect, collect_apply, Option.map_eq_some_iff]
  simp only [first_iff]

theorem keycode_of_code {k : Keymap} {sym : UInt32} {raw : ℕ} (h : k.First sym raw) :
    (UInt32.ofNat (raw - evdevOffset)).toNat + evdevOffset = max raw evdevOffset := by
  have hmax := k.maxKeycode.toNat_lt
  have hraw := h.1.1.2
  rw [UInt32.toNat_ofNat', evdevOffset]
  omega

theorem typesPlain_iff {k : Keymap} {charOf : UInt32 → Option Char} {c : Char} :
    k.TypesPlain charOf c ↔
      (k.reverse (unicodeKeysym c)).map (k.types charOf) = some [c] := by
  rw [Option.map_eq_some_iff]
  constructor
  · rintro ⟨raw, hfirst, htypes⟩
    refine ⟨_, reverse_eq_some.mpr ⟨raw, hfirst, rfl⟩, ?_⟩
    rw [Keymap.types, keycode_of_code hfirst, htypes]
  · rintro ⟨code, hcode, htypes⟩
    obtain ⟨raw, hfirst, rfl⟩ := reverse_eq_some.mp hcode
    rw [Keymap.types, keycode_of_code hfirst] at htypes
    exact ⟨raw, hfirst, htypes⟩

theorem toKeysym_unicode (c : Char) :
    toKeysym (.unicode c) = some (unicodeKeysym c).toInt32 := by
  have hlt : (unicodeKeysym c).toNat < 2 ^ 31 := by
    have hc : c.val.toNat < 0x110000 := by
      rcases c.valid with h | h <;> omega
    have hplane : (0x01000000 : UInt32).toNat = 0x01000000 := rfl
    unfold unicodeKeysym
    split_ifs
    · omega
    · rw [UInt32.toNat_add, hplane]
      omega
  rw [toKeysym, keysymOf, Option.bind_some, if_pos hlt]

def textCommands (text : List Char) : List InputCmd :=
  text.flatMap fun c =>
    [.key (unicodeKeysym c).toInt32 true, .key (unicodeKeysym c).toInt32 false]

theorem text_commands (p : PortalInjector) (text : List Char) :
    (p.text text).2 = textCommands text := by
  induction text generalizing p with
  | nil => rfl
  | cons c text ih =>
    have hrest := fun q : PortalInjector => ih q
    simp only [PortalInjector.text, PortalInjector.key, toKeysym_unicode, hrest]
    rfl

theorem keyStrokes_textCommands (text : List Char) :
    keyStrokes (textCommands text) = text.flatMap fun c =>
      [((unicodeKeysym c).toInt32, true), ((unicodeKeysym c).toInt32, false)] := by
  induction text with
  | nil => rfl
  | cons c text ih =>
    rw [textCommands, List.flatMap_cons, keyStrokes_append, List.flatMap_cons, ← ih]
    rfl

/-- A client that is ready applies key commands at once. -/
theorem keyEvents_commands {k : Keymap} {s : State D} (hs : Ready k s) {cmds : List InputCmd}
    (hkeys : ∀ cmd ∈ cmds, cmd.keyboard = true) :
    keyEvents (cmds.foldl State.onInput s).log =
      keyEvents s.log ++ rename s.keyCode (keyStrokes cmds) := by
  induction cmds generalizing s with
  | nil => simp [keyStrokes, rename]
  | cons cmd cmds ih =>
    have hcan : s.canApply cmd = true := by
      have hcmd := hkeys cmd List.mem_cons_self
      cases cmd with
      | key keysym pressed => simp [State.canApply, hs.keymap, hs.keyboard]
      | motion => cases hcmd
      | button => cases hcmd
      | axis => cases hcmd
    have hnow : s.onInput cmd = s.apply cmd := if_pos hcan
    have hready : Ready k (s.apply cmd) := ⟨hs.keymap, hs.keyboard⟩
    have hsplit : keyStrokes (cmd :: cmds) = keyStrokes [cmd] ++ keyStrokes cmds :=
      keyStrokes_append [cmd] cmds
    rw [List.foldl_cons, hnow, ih hready fun c hc => hkeys c (List.mem_cons_of_mem _ hc),
      keyEvents_apply, hsplit, rename_append, List.append_assoc]
    rfl

theorem textEvents_eq {k : Keymap} {s : State D} (hs : Ready k s) (p : PortalInjector)
    (text : List Char) :
    textEvents p text s = rename s.keyCode (text.flatMap fun c =>
      [((unicodeKeysym c).toInt32, true), ((unicodeKeysym c).toInt32, false)]) := by
  have hkeys : ∀ cmd ∈ textCommands text, cmd.keyboard = true := by
    intro cmd hcmd
    obtain ⟨c, -, hc⟩ := List.mem_flatMap.mp hcmd
    rcases List.mem_cons.mp hc with rfl | hc
    · rfl
    · rw [List.mem_singleton.mp hc]
      rfl
  rw [textEvents, typeText, text_commands, keyEvents_commands hs hkeys, List.drop_left,
    keyStrokes_textCommands]

theorem keyCode_eq {k : Keymap} {s : State D} (hs : Ready k s) : ∃ object, ∀ sym : UInt32,
    s.keyCode sym.toInt32 = (k.reverse sym).map fun code => (object, code) := by
  have hkeyboard := hs.keyboard
  cases hslot : s.keyboard with
  | none =>
    rw [hslot] at hkeyboard
    cases hkeyboard
  | some keyboard =>
    refine ⟨keyboard.objects, ?_⟩
    intro sym
    rw [State.keyCode, hs.keymap, hslot]
    simp only [Option.bind_some, Option.map_some, UInt32.toUInt32_toInt32]
    cases k.reverse sym <;> rfl

theorem readBack_textEvents {k : Keymap} {s : State D} (hs : Ready k s)
    (charOf : UInt32 → Option Char) (p : PortalInjector) (text : List Char) :
    k.readBack charOf (textEvents p text s) =
      text.filterMap fun c => (k.reverse (unicodeKeysym c)).map (k.types charOf) := by
  obtain ⟨object, hcode⟩ := keyCode_eq hs
  rw [textEvents_eq hs]
  induction text with
  | nil => rfl
  | cons c text ih =>
    rw [List.flatMap_cons, rename_append, Keymap.readBack, List.filterMap_append]
    rw [Keymap.readBack] at ih
    rw [ih, rename]
    cases hsym : k.reverse (unicodeKeysym c) with
    | none => simp [hcode, hsym]
    | some code => simp [hcode, hsym]

theorem filterMap_eq_map_iff {α β : Type*} {f : α → Option β} {g : α → β} {xs : List α} :
    xs.filterMap f = xs.map g ↔ ∀ x ∈ xs, f x = some (g x) := by
  induction xs with
  | nil => simp
  | cons x xs ih =>
    rw [List.forall_mem_cons, ← ih, List.map_cons]
    cases hx : f x with
    | none =>
      have hle := List.length_filterMap_le f xs
      rw [List.filterMap_cons_none hx]
      constructor
      · intro heq
        have hlength := congrArg List.length heq
        rw [List.length_cons, List.length_map] at hlength
        omega
      · rintro ⟨hnone, -⟩
        cases hnone
    | some y =>
      rw [List.filterMap_cons_some hx, List.cons.injEq, Option.some.injEq]

theorem flatten_eq_iff {α : Type*} {xs : List (List α)} {ys : List α}
    (hone : ∀ x ∈ xs, x.length ≤ 1) (hcount : xs.length ≤ ys.length) :
    xs.flatten = ys ↔ xs = ys.map fun y => [y] := by
  constructor
  · intro h
    subst h
    induction xs with
    | nil => rfl
    | cons x xs ih =>
      have hrest : ∀ x ∈ xs, x.length ≤ 1 := fun y hy => hone y (List.mem_cons_of_mem _ hy)
      have hle : xs.flatten.length ≤ xs.length := by
        rw [List.length_flatten]
        have hsum := List.sum_le_card_nsmul (xs.map List.length) 1 (List.forall_mem_map.mpr hrest)
        rwa [List.length_map, nsmul_one] at hsum
      have hx := hone x List.mem_cons_self
      rw [List.flatten_cons, List.length_append, List.length_cons] at hcount
      obtain ⟨y, rfl⟩ := List.length_eq_one_iff.mp (by omega : x.length = 1)
      rw [List.flatten_cons, List.map_append, ← ih hrest (by omega)]
      rfl
  · rintro rfl
    rw [← List.flatMap_def, List.flatMap_singleton']

theorem arrives_iff_joined {k : Keymap} {charOf : UInt32 → Option Char} {s : State D}
    (hs : Ready k s) (p : PortalInjector) (text : List Char)
    (hone : ∀ code, (k.types charOf code).length ≤ 1) :
    Arrives k charOf p text s ↔
      (k.readBack charOf (textEvents p text s)).flatten = text := by
  have hread := readBack_textEvents hs charOf p text
  rw [Arrives, flatten_eq_iff]
  · intro typed htyped
    rw [hread] at htyped
    obtain ⟨c, -, hc⟩ := List.mem_filterMap.mp htyped
    obtain ⟨code, -, rfl⟩ := Option.map_eq_some_iff.mp hc
    exact hone code
  · rw [hread]
    exact List.length_filterMap_le _ _

/-- Typed text arrives exactly when each of its characters is typed by the first key that carries
the keysym it is sent as, without a modifier. -/
theorem typed_text_arrives_iff (k : Keymap) (charOf : UInt32 → Option Char) (p : PortalInjector)
    (text : List Char) (s : State D) (hs : Ready k s) :
    Arrives k charOf p text s ↔ ∀ c ∈ text, k.TypesPlain charOf c := by
  rw [Arrives, readBack_textEvents hs, filterMap_eq_map_iff]
  simp only [typesPlain_iff]

def Latin1 (c : Char) : Prop :=
  (0x20 ≤ c.toNat ∧ c.toNat ≤ 0x7E) ∨ (0xA0 ≤ c.toNat ∧ c.toNat ≤ 0xFF)

instance (c : Char) : Decidable (Latin1 c) := inferInstanceAs (Decidable (_ ∨ _))

def charOfLatin1 (sym : UInt32) : Option Char :=
  if Latin1 (Char.ofNat sym.toNat) then some (Char.ofNat sym.toNat) else none

def twoKeys : Keymap where
  minKeycode := 38
  maxKeycode := 47
  symsByLevel
    | 38, 0, 0 => [0x61]
    | 38, 0, 1 => [0x41]
    | 47, 0, 0 => [0xE7]
    | 47, 0, 1 => [0xC7]
    | _, _, _ => []

def twoKeysClient : State ℕ :=
  { State.new with keymap := some twoKeys.reverse, keyboard := some ⟨0, 1, true⟩ }

theorem twoKeysClient_ready : Ready twoKeys twoKeysClient := ⟨rfl, rfl⟩

/-- A capital arrives as the small letter and a cedilla not at all, though keys carry both. -/
theorem typed_text_is_altered :
    twoKeys.readBack charOfLatin1 (textEvents .new ['A'] twoKeysClient) = [['a']] ∧
    twoKeys.readBack charOfLatin1 (textEvents .new ['ç'] twoKeysClient) = [] ∧
    ¬∀ (k : Keymap) (p : PortalInjector) (text : List Char) (s : State ℕ), Ready k s →
      (∀ c ∈ text, Latin1 c ∧ ∃ raw, k.Carries c.val raw) → Arrives k charOfLatin1 p text s := by
  have hcapital :
      twoKeys.readBack charOfLatin1 (textEvents .new ['A'] twoKeysClient) = [['a']] := by decide
  refine ⟨hcapital, by decide, ?_⟩
  intro h
  have harrives := h twoKeys .new ['A'] twoKeysClient twoKeysClient_ready (by
    intro c hc
    rw [List.mem_singleton.mp hc]
    exact ⟨by decide, 38, ⟨by decide, by decide⟩, Or.inr (by decide)⟩)
  rw [Arrives, hcapital] at harrives
  exact absurd harrives (by decide)

def letterKeys : Keymap where
  minKeycode := 32
  maxKeycode := 46
  symsByLevel
    | 32, 0, 0 => [0x6F]
    | 32, 0, 1 => [0x4F]
    | 38, 0, 0 => [0x61]
    | 38, 0, 1 => [0x41]
    | 46, 0, 0 => [0x6C]
    | 46, 0, 1 => [0x4C]
    | _, _, _ => []

def letterKeysClient : State ℕ :=
  { State.new with keymap := some letterKeys.reverse, keyboard := some ⟨0, 1, true⟩ }

instance (k : Keymap) (sym : UInt32) (raw : ℕ) : Decidable (k.Carries sym raw) :=
  inferInstanceAs (Decidable (_ ∧ _))

instance (k : Keymap) (sym : UInt32) (raw : ℕ) : Decidable (k.First sym raw) :=
  inferInstanceAs (Decidable (_ ∧ _))

theorem typed_text_arrives_iff_small :
    Arrives letterKeys charOfLatin1 .new ['o', 'l', 'a'] letterKeysClient ∧
      ¬Arrives letterKeys charOfLatin1 .new ['O', 'l', 'a'] letterKeysClient := by
  have hready : Ready letterKeys letterKeysClient := ⟨rfl, rfl⟩
  constructor
  · refine (typed_text_arrives_iff letterKeys charOfLatin1 .new _ _ hready).mpr fun c hc => ?_
    simp only [List.mem_cons, List.not_mem_nil, or_false] at hc
    rcases hc with rfl | rfl | rfl
    · exact ⟨32, by decide, by decide⟩
    · exact ⟨46, by decide, by decide⟩
    · exact ⟨38, by decide, by decide⟩
  · intro harrives
    obtain ⟨raw, hfirst, htypes⟩ :=
      (typed_text_arrives_iff letterKeys charOfLatin1 .new _ _ hready).mp harrives 'O' (by simp)
    -- the only key that carries the capital types the small letter
    obtain ⟨⟨hlow, hhigh⟩, -⟩ := hfirst.1
    have hraw : raw ≤ 46 := hhigh
    have hnone : ∀ raw < 47, letterKeys.First (unicodeKeysym 'O') raw →
        (letterKeys.symsByLevel (max raw evdevOffset) 0 0).filterMap charOfLatin1 ≠ ['O'] := by
      decide
    exact hnone raw (by omega) hfirst htypes

end Controlis.Portal
