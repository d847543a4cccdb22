import Mathlib.Logic.Function.Basic
import Controlis.ConnectCode
import Controlis.Transport.Identity

/-!
# The key of the Iroh endpoint

The key lies in one file, as text. A process that finds no file makes a key and
writes it, and takes any other trouble for an error. Processes are started at any
time, several at once if the app is started twice, and each may stop between the
read, the truncation of the file and the write. The text is short and written in
one piece.
-/

namespace Controlis.Transport.SecretKey
open Identity (Reading IdentityError)
open Security (isWhitespace)
open Runs

variable {K : Type*}

def hexDigit (n : ℕ) : Char := "0123456789abcdef".toList.getD n '0'

def hexEncode (bytes : List UInt8) : List Char :=
  bytes.flatMap fun b => [hexDigit (b.toNat / 16), hexDigit (b.toNat % 16)]

structure Iroh (K : Type*) where
  generate : ℕ → K
  toBytes : K → List UInt8
  fromStr : List Char → Except String K
  fromStr_hex : ∀ k, fromStr (hexEncode (toBytes k)) = .ok k
  fromStr_nil : ∃ e, fromStr [] = .error e

/-- `owner`: the process that has truncated the file last. -/
structure File where
  owner : ℕ
  text : List Char
deriving DecidableEq, Repr

inductive Ending (K : Type*)
  | crashed
  | failed (error : IdentityError)
  | loaded (key : K)

/-- `absent`: the process has found no file. `opened`: it has truncated the file. -/
inductive Phase (K : Type*)
  | ready
  | absent
  | opened
  | ended (e : Ending K)

structure State (K : Type*) where
  file : Option File
  creator : Option ℕ
  phase : ℕ → Phase K

inductive Writing
  | complete
  | broken (k : ℕ) (message : String)

inductive Event
  | read (process : ℕ) (reading : Reading)
  | openFile (process : ℕ) (refused : Option String)
  | write (process : ℕ) (writing : Writing)
  | crash (process : ℕ)

def trim (text : List Char) : List Char :=
  ((text.dropWhile isWhitespace).reverse.dropWhile isWhitespace).reverse

variable (lib : Iroh K)

def parse (text : List Char) : Ending K :=
  match lib.fromStr (trim text) with
  | .ok key => .loaded key
  | .error e => .failed (.certificate s!"invalid Iroh secret key: {e}")

def State.enter (s : State K) (p : ℕ) (phase : Phase K) : State K :=
  { s with phase := Function.update s.phase p phase }

def State.end (s : State K) (p : ℕ) (e : Ending K) : State K := s.enter p (.ended e)

def State.read (s : State K) (p : ℕ) : Reading → State K
  | .fails message => s.end p (.failed (.io message))
  | .works =>
    match s.file with
    | some file => s.end p (parse lib file.text)
    | none => s.enter p .absent

def State.openFile (s : State K) (p : ℕ) : Option String → State K
  | some message => s.end p (.failed (.io message))
  | none =>
    { file := some ⟨p, []⟩
      creator := s.creator.or (some p)
      phase := Function.update s.phase p .opened }

/-- The text is laid over what other processes have written since the truncation. -/
def State.lay (s : State K) (text : List Char) : State K :=
  { s with file := s.file.map fun file => ⟨file.owner, text ++ file.text.drop text.length⟩ }

def State.write (s : State K) (p : ℕ) : Writing → State K
  | .complete => (s.lay (hexEncode (lib.toBytes (lib.generate p)))).end p
      (.loaded (lib.generate p))
  | .broken k message => (s.lay ((hexEncode (lib.toBytes (lib.generate p))).take k)).end p
      (.failed (.io message))

def State.crash (s : State K) (p : ℕ) : State K := s.end p .crashed

def step (s : State K) : Event → State K
  | .read p reading =>
    match s.phase p with
    | .ready => s.read lib p reading
    | _ => s
  | .openFile p refused =>
    match s.phase p with
    | .absent => s.openFile p refused
    | _ => s
  | .write p writing =>
    match s.phase p with
    | .opened => s.write lib p writing
    | _ => s
  | .crash p =>
    match s.phase p with
    | .ended _ => s
    | _ => s.crash p

def start : State K := ⟨none, none, fun _ => .ready⟩

/-- The file is its creator's, and whoever has a key has the one that is read from it. -/
structure OneKey (s : State K) : Prop where
  kept : ∀ p, s.creator = some p → ∃ file, s.file = some file ∧ file.owner = p
  same : ∀ p key, s.phase p = .ended (.loaded key) →
    ∃ file, s.file = some file ∧ lib.fromStr (trim file.text) = .ok key

/-- No process opens a file that has come into being since its read. -/
def Careful (s : State K) : Event → Prop
  | .openFile p none => s.phase p = .absent → s.file = none
  | _ => True

def Apart (s : State K) : Event → Prop
  | .read p _ => ∀ q, q ≠ p → s.phase q ≠ .absent
  | _ => True

variable {lib} {s : State K} {p q : ℕ} {file : File} {key : K}

theorem hexDigit_visible (n : ℕ) : isWhitespace (hexDigit n) = false := by
  rcases Nat.lt_or_ge n 16 with hlt | hge
  · interval_cases n <;> rfl
  · rw [hexDigit, List.getD_eq_default _ _ hge]
    rfl

theorem dropWhile_visible {text : List Char} (h : ∀ c ∈ text, isWhitespace c = false) :
    text.dropWhile isWhitespace = text := by
  cases text with
  | nil => rfl
  | cons c text => simp [h c List.mem_cons_self]

theorem trim_hex (bytes : List UInt8) : trim (hexEncode bytes) = hexEncode bytes := by
  have hvisible : ∀ c ∈ hexEncode bytes, isWhitespace c = false := by
    intro c hc
    obtain ⟨b, -, hb⟩ := List.mem_flatMap.mp hc
    rcases List.mem_pair.mp hb with rfl | rfl
    · exact hexDigit_visible _
    · exact hexDigit_visible _
  rw [trim, dropWhile_visible hvisible, dropWhile_visible, List.reverse_reverse]
  exact fun c hc => hvisible c (List.mem_reverse.mp hc)

theorem parse_loaded {text : List Char} (h : parse lib text = .loaded key) :
    lib.fromStr (trim text) = .ok key := by
  unfold parse at h
  split at h
  · rename_i hread
    cases h
    exact hread
  · cases h

theorem fromStr_empty : lib.fromStr (trim []) ≠ .ok key := by
  obtain ⟨e, he⟩ := lib.fromStr_nil
  change lib.fromStr [] ≠ .ok key
  rw [he]
  exact nofun

structure Sound (lib : Iroh K) (s : State K) : Prop extends OneKey lib s where
  made : ∀ file, s.file = some file → s.creator = some file.owner
  begun : ∀ file, s.file = some file →
    s.phase file.owner = .opened ∨ ∃ e, s.phase file.owner = .ended e
  empty : ∀ p, s.phase p = .opened → s.file = some ⟨p, []⟩

theorem phase_enter (phase : Phase K) :
    (s.enter p phase).phase q = if q = p then phase else s.phase q := Function.update_apply ..

theorem phase_end (e : Ending K) :
    (s.end p e).phase q = if q = p then .ended e else s.phase q := phase_enter _

theorem phase_openFile : (s.openFile p none).phase q = if q = p then .opened else s.phase q :=
  Function.update_apply ..

theorem Sound.uncreated (h : Sound lib s) (hfile : s.file = none) : s.creator = none := by
  cases hcreator : s.creator with
  | none => rfl
  | some p =>
    obtain ⟨file, hsome, -⟩ := h.kept p hcreator
    cases hfile.symm.trans hsome

theorem Sound.keyless (h : Sound lib s) (hfile : s.file = some ⟨p, []⟩) (q : ℕ) (key : K) :
    s.phase q ≠ .ended (.loaded key) := by
  intro hloaded
  obtain ⟨file, hsome, hread⟩ := h.same q key hloaded
  cases hfile.symm.trans hsome
  exact fromStr_empty hread

theorem Sound.end (h : Sound lib s) {e : Ending K} (hkey : ∀ key, e = .loaded key →
    ∃ file, s.file = some file ∧ lib.fromStr (trim file.text) = .ok key) :
    Sound lib (s.end p e) := by
  refine ⟨⟨h.kept, ?_⟩, h.made, ?_, ?_⟩
  · intro q key hloaded
    rw [phase_end] at hloaded
    split_ifs at hloaded
    · cases hloaded
      exact hkey key rfl
    · exact h.same q key hloaded
  · intro file hfile
    rw [phase_end]
    split_ifs
    · exact .inr ⟨e, rfl⟩
    · exact h.begun file hfile
  · intro q hq
    rw [phase_end] at hq
    split_ifs at hq
    exact h.empty q hq

theorem Sound.read (h : Sound lib s) (hready : s.phase p = .ready) (reading : Reading) :
    Sound lib (s.read lib p reading) := by
  unfold State.read
  split
  · exact h.end nofun
  · split
    · rename_i file hfile
      exact h.end fun key hkey => ⟨file, hfile, parse_loaded hkey⟩
    · refine ⟨⟨h.kept, ?_⟩, h.made, ?_, ?_⟩
      · intro q key hloaded
        rw [phase_enter] at hloaded
        split_ifs at hloaded
        exact h.same q key hloaded
      · intro file hfile
        rw [phase_enter, if_neg]
        · exact h.begun file hfile
        · rintro rfl
          rcases h.begun file hfile with hopened | ⟨e, hended⟩
          · cases hready.symm.trans hopened
          · cases hready.symm.trans hended
      · intro q hq
        rw [phase_enter] at hq
        split_ifs at hq
        exact h.empty q hq

theorem Sound.openFile (h : Sound lib s) {refused : Option String}
    (hfile : refused = none → s.file = none) : Sound lib (s.openFile p refused) := by
  cases refused with
  | some message => exact h.end nofun
  | none =>
    have hnone : s.creator = none := h.uncreated (hfile rfl)
    -- a process with a key has read it from a file, and there is none
    have hkeyless (q : ℕ) (key : K) : s.phase q ≠ .ended (.loaded key) := by
      intro hloaded
      obtain ⟨file, hsome, -⟩ := h.same q key hloaded
      cases (hfile rfl).symm.trans hsome
    refine ⟨⟨?_, ?_⟩, ?_, ?_, ?_⟩
    · intro q hq
      rw [State.openFile, hnone] at hq
      cases hq
      exact ⟨_, rfl, rfl⟩
    · intro q key hloaded
      rw [phase_openFile] at hloaded
      split_ifs at hloaded
      exact absurd hloaded (hkeyless q key)
    · rintro file ⟨⟩
      rw [State.openFile, hnone]
      rfl
    · rintro file ⟨⟩
      exact .inl (phase_openFile.trans (if_pos rfl))
    · intro q hq
      rw [phase_openFile] at hq
      split_ifs at hq with hqp
      · rw [hqp]
        rfl
      · cases (hfile rfl).symm.trans (h.empty q hq)

theorem Sound.lay (h : Sound lib s) (hopened : s.phase p = .opened) {text : List Char}
    {e : Ending K} (hkey : ∀ key, e = .loaded key → lib.fromStr (trim text) = .ok key) :
    Sound lib ((s.lay text).end p e) := by
  have hfile : s.file = some ⟨p, []⟩ := h.empty p hopened
  have hlaid : (s.lay text).file = some ⟨p, text⟩ := by
    rw [State.lay, hfile]
    simp
  refine ⟨⟨?_, ?_⟩, ?_, ?_, ?_⟩
  · intro q hq
    obtain ⟨file, hsome, howner⟩ := h.kept q hq
    cases hfile.symm.trans hsome
    exact ⟨_, hlaid, howner⟩
  · intro q key hloaded
    rw [phase_end] at hloaded
    split_ifs at hloaded
    · cases hloaded
      exact ⟨_, hlaid, hkey key rfl⟩
    · exact absurd hloaded (h.keyless hfile q key)
  · intro file hsome
    cases hlaid.symm.trans hsome
    change s.creator = some p
    exact h.made _ hfile
  · intro file hsome
    cases hlaid.symm.trans hsome
    rw [phase_end, if_pos rfl]
    exact .inr ⟨e, rfl⟩
  · intro q hq
    rw [phase_end] at hq
    split_ifs at hq with hqp
    -- the file is empty for its owner alone
    have hother := h.empty q hq
    rw [hfile, Option.some.injEq, File.mk.injEq] at hother
    exact absurd hother.1.symm hqp

theorem Sound.step (h : Sound lib s) {e : Event} (hok : Careful s e) :
    Sound lib (step lib s e) := by
  cases e with
  | read p reading =>
    simp only [SecretKey.step]
    split
    · rename_i hready
      exact h.read hready reading
    · exact h
  | openFile p refused =>
    simp only [SecretKey.step]
    split
    · rename_i habsent
      refine h.openFile fun hrefused => ?_
      rw [hrefused] at hok
      exact hok habsent
    · exact h
  | write p writing =>
    simp only [SecretKey.step]
    split
    · rename_i hopened
      cases writing with
      | complete =>
        refine h.lay hopened fun key hkey => ?_
        cases hkey
        rw [trim_hex]
        exact lib.fromStr_hex _
      | broken k message => exact h.lay hopened nofun
    · exact h
  | crash p =>
    simp only [SecretKey.step]
    split
    · exact h
    · exact h.end nofun

theorem careful_of_oneKey (h : Sound lib s) {e : Event} (hafter : OneKey lib (step lib s e)) :
    Careful s e := by
  cases e with
  | openFile p refused =>
    cases refused with
    | some message => trivial
    | none =>
      intro habsent
      by_contra hsome
      obtain ⟨file, hfile⟩ := Option.ne_none_iff_exists'.mp hsome
      simp only [SecretKey.step, habsent] at hafter
      have hcreator : (s.openFile p none).creator = some file.owner := by
        rw [State.openFile, h.made file hfile]
        rfl
      -- the opened file is this process's, so the creator's is lost unless it is the same process
      obtain ⟨_, ⟨⟩, howner⟩ := hafter.kept _ hcreator
      change p = file.owner at howner
      rcases h.begun file hfile with hopened | ⟨e, hended⟩
      · rw [← howner, habsent] at hopened
        cases hopened
      · rw [← howner, habsent] at hended
        cases hended
  | _ => trivial

theorem sound_start (lib : Iroh K) : Sound lib start :=
  ⟨⟨nofun, nofun⟩, nofun, nofun, nofun⟩

theorem one_key_iff (lib : Iroh K) (es : List Event) :
    Meets (step lib) Careful start es ↔
      ∀ pre, pre <+: es → OneKey lib (pre.foldl (step lib) start) :=
  meets_iff (sound_start lib) (fun _ h => h.toOneKey) (fun _ _ h hok => h.step hok)
    fun _ _ h hafter => careful_of_oneKey h hafter

theorem two_first_starts (lib : Iroh K) :
    let s := [.read 0 .works, .read 1 .works, .openFile 0 none, .write 0 .complete,
      .openFile 1 none, .write 1 .complete].foldl (step lib) start
    s.phase 0 = .ended (.loaded (lib.generate 0)) ∧
      s.phase 1 = .ended (.loaded (lib.generate 1)) ∧ ¬OneKey lib s := by
  refine ⟨rfl, rfl, fun h => ?_⟩
  obtain ⟨_, ⟨⟩, howner⟩ := h.kept 0 rfl
  cases howner

structure Alone (s : State K) : Prop where
  lone : ∀ p q, s.phase p = .absent → s.phase q = .absent → p = q
  unmade : ∀ p, s.phase p = .absent → s.file = none

theorem Alone.mono (h : Alone s) {t : State K} (hphase : ∀ q, t.phase q = .absent →
    s.phase q = .absent) (hfile : s.file = none → t.file = none) : Alone t where
  lone p q hp hq := h.lone p q (hphase p hp) (hphase q hq)
  unmade p hp := hfile (h.unmade p (hphase p hp))

theorem Alone.end (h : Alone s) (e : Ending K) : Alone (s.end p e) := by
  refine h.mono (fun q hq => ?_) id
  rw [phase_end] at hq
  split_ifs at hq
  exact hq

theorem Alone.read (h : Alone s) (hapart : ∀ q, q ≠ p → s.phase q ≠ .absent)
    (reading : Reading) : Alone (s.read lib p reading) := by
  unfold State.read
  split
  · exact h.end _
  · split
    · exact h.end _
    · rename_i hfile
      have hlone (q : ℕ) (hq : (s.enter p .absent).phase q = .absent) : q = p := by
        by_contra hne
        rw [phase_enter, if_neg hne] at hq
        exact hapart q hne hq
      exact ⟨fun q r hq hr => (hlone q hq).trans (hlone r hr).symm, fun _ _ => hfile⟩

theorem Alone.openFile (h : Alone s) (habsent : s.phase p = .absent) (refused : Option String) :
    Alone (s.openFile p refused) := by
  cases refused with
  | some message => exact h.end _
  | none =>
    -- the process that had found no file was the only one
    have hnone (q : ℕ) : (s.openFile p none).phase q ≠ .absent := by
      intro hq
      rw [phase_openFile] at hq
      split_ifs at hq with hqp
      exact hqp (h.lone q p hq habsent)
    exact ⟨fun q _ hq => absurd hq (hnone q), fun q hq => absurd hq (hnone q)⟩

theorem Alone.lay (h : Alone s) (text : List Char) : Alone (s.lay text) :=
  h.mono (fun _ hq => hq) fun hfile => by rw [State.lay, hfile]; rfl

theorem Alone.step (h : Alone s) {e : Event} (hok : Apart s e) :
    Careful s e ∧ Alone (step lib s e) := by
  cases e with
  | read p reading =>
    refine ⟨trivial, ?_⟩
    simp only [SecretKey.step]
    split
    · exact h.read hok reading
    · exact h
  | openFile p refused =>
    constructor
    · cases refused with
      | some message => trivial
      | none => exact h.unmade p
    · simp only [SecretKey.step]
      split
      · rename_i habsent
        exact h.openFile habsent refused
      · exact h
  | write p writing =>
    refine ⟨trivial, ?_⟩
    simp only [SecretKey.step]
    split
    · cases writing with
      | complete => exact (h.lay _).end _
      | broken k message => exact (h.lay _).end _
    · exact h
  | crash p =>
    refine ⟨trivial, ?_⟩
    simp only [SecretKey.step]
    split
    · exact h
    · exact h.end _

theorem apart_one_key (lib : Iroh K) (es : List Event) (h : Meets (step lib) Apart start es) :
    ∀ pre, pre <+: es → OneKey lib (pre.foldl (step lib) start) := by
  refine h.always (I := fun s => Sound lib s ∧ Alone s) ⟨sound_start lib, nofun, nofun⟩
    (fun _ hs => hs.1.toOneKey) ?_
  intro s e ⟨hsound, halone⟩ hok
  have hstep : Careful s e ∧ Alone (step lib s e) := halone.step hok
  exact ⟨hsound.step hstep.1, hstep.2⟩

def sampleIroh : Iroh Bool where
  generate p := p % 2 == 0
  toBytes
    | false => [0]
    | true => [1]
  fromStr text :=
    if text = ['0', '0'] then .ok false
    else if text = ['0', '1'] then .ok true else .error "invalid length"
  fromStr_hex key := by cases key <;> rfl
  fromStr_nil := ⟨_, rfl⟩

theorem second_start_makes_key :
    OneKey sampleIroh ([.read 0 .works, .crash 0, .read 1 .works, .openFile 1 none,
      .write 1 .complete, .read 2 .works].foldl (step sampleIroh) start) := by
  refine apart_one_key sampleIroh _ ?_ _ (List.prefix_refl _)
  refine ⟨fun q _ => nofun, trivial, fun q hq => ?_, trivial, trivial, fun q hq => ?_, trivial⟩
  · by_cases h : q = 0
    · subst h
      exact nofun
    · simp [step, start, State.read, State.crash, State.end, State.enter, h]
  · by_cases h : q = 0
    · subst h
      exact nofun
    · by_cases h' : q = 1
      · subst h'
        exact nofun
      · simp [step, start, State.read, State.crash, State.end, State.enter, State.openFile,
          State.write, State.lay, h, h']

/-- Nobody is about to create the file or to write to it, and a process with a key had it before or
has read it from the text. -/
structure Settled (lib : Iroh K) (file : File) (old s : State K) : Prop where
  there : s.file = some file
  quiet : ∀ p, s.phase p ≠ .absent ∧ s.phase p ≠ .opened
  read : ∀ p key, s.phase p = .ended (.loaded key) →
    old.phase p = .ended (.loaded key) ∨ parse lib file.text = .loaded key

theorem Settled.end {old : State K} (h : Settled lib file old s) {e : Ending K}
    (hkey : ∀ key, e = .loaded key → parse lib file.text = .loaded key) :
    Settled lib file old (s.end p e) := by
  refine ⟨h.there, fun q => ?_, fun q key hloaded => ?_⟩
  · rw [phase_end]
    split_ifs
    · exact ⟨nofun, nofun⟩
    · exact h.quiet q
  · rw [phase_end] at hloaded
    split_ifs at hloaded
    · cases hloaded
      exact .inr (hkey key rfl)
    · exact h.read q key hloaded

theorem Settled.step {old : State K} (h : Settled lib file old s) (e : Event) :
    Settled lib file old (step lib s e) := by
  cases e with
  | read p reading =>
    simp only [SecretKey.step]
    split
    · cases reading with
      | fails message => exact h.end nofun
      | works =>
        simp only [State.read, h.there]
        exact h.end fun _ => id
    · exact h
  | openFile p refused =>
    simp only [SecretKey.step]
    split
    · rename_i habsent
      exact absurd habsent (h.quiet p).1
    · exact h
  | write p writing =>
    simp only [SecretKey.step]
    split
    · rename_i hopened
      exact absurd hopened (h.quiet p).2
    · exact h
  | crash p =>
    simp only [SecretKey.step]
    split
    · exact h
    · exact h.end nofun

/-- Once the file is there and nobody is writing it, no start changes it again, and none that comes
after has a key unless the text is one. -/
theorem file_settles (lib : Iroh K) (s : State K) (hfile : s.file = some file)
    (hquiet : ∀ p, s.phase p ≠ .absent ∧ s.phase p ≠ .opened) (es : List Event) :
    (es.foldl (step lib) s).file = some file ∧
      ∀ p key, (es.foldl (step lib) s).phase p = .ended (.loaded key) →
        s.phase p = .ended (.loaded key) ∨ parse lib file.text = .loaded key := by
  have hsettled : Settled lib file s (es.foldl (step lib) s) :=
    invariant ⟨hfile, hquiet, fun _ _ => .inl⟩ fun _ e h => h.step e
  exact ⟨hsettled.there, hsettled.read⟩

def cutShort : State Bool :=
  [.read 0 .works, .openFile 0 none, .crash 0].foldl (step sampleIroh) start

theorem cutShort_phase (p : ℕ) : cutShort.phase p = if p = 0 then .ended .crashed else .ready := by
  by_cases hp : p = 0
  · subst hp
    rfl
  · simp [cutShort, step, start, State.read, State.crash, State.end, State.enter, State.openFile,
      hp]

/-- The first start stops before the write, and the file it leaves fails all that follow. -/
theorem cut_first_start :
    ([.read 1 .works, .read 2 .works].foldl (step sampleIroh) cutShort).file = some ⟨0, []⟩ ∧
      ∀ p key, ([.read 1 .works, .read 2 .works].foldl (step sampleIroh) cutShort).phase p ≠
        .ended (.loaded key) := by
  have hquiet (p : ℕ) : cutShort.phase p ≠ .absent ∧ cutShort.phase p ≠ .opened := by
    rw [cutShort_phase]
    split_ifs
    · exact ⟨nofun, nofun⟩
    · exact ⟨nofun, nofun⟩
  obtain ⟨hfile, hloaded⟩ := file_settles sampleIroh cutShort rfl hquiet
    [.read 1 .works, .read 2 .works]
  refine ⟨hfile, fun p key hkey => ?_⟩
  rcases hloaded p key hkey with hbefore | hread
  · rw [cutShort_phase] at hbefore
    split_ifs at hbefore
    cases hbefore
  · cases hread

end Controlis.Transport.SecretKey
