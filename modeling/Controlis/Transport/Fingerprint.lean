import Mathlib.Data.List.Forall2
import Mathlib.Tactic.Common
import Mathlib.Tactic.IntervalCases

/-!
# Certificate fingerprints

A fingerprint is the SHA-256 digest of a certificate, printed as thirty-two
upper-case hex pairs with colons between them. The store keeps it as text and
reads it back through `parse`, which accepts either case.
-/

namespace Controlis.Transport

structure Fingerprint where
  text : String
deriving DecidableEq, Repr

def hexDigits : List Char := "0123456789ABCDEF".toList

def hexPair (b : UInt8) : List Char :=
  [hexDigits.getD (b.toNat / 16) '0', hexDigits.getD (b.toNat % 16) '0']

def Fingerprint.ofDigest (digest : Vector UInt8 32) : Fingerprint :=
  ⟨String.ofList ([':'].intercalate (digest.toList.map hexPair))⟩

def isAsciiHexDigit (c : Char) : Bool :=
  c.isDigit || ('a' ≤ c && c ≤ 'f') || ('A' ≤ c && c ≤ 'F')

def isHexPair (part : List Char) : Bool := part.length == 2 && part.all isAsciiHexDigit

def Fingerprint.parse (value : String) : Except String Fingerprint :=
  let parts := value.toList.splitOn ':'
  if !parts.all isHexPair then .error "fingerprint must be colon-separated hex pairs"
  else if parts.length ≠ 32 then .error "fingerprint must contain 32 SHA-256 bytes"
  else .ok ⟨String.ofList (value.toList.map Char.toUpper)⟩

def hexValue (c : Char) : Option ℕ :=
  if '0' ≤ c ∧ c ≤ '9' then some (c.toNat - '0'.toNat)
  else if 'a' ≤ c ∧ c ≤ 'f' then some (c.toNat - 'a'.toNat + 10)
  else if 'A' ≤ c ∧ c ≤ 'F' then some (c.toNat - 'A'.toNat + 10)
  else none

def Denotes (part : List Char) (b : UInt8) : Prop :=
  ∃ hi lo u v, part = [hi, lo] ∧ hexValue hi = some u ∧ hexValue lo = some v ∧
    b.toNat = 16 * u + v

/-- The text is thirty-two pairs with colons between them, one for each byte of the digest. -/
def SpellsDigest (text : String) (digest : Vector UInt8 32) : Prop :=
  ∃ parts, text.toList = [':'].intercalate parts ∧ List.Forall₂ Denotes parts digest.toList

/-- Thirty-two pairs of hex digits of either case, with colons between them. -/
def IsHexText (text : String) : Prop :=
  ∃ parts : List (List Char), parts.length = 32 ∧
    (∀ part ∈ parts, part.length = 2 ∧ ∀ c ∈ part, c ∈ "0123456789ABCDEFabcdef".toList) ∧
    text.toList = [':'].intercalate parts

theorem mem_hexDigits {c : Char} (h : isAsciiHexDigit c = true) :
    c ∈ "0123456789ABCDEFabcdef".toList := by
  have hrange : (48 ≤ c.toNat ∧ c.toNat ≤ 57) ∨ (97 ≤ c.toNat ∧ c.toNat ≤ 102) ∨
      (65 ≤ c.toNat ∧ c.toNat ≤ 70) := by
    simpa [isAsciiHexDigit, Char.isDigit_iff_toNat, Char.le_def, UInt32.le_iff_toNat_le, or_assoc]
      using h
  have hc : c = Char.ofNat c.toNat := (Char.ofNat_toNat c).symm
  generalize c.toNat = n at hrange hc
  rcases hrange with ⟨hlo, hhi⟩ | ⟨hlo, hhi⟩ | ⟨hlo, hhi⟩ <;> interval_cases n <;> subst hc <;>
    decide

theorem hexValue_spec {c : Char} (h : isAsciiHexDigit c = true) :
    ∃ v < 16, hexValue c = some v ∧ c.toUpper = hexDigits.getD v '0' ∧ c.utf8Size = 1 := by
  have hall : List.Forall (fun c => ∃ v < 16, hexValue c = some v ∧
      c.toUpper = hexDigits.getD v '0' ∧ c.utf8Size = 1) "0123456789ABCDEFabcdef".toList := by
    decide
  exact List.forall_iff_forall_mem.mp hall c (mem_hexDigits h)

theorem isAsciiHexDigit_of_value {c : Char} {v : ℕ} (h : hexValue c = some v) :
    isAsciiHexDigit c = true := by
  unfold hexValue at h
  split_ifs at h with hdigit hlower hupper
  · have hc : c.isDigit = true := by simpa [Char.isDigit, Char.le_def] using hdigit
    rw [isAsciiHexDigit, hc, Bool.true_or, Bool.true_or]
  · simp [isAsciiHexDigit, hlower]
  · simp [isAsciiHexDigit, hupper]

theorem hexValue_digit {n : ℕ} (h : n < 16) : hexValue (hexDigits.getD n '0') = some n := by
  revert n
  decide

theorem isHexPair_bytes (part : List Char) :
    isHexPair part = ((part.map Char.utf8Size).sum == 2 && part.all isAsciiHexDigit) := by
  cases hall : part.all isAsciiHexDigit with
  | false => rw [isHexPair, hall, Bool.and_false, Bool.and_false]
  | true =>
    have hone : part.map Char.utf8Size = part.map fun _ => 1 := by
      apply List.map_congr_left
      intro c hc
      obtain ⟨v, -, -, -, hsize⟩ := hexValue_spec (List.all_eq_true.mp hall c hc)
      exact hsize
    rw [isHexPair, hall, hone, List.map_const', List.sum_replicate_nat, Nat.mul_one]

theorem isHexPair_iff {part : List Char} : isHexPair part = true ↔ ∃ b, Denotes part b := by
  constructor
  · intro h
    rw [isHexPair, Bool.and_eq_true, beq_iff_eq, List.length_eq_two] at h
    obtain ⟨⟨hi, lo, rfl⟩, hall⟩ := h
    obtain ⟨u, hu, hhi, -⟩ := hexValue_spec (List.all_eq_true.mp hall hi (by simp))
    obtain ⟨v, hv, hlo, -⟩ := hexValue_spec (List.all_eq_true.mp hall lo (by simp))
    refine ⟨.ofNat (16 * u + v), hi, lo, u, v, rfl, hhi, hlo, ?_⟩
    rw [UInt8.toNat_ofNat']
    omega
  · rintro ⟨b, hi, lo, u, v, rfl, hu, hv, -⟩
    simp [isHexPair, isAsciiHexDigit_of_value hu, isAsciiHexDigit_of_value hv]

theorem Denotes.unique {part : List Char} {b c : UInt8} (h : Denotes part b)
    (h' : Denotes part c) : b = c := by
  obtain ⟨hi, lo, u, v, rfl, hu, hv, hb⟩ := h
  obtain ⟨hi', lo', u', v', hpart, hu', hv', hc⟩ := h'
  cases hpart
  rw [hu] at hu'
  rw [hv] at hv'
  cases hu'
  cases hv'
  exact UInt8.toNat_inj.mp (hb.trans hc.symm)

theorem denotes_hexPair (b : UInt8) : Denotes (hexPair b) b := by
  have hb := b.toNat_lt
  exact ⟨_, _, _, _, rfl, hexValue_digit (by omega), hexValue_digit (by omega), by omega⟩

theorem Denotes.upper {part : List Char} {b : UInt8} (h : Denotes part b) :
    part.map Char.toUpper = hexPair b := by
  obtain ⟨hi, lo, u, v, rfl, hu, hv, hb⟩ := h
  obtain ⟨u', -, hu', huUp, -⟩ := hexValue_spec (isAsciiHexDigit_of_value hu)
  obtain ⟨v', hv16, hv', hvUp, -⟩ := hexValue_spec (isAsciiHexDigit_of_value hv)
  rw [hu] at hu'
  rw [hv] at hv'
  cases hu'
  cases hv'
  have hhi : b.toNat / 16 = u := by omega
  have hlo : b.toNat % 16 = v := by omega
  rw [List.map_cons, List.map_cons, List.map_nil, huUp, hvUp, hexPair, hhi, hlo]

theorem Denotes.colon {part : List Char} {b : UInt8} (h : Denotes part b) : ':' ∉ part := by
  obtain ⟨hi, lo, u, v, rfl, hu, hv, -⟩ := h
  have hnone : hexValue ':' = none := by decide
  intro hmem
  simp only [List.mem_cons, List.not_mem_nil, or_false] at hmem
  rcases hmem with rfl | rfl
  · rw [hnone] at hu
    cases hu
  · rw [hnone] at hv
    cases hv

theorem upper_intercalate (parts : List (List Char)) :
    ([':'].intercalate parts).map Char.toUpper =
      [':'].intercalate (parts.map fun part => part.map Char.toUpper) := by
  induction parts with
  | nil => rfl
  | cons part parts ih =>
    cases parts with
    | nil => simp
    | cons next parts =>
      rw [List.intercalate_cons_cons, List.map_append, List.map_append, ih]
      exact List.intercalate_cons_cons.symm

theorem spells_iff_splitOn {text : String} {digest : Vector UInt8 32} :
    SpellsDigest text digest ↔ List.Forall₂ Denotes (text.toList.splitOn ':') digest.toList := by
  constructor
  · rintro ⟨parts, htext, hparts⟩
    have hcolon : ∀ part ∈ parts, ':' ∉ part :=
      ((List.forall₂_and_left _ _).mp (hparts.imp fun _ _ h => ⟨h.colon, h⟩)).1
    have hne : parts ≠ [] := by
      rintro rfl
      have hlength := hparts.length_eq
      simp at hlength
    rwa [htext, List.splitOn_intercalate ':' hcolon hne]
  · intro h
    exact ⟨_, (List.intercalate_splitOn ':').symm, h⟩

theorem denotes_of_hexPair {part : List Char} (hlength : part.length = 2)
    (hdigits : ∀ c ∈ part, c ∈ "0123456789ABCDEFabcdef".toList) : ∃ b, Denotes part b := by
  have hall : List.Forall (isAsciiHexDigit · = true) "0123456789ABCDEFabcdef".toList := by decide
  have hmem := List.forall_iff_forall_mem.mp hall
  apply isHexPair_iff.mp
  rw [isHexPair, hlength, List.all_eq_true.mpr fun c hc => hmem c (hdigits c hc)]
  rfl

theorem Denotes.isHexPair {part : List Char} {b : UInt8} (h : Denotes part b) :
    part.length = 2 ∧ ∀ c ∈ part, c ∈ "0123456789ABCDEFabcdef".toList := by
  have hpair := isHexPair_iff.mpr ⟨b, h⟩
  rw [Transport.isHexPair, Bool.and_eq_true, beq_iff_eq, List.all_eq_true] at hpair
  exact ⟨hpair.1, fun c hc => mem_hexDigits (hpair.2 c hc)⟩

theorem exists_bytes {parts : List (List Char)} (hlength : parts.length = 32)
    (hparts : ∀ part ∈ parts, ∃ b, Denotes part b) :
    ∃ digest : Vector UInt8 32, List.Forall₂ Denotes parts digest.toList := by
  choose! byte hbyte using hparts
  refine ⟨⟨(parts.map byte).toArray, by rw [List.size_toArray, List.length_map, hlength]⟩, ?_⟩
  change List.Forall₂ Denotes parts (parts.map byte)
  rw [List.forall₂_map_right_iff]
  exact List.forall₂_same.mpr hbyte

theorem isHexText_iff {text : String} : IsHexText text ↔ ∃ digest, SpellsDigest text digest := by
  constructor
  · rintro ⟨parts, hlength, hparts, htext⟩
    obtain ⟨digest, hdigest⟩ := exists_bytes hlength fun part hpart =>
      denotes_of_hexPair (hparts part hpart).1 (hparts part hpart).2
    exact ⟨digest, parts, htext, hdigest⟩
  · rintro ⟨digest, parts, htext, hparts⟩
    refine ⟨parts, by rw [hparts.length_eq, Vector.length_toList], ?_, htext⟩
    exact ((List.forall₂_and_left _ _).mp (hparts.imp fun _ _ h => ⟨h.isHexPair, h⟩)).1

theorem SpellsDigest.unique {text : String} {digest digest' : Vector UInt8 32}
    (h : SpellsDigest text digest) (h' : SpellsDigest text digest') : digest = digest' := by
  have hright : Relator.RightUnique Denotes := fun _ _ _ hb hc => hb.unique hc
  exact Vector.toList_inj.mp (hright.forall₂ (spells_iff_splitOn.mp h) (spells_iff_splitOn.mp h'))

theorem spells_ofDigest (digest : Vector UInt8 32) :
    SpellsDigest (Fingerprint.ofDigest digest).text digest := by
  refine ⟨digest.toList.map hexPair, String.toList_ofList, ?_⟩
  rw [List.forall₂_map_left_iff]
  exact List.forall₂_same.mpr fun b _ => denotes_hexPair b

theorem upper_parts {parts : List (List Char)} {bytes : List UInt8}
    (h : List.Forall₂ Denotes parts bytes) :
    (parts.map fun part => part.map Char.toUpper) = bytes.map hexPair := by
  induction h with
  | nil => rfl
  | cons hfirst _ ih => rw [List.map_cons, List.map_cons, hfirst.upper, ih]

theorem parse_of_spells {text : String} {digest : Vector UInt8 32} (h : SpellsDigest text digest) :
    Fingerprint.parse text = .ok (.ofDigest digest) := by
  have hsplit := spells_iff_splitOn.mp h
  have hpairs : (text.toList.splitOn ':').all isHexPair = true :=
    List.all_eq_true.mpr
      ((List.forall₂_and_left _ _).mp (hsplit.imp fun _ b h => ⟨isHexPair_iff.mpr ⟨b, h⟩, h⟩)).1
  have hlength : (text.toList.splitOn ':').length = 32 := by
    rw [hsplit.length_eq, Vector.length_toList]
  have hupper : text.toList.map Char.toUpper = [':'].intercalate (digest.toList.map hexPair) := by
    rw [← upper_parts hsplit, ← upper_intercalate, List.intercalate_splitOn]
  rw [Fingerprint.parse, hpairs, Bool.not_true, if_neg Bool.false_ne_true,
    if_neg (not_not.mpr hlength), hupper]
  rfl

theorem spells_of_parse {text : String} {fingerprint : Fingerprint}
    (h : Fingerprint.parse text = .ok fingerprint) : ∃ digest, SpellsDigest text digest := by
  rw [Fingerprint.parse] at h
  split_ifs at h with hpairs hlength
  rw [Bool.not_eq_true, Bool.not_eq_false', List.all_eq_true] at hpairs
  obtain ⟨digest, hdigest⟩ := exists_bytes (not_not.mp hlength) fun part hpart =>
    isHexPair_iff.mp (hpairs part hpart)
  exact ⟨digest, spells_iff_splitOn.mpr hdigest⟩

theorem parse_eq_ok_iff {text : String} {fingerprint : Fingerprint} :
    Fingerprint.parse text = .ok fingerprint ↔
      ∃ digest, SpellsDigest text digest ∧ fingerprint = .ofDigest digest := by
  constructor
  · intro h
    obtain ⟨digest, hspells⟩ := spells_of_parse h
    rw [parse_of_spells hspells] at h
    exact ⟨digest, hspells, (Except.ok.inj h).symm⟩
  · rintro ⟨digest, hspells, rfl⟩
    exact parse_of_spells hspells

theorem parse_ofDigest (digest : Vector UInt8 32) :
    Fingerprint.parse (Fingerprint.ofDigest digest).text = .ok (Fingerprint.ofDigest digest) :=
  parse_of_spells (spells_ofDigest digest)

theorem ofDigest_injective {digest digest' : Vector UInt8 32}
    (h : Fingerprint.ofDigest digest = .ofDigest digest') : digest = digest' := by
  have hspells := spells_ofDigest digest
  rw [h] at hspells
  exact hspells.unique (spells_ofDigest digest')

end Controlis.Transport
