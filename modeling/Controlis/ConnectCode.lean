import Mathlib.Data.List.Forall2
import Mathlib.Data.List.GetD
import Mathlib.Data.List.Nodup
import Mathlib.Tactic.Common
import Controlis.Foundation.Numeral

/-!
# Access codes

An access code packs a version, a 30-bit secret and the target of the session
into 80 bits and shows them as sixteen Crockford base-32 symbols in groups of
four. `parse` reads such a string back through a tolerant normaliser. A payload
fits in `u128` with room to spare, so it is a plain number here. `Denotes` and
`Spells` say without the code's loop which strings spell which symbols.
-/

namespace Controlis.Security
open Numeral

def alphabet : List Char := "0123456789ABCDEFGHJKMNPQRSTVWXYZ".toList

def codeChars : ℕ := 16
def groupLen : ℕ := 4
def lanVersion : ℕ := 0
def rendezvousVersion : ℕ := 1
def secretBits : ℕ := 30
def rendezvousIdBits : ℕ := 48
def rendezvousIdMask : ℕ := 1 <<< rendezvousIdBits - 1

structure SocketAddrV4 where
  ip : UInt32
  port : UInt16
deriving DecidableEq, Repr

inductive ConnectTarget
  | lan (addr : SocketAddrV4)
  | rendezvous (id : UInt64)
deriving DecidableEq, Repr

structure ConnectCode where
  target : ConnectTarget
  code : String
deriving DecidableEq, Repr

inductive ConnectCodeError
  | wrongLength
  | invalidChar
  | unsupportedVersion
  | rendezvousIdOutOfRange
deriving DecidableEq, Repr

def isWhitespace (c : Char) : Bool :=
  let n := c.toNat
  (9 ≤ n && n ≤ 13) || n == 0x20 || n == 0x85 || n == 0xA0 || n == 0x1680 ||
    (0x2000 ≤ n && n ≤ 0x200A) || n == 0x2028 || n == 0x2029 || n == 0x202F || n == 0x205F ||
    n == 0x3000

def isSeparator (c : Char) : Bool := isWhitespace c || c == '-' || c == '_'

def unalias (c : Char) : Char :=
  match c.toUpper with
  | 'O' => '0'
  | 'I' => '1'
  | 'L' => '1'
  | other => other

def normalizeLoop (digits : List ℕ) : List Char → Except ConnectCodeError (List ℕ)
  | [] => .ok digits
  | c :: cs =>
    if isSeparator c then normalizeLoop digits cs
    else
      match alphabet.findIdx? (· == unalias c) with
      | none => .error .invalidChar
      | some digit =>
        if digits.length = codeChars then .error .wrongLength
        else normalizeLoop (digits ++ [digit]) cs

def normalize (input : String) : Except ConnectCodeError (List ℕ) := normalizeLoop [] input.toList

/-- One round of the descending loop of `from_payload`. -/
def pushSymbol (value : ℕ) (chars : List Char) (i : ℕ) : List Char :=
  let chars :=
    if chars ≠ [] ∧ (codeChars - i) % groupLen = 1 ∧ i ≠ codeChars - 1 then chars ++ ['-']
    else chars
  chars ++ [alphabet.getD ((value >>> (i * 5)) &&& 0x1F) '0']

def fromPayload (target : ConnectTarget) (value : ℕ) : ConnectCode where
  target := target
  code := String.ofList ((List.range codeChars).reverse.foldl (pushSymbol value) [])

def lanPayload (addr : SocketAddrV4) (secret : UInt32) : ℕ :=
  lanVersion <<< 78 ||| secret.toNat <<< 48 ||| addr.ip.toNat <<< 16 ||| addr.port.toNat

def rendezvousPayload (id : UInt64) (secret : UInt32) : ℕ :=
  rendezvousVersion <<< 78 ||| secret.toNat <<< 48 ||| id.toNat

def assembleLan (addr : SocketAddrV4) (secret : UInt32) : ConnectCode :=
  fromPayload (.lan addr) (lanPayload addr secret)

def assembleRendezvous (id : UInt64) (secret : UInt32) : ConnectCode :=
  fromPayload (.rendezvous id) (rendezvousPayload id secret)

def generate (addr : SocketAddrV4) (secret : Fin (2 ^ secretBits)) : ConnectCode :=
  assembleLan addr (UInt32.ofNat secret)

def generateRendezvous (id : UInt64) (secret : Fin (2 ^ secretBits)) :
    Except ConnectCodeError ConnectCode :=
  if rendezvousIdMask < id.toNat then .error .rendezvousIdOutOfRange
  else .ok (assembleRendezvous id (UInt32.ofNat secret))

def parsePayload (value : ℕ) : Except ConnectCodeError ConnectCode :=
  let version := value >>> 78
  let secret := UInt32.ofNat ((value >>> 48) &&& (1 <<< secretBits - 1))
  if version = lanVersion then
    let ip := UInt32.ofNat ((value >>> 16) &&& 0xFFFFFFFF)
    let port := UInt16.ofNat (value &&& 0xFFFF)
    .ok (assembleLan ⟨ip, port⟩ secret)
  else if version = rendezvousVersion then
    .ok (assembleRendezvous (UInt64.ofNat (value &&& rendezvousIdMask)) secret)
  else .error .unsupportedVersion

def parse (input : String) : Except ConnectCodeError ConnectCode :=
  match normalize input with
  | .error e => .error e
  | .ok digits =>
    if digits.length ≠ codeChars then .error .wrongLength
    else parsePayload (digits.foldl (fun value digit => value <<< 5 ||| digit) 0)

/-- The filter of `verify_code`: ASCII letters and digits, uppercased. -/
def normalizeCode (code : String) : List Char :=
  (code.toList.filter Char.isAlphanum).map Char.toUpper

def verifyCode (expected candidate : String) : Bool :=
  normalizeCode expected == normalizeCode candidate

def ConnectCode.verify (c : ConnectCode) (candidate : String) : Bool :=
  match parse candidate with
  | .error _ => verifyCode c.code candidate
  | .ok normalized => verifyCode c.code normalized.code

def symbols (s : String) : List Char := s.toList.filter fun c => !isSeparator c

/-- `c` is the alphabet's symbol `d` up to ASCII case, or an alias of it. -/
def Denotes (c : Char) (d : ℕ) : Prop :=
  alphabet[d]? = some c.toUpper ∨ (c.toUpper = 'O' ∧ d = 0) ∨
    ((c.toUpper = 'I' ∨ c.toUpper = 'L') ∧ d = 1)

def Spells (s : String) (ds : List ℕ) : Prop := List.Forall₂ Denotes (symbols s) ds

def grouped (ds : List ℕ) : String :=
  let cs := ds.map fun d => alphabet.getD d '0'
  String.ofList (cs.take 4 ++ '-' :: ((cs.drop 4).take 4 ++ '-' :: ((cs.drop 8).take 4 ++
    '-' :: cs.drop 12)))

theorem alphabet_nodup : alphabet.Nodup := by decide

theorem alphabet_length : alphabet.length = 32 := by decide

theorem findIdx?_alphabet (c : Char) (d : ℕ) :
    alphabet.findIdx? (· == c) = some d ↔ alphabet[d]? = some c := by
  constructor
  · intro h
    obtain ⟨hd, hc, -⟩ := List.findIdx?_eq_some_iff_getElem.mp h
    rw [List.getElem?_eq_getElem hd]
    exact congrArg some (beq_iff_eq.mp hc)
  · intro h
    obtain ⟨hd, hc⟩ := List.getElem?_eq_some_iff.mp h
    refine List.findIdx?_eq_some_iff_getElem.mpr ⟨hd, beq_iff_eq.mpr hc, fun j hj => ?_⟩
    have hne : alphabet[j] ≠ alphabet[d] := fun he =>
      absurd ((List.Nodup.getElem_inj_iff alphabet_nodup).mp he) (by omega)
    simpa [← hc] using hne

theorem alphabet_index {c : Char} {i : ℕ} (hi : alphabet[i]? = some c) (d : ℕ) :
    alphabet[d]? = some c ↔ d = i := by
  constructor
  · intro hd
    have h := (findIdx?_alphabet c d).mpr hd
    rw [(findIdx?_alphabet c i).mpr hi] at h
    exact (Option.some.inj h).symm
  · rintro rfl
    exact hi

theorem alphabet_not_mem {c : Char} (hc : c ∉ alphabet) (d : ℕ) : alphabet[d]? ≠ some c :=
  fun h => hc (List.mem_of_getElem? h)

theorem denotes_iff (c : Char) (d : ℕ) :
    Denotes c d ↔ alphabet.findIdx? (· == unalias c) = some d := by
  rw [findIdx?_alphabet, Denotes, unalias]
  generalize c.toUpper = u
  split
  · have hO : alphabet[d]? ≠ some 'O' := alphabet_not_mem (by decide) d
    have h0 := alphabet_index (c := '0') (i := 0) (by decide) d
    simp [hO, h0]
  · have hI : alphabet[d]? ≠ some 'I' := alphabet_not_mem (by decide) d
    have h1 := alphabet_index (c := '1') (i := 1) (by decide) d
    simp [hI, h1]
  · have hL : alphabet[d]? ≠ some 'L' := alphabet_not_mem (by decide) d
    have h1 := alphabet_index (c := '1') (i := 1) (by decide) d
    simp [hL, h1]
  · simp_all

theorem Denotes.unique {c : Char} {d e : ℕ} (hd : Denotes c d) (he : Denotes c e) : d = e := by
  rw [denotes_iff] at hd he
  exact Option.some.inj (hd.symm.trans he)

theorem Denotes.lt {c : Char} {d : ℕ} (h : Denotes c d) : d < 32 := by
  rw [denotes_iff, findIdx?_alphabet] at h
  rw [← alphabet_length]
  exact (List.getElem?_eq_some_iff.mp h).1

theorem Spells.unique {s : String} {ds es : List ℕ} (hd : Spells s ds) (he : Spells s es) :
    ds = es := by
  unfold Spells at hd he
  generalize symbols s = cs at hd he
  induction hd generalizing es with
  | nil => cases he; rfl
  | cons h _ ih =>
    cases he with
    | cons h' hs' => rw [h.unique h', ih hs']

theorem Spells.lt {s : String} {ds : List ℕ} (h : Spells s ds) : ∀ d ∈ ds, d < 32 := by
  unfold Spells at h
  generalize symbols s = cs at h
  induction h with
  | nil => simp
  | cons h _ ih => simpa using ⟨h.lt, ih⟩

theorem normalizeLoop_ok (cs : List Char) (acc ds : List ℕ) (hacc : acc.length ≤ codeChars) :
    normalizeLoop acc cs = .ok ds ↔
      ∃ new, ds = acc ++ new ∧ ds.length ≤ codeChars ∧
        List.Forall₂ Denotes (cs.filter fun c => !isSeparator c) new := by
  induction cs generalizing acc with
  | nil =>
    simp only [normalizeLoop, List.filter_nil, List.forall₂_nil_left_iff]
    constructor
    · intro h
      cases h
      exact ⟨[], by simp, hacc, rfl⟩
    · rintro ⟨_, rfl, -, rfl⟩
      simp
  | cons c cs ih =>
    by_cases hsep : isSeparator c
    · have hskip : (c :: cs).filter (fun c => !isSeparator c) =
          cs.filter fun c => !isSeparator c := by simp [hsep]
      rw [normalizeLoop, if_pos hsep, ih acc hacc, hskip]
    simp only [normalizeLoop, hsep, Bool.not_false, List.filter_cons_of_pos, Bool.false_eq_true,
      if_false, List.forall₂_cons_left_iff, denotes_iff]
    cases hdig : alphabet.findIdx? (· == unalias c) with
    | none => simp
    | some d =>
      simp only [Option.some.injEq]
      split_ifs with hfull
      · simp only [false_iff, not_exists, not_and]
        rintro new rfl hlen d' rest - - rfl
        simp only [List.length_append, List.length_cons] at hlen
        omega
      · rw [ih (acc ++ [d]) (by simp only [List.length_append, List.length_singleton]; omega)]
        constructor
        · rintro ⟨new, rfl, hlen, hnew⟩
          exact ⟨d :: new, by simp, hlen, d, new, rfl, hnew, rfl⟩
        · rintro ⟨_, rfl, hlen, _, new, rfl, hnew, rfl⟩
          exact ⟨new, by simp, hlen, hnew⟩

theorem normalize_ok (s : String) (ds : List ℕ) :
    normalize s = .ok ds ↔ Spells s ds ∧ ds.length ≤ codeChars := by
  rw [normalize, normalizeLoop_ok _ _ _ (Nat.zero_le _)]
  constructor
  · rintro ⟨_, rfl, hlen, h⟩
    exact ⟨h, hlen⟩
  · rintro ⟨h, hlen⟩
    exact ⟨ds, rfl, hlen, h⟩

theorem or_eq_add {k q d : ℕ} (hd : d < 2 ^ k) : 2 ^ k * q ||| d = 2 ^ k * q + d :=
  (Nat.two_pow_add_eq_or_of_lt hd q).symm

theorem lanPayload_eq (addr : SocketAddrV4) (secret : UInt32) :
    lanPayload addr secret =
      secret.toNat * 2 ^ 48 + addr.ip.toNat * 2 ^ 16 + addr.port.toNat := by
  have hip := addr.ip.toNat_lt
  have hport := addr.port.toNat_lt
  have hhead : secret.toNat <<< 48 ||| addr.ip.toNat <<< 16 =
      2 ^ 16 * (secret.toNat * 2 ^ 32 + addr.ip.toNat) := by
    rw [shiftLeft_or (by rw [Nat.shiftLeft_eq]; omega), Nat.shiftLeft_eq]
    omega
  rw [lanPayload, lanVersion, Nat.zero_shiftLeft, Nat.zero_or, hhead, or_eq_add hport]
  omega

theorem rendezvousPayload_eq {id : UInt64} {secret : UInt32}
    (hid : id.toNat < 2 ^ rendezvousIdBits) (hsecret : secret.toNat < 2 ^ secretBits) :
    rendezvousPayload id secret = 2 ^ 78 + secret.toNat * 2 ^ 48 + id.toNat := by
  simp only [rendezvousIdBits, secretBits] at hid hsecret
  have hhead : rendezvousVersion <<< 78 ||| secret.toNat <<< 48 =
      2 ^ 48 * (2 ^ 30 + secret.toNat) := by
    rw [rendezvousVersion, shiftLeft_or (by rw [Nat.shiftLeft_eq]; omega), Nat.shiftLeft_eq]
    omega
  rw [rendezvousPayload, hhead, or_eq_add hid]
  omega

theorem fromPayload_code (target : ConnectTarget) (value : ℕ) :
    (fromPayload target value).code = grouped (digits 32 codeChars value) := by
  have hsymbol (i : ℕ) : (value >>> i) &&& 0x1F = value / 2 ^ i % 32 := shiftRight_mask value i 5
  have hlast : value &&& 0x1F = value % 32 := by simpa using hsymbol 0
  simp [fromPayload, grouped, digits, codeChars, groupLen, List.range, List.range.loop,
    pushSymbol, hsymbol, hlast]

theorem parsePayload_eq (value : ℕ) :
    parsePayload value =
      if value / 2 ^ 78 = 0 then
        .ok (assembleLan
          ⟨UInt32.ofNat (value / 2 ^ 16 % 2 ^ 32), UInt16.ofNat (value % 2 ^ 16)⟩
          (UInt32.ofNat (value / 2 ^ 48 % 2 ^ 30)))
      else if value / 2 ^ 78 = 1 then
        .ok (assembleRendezvous (UInt64.ofNat (value % 2 ^ 48))
          (UInt32.ofNat (value / 2 ^ 48 % 2 ^ 30)))
      else .error .unsupportedVersion := by
  have hsecret : (value >>> 48) &&& (1 <<< secretBits - 1) = value / 2 ^ 48 % 2 ^ 30 :=
    shiftRight_mask value 48 30
  have hip : (value >>> 16) &&& 0xFFFFFFFF = value / 2 ^ 16 % 2 ^ 32 := shiftRight_mask value 16 32
  have hport : value &&& 0xFFFF = value % 2 ^ 16 := Nat.and_two_pow_sub_one_eq_mod value 16
  have hid : value &&& rendezvousIdMask = value % 2 ^ 48 := Nat.and_two_pow_sub_one_eq_mod value 48
  rw [parsePayload, hsecret, hip, hport, hid, Nat.shiftRight_eq_div_pow]
  rfl

theorem parsePayload_ok {value : ℕ} :
    (∃ c, parsePayload value = .ok c) ↔ value < 2 ^ 79 := by
  rw [parsePayload_eq]
  split_ifs with hlan hrendezvous
  · simp; omega
  · simp; omega
  · simp; omega

theorem parsePayload_code {value : ℕ} {c : ConnectCode} (h : parsePayload value = .ok c) :
    c.code = grouped (digits 32 codeChars value) := by
  have hsecret : (UInt32.ofNat (value / 2 ^ 48 % 2 ^ 30)).toNat = value / 2 ^ 48 % 2 ^ 30 := by
    rw [UInt32.toNat_ofNat']
    omega
  rw [parsePayload_eq] at h
  split_ifs at h with hlan hrendezvous
  · cases h
    rw [assembleLan, fromPayload_code, lanPayload_eq, hsecret]
    simp only [UInt32.toNat_ofNat', UInt16.toNat_ofNat']
    congr 2
    omega
  · cases h
    have hid : (UInt64.ofNat (value % 2 ^ 48)).toNat = value % 2 ^ 48 := by
      rw [UInt64.toNat_ofNat']
      omega
    rw [assembleRendezvous, fromPayload_code, rendezvousPayload_eq
      (by rw [hid, rendezvousIdBits]; omega) (by rw [hsecret, secretBits]; omega), hsecret, hid]
    congr 2
    omega

theorem parsePayload_lan (addr : SocketAddrV4) {secret : UInt32}
    (hsecret : secret.toNat < 2 ^ secretBits) :
    parsePayload (lanPayload addr secret) = .ok (assembleLan addr secret) := by
  have hip := addr.ip.toNat_lt
  have hport := addr.port.toNat_lt
  simp only [secretBits] at hsecret
  generalize hv : lanPayload addr secret = v
  rw [lanPayload_eq] at hv
  have hversion : v / 2 ^ 78 = 0 := by omega
  have hs : v / 2 ^ 48 % 2 ^ 30 = secret.toNat := by omega
  have hi : v / 2 ^ 16 % 2 ^ 32 = addr.ip.toNat := by omega
  have hp : v % 2 ^ 16 = addr.port.toNat := by omega
  rw [parsePayload_eq, if_pos hversion, hs, hi, hp, UInt32.ofNat_toNat, UInt32.ofNat_toNat,
    UInt16.ofNat_toNat]

theorem parsePayload_rendezvous {id : UInt64} {secret : UInt32}
    (hid : id.toNat < 2 ^ rendezvousIdBits) (hsecret : secret.toNat < 2 ^ secretBits) :
    parsePayload (rendezvousPayload id secret) = .ok (assembleRendezvous id secret) := by
  generalize hv : rendezvousPayload id secret = v
  rw [rendezvousPayload_eq hid hsecret] at hv
  simp only [rendezvousIdBits, secretBits] at hid hsecret
  have hlan : ¬v / 2 ^ 78 = 0 := by omega
  have hversion : v / 2 ^ 78 = 1 := by omega
  have hs : v / 2 ^ 48 % 2 ^ 30 = secret.toNat := by omega
  have hi : v % 2 ^ 48 = id.toNat := by omega
  rw [parsePayload_eq, if_neg hlan, if_pos hversion, hs, hi, UInt32.ofNat_toNat,
    UInt64.ofNat_toNat]

theorem alphabet_plain : ∀ c ∈ alphabet, isSeparator c = false ∧ c.toUpper = c := by
  have h : alphabet.all (fun c => !isSeparator c && c.toUpper == c) = true := by decide
  intro c hc
  simpa using List.all_eq_true.mp h c hc

theorem denotes_symbol {d : ℕ} (hd : d < 32) : Denotes (alphabet.getD d '0') d := by
  have hlt : d < alphabet.length := by rwa [alphabet_length]
  have hget : alphabet.getD d '0' = alphabet[d] := by simp [hlt]
  have hplain := alphabet_plain _ (List.getElem_mem hlt)
  refine Or.inl ?_
  rw [hget, hplain.2, List.getElem?_eq_getElem hlt]

theorem symbol_not_separator (d : ℕ) : isSeparator (alphabet.getD d '0') = false := by
  by_cases hlt : d < alphabet.length
  · rw [List.getD_eq_getElem _ _ hlt]
    exact (alphabet_plain _ (List.getElem_mem hlt)).1
  · rw [List.getD_eq_default _ _ (not_lt.mp hlt)]
    decide

theorem symbols_grouped (ds : List ℕ) :
    symbols (grouped ds) = ds.map fun d => alphabet.getD d '0' := by
  have hkeep (es : List ℕ) : (es.map fun d => alphabet.getD d '0').filter
      (fun c => !isSeparator c) = es.map fun d => alphabet.getD d '0' := by
    refine List.filter_eq_self.mpr fun c hc => ?_
    obtain ⟨d, -, rfl⟩ := List.mem_map.mp hc
    rw [symbol_not_separator, Bool.not_false]
  have hdash : isSeparator '-' = true := by decide
  simp only [symbols, grouped, String.toList_ofList, List.filter_append, List.filter_cons, hdash,
    Bool.not_true, Bool.false_eq_true, if_false, ← List.map_take, ← List.map_drop, hkeep]
  simp only [← List.map_append]
  congr 1
  rw [← List.drop_drop (i := 4) (j := 8), ← List.drop_drop (i := 4) (j := 4)]
  simp only [List.take_append_drop]

theorem spells_grouped {ds : List ℕ} (hds : ∀ d ∈ ds, d < 32) : Spells (grouped ds) ds := by
  rw [Spells, symbols_grouped, List.forall₂_map_left_iff, List.forall₂_same]
  exact fun d hd => denotes_symbol (hds d hd)

/-- The strings the format admits: sixteen symbols, the first below sixteen. -/
def Wellformed (s : String) (ds : List ℕ) : Prop :=
  Spells s ds ∧ ds.length = codeChars ∧ ds.headD 0 < 16

theorem parse_spells {s : String} {ds : List ℕ} (h : Spells s ds) (hlen : ds.length = codeChars) :
    parse s = parsePayload (value 32 ds) := by
  have hvalue := value_shift (k := 5) h.lt
  rw [parse, (normalize_ok s ds).mpr ⟨h, hlen.le⟩]
  simp [hlen, hvalue]

theorem parse_ok {s : String} {c : ConnectCode} (h : parse s = .ok c) :
    ∃ ds, Spells s ds ∧ ds.length = codeChars := by
  cases hn : normalize s with
  | error e => simp [parse, hn] at h
  | ok ds =>
    by_cases hlen : ds.length = codeChars
    · exact ⟨ds, ((normalize_ok s ds).mp hn).1, hlen⟩
    · simp [parse, hn, hlen] at h

theorem value_lt_iff {ds : List ℕ} (hds : ∀ d ∈ ds, d < 32) (hlen : ds.length = codeChars) :
    value 32 ds < 2 ^ 79 ↔ ds.headD 0 < 16 := by
  cases ds with
  | nil => simp [codeChars] at hlen
  | cons d ds =>
    have hrest := value_lt fun x hx => hds x (List.mem_cons_of_mem d hx)
    have hn : ds.length = 15 := by simpa [codeChars] using hlen
    rw [value_cons, hn]
    rw [hn] at hrest
    simp only [List.headD_cons]
    omega

theorem parse_succeeds_iff (s : String) : (∃ c, parse s = .ok c) ↔ ∃ ds, Wellformed s ds := by
  constructor
  · rintro ⟨c, h⟩
    obtain ⟨ds, hs, hlen⟩ := parse_ok h
    refine ⟨ds, hs, hlen, (value_lt_iff hs.lt hlen).mp (parsePayload_ok.mp ⟨c, ?_⟩)⟩
    rw [← h, parse_spells hs hlen]
  · rintro ⟨ds, hs, hlen, hhead⟩
    rw [parse_spells hs hlen]
    exact parsePayload_ok.mpr ((value_lt_iff hs.lt hlen).mpr hhead)

theorem parse_code {s : String} {c : ConnectCode} {ds : List ℕ} (h : parse s = .ok c)
    (hs : Spells s ds) : ds.length = codeChars ∧ c.code = grouped ds := by
  obtain ⟨es, hes, hlen⟩ := parse_ok h
  obtain rfl := hs.unique hes
  rw [parse_spells hs hlen] at h
  refine ⟨hlen, ?_⟩
  have hdigits := digits_value hs.lt
  rw [hlen] at hdigits
  rw [parsePayload_code h, hdigits]

theorem parse_grouped {v : ℕ} (hv : v < 2 ^ 80) :
    parse (grouped (digits 32 codeChars v)) = parsePayload v := by
  rw [parse_spells (spells_grouped (digits_lt (by decide))) (length_digits _ _ _),
    value_digits (by rw [codeChars]; omega)]

def ConnectTarget.InRange : ConnectTarget → Prop
  | .lan _ => True
  | .rendezvous id => id.toNat < 2 ^ rendezvousIdBits

def payload : ConnectTarget → UInt32 → ℕ
  | .lan addr, secret => lanPayload addr secret
  | .rendezvous id, secret => rendezvousPayload id secret

def assemble : ConnectTarget → UInt32 → ConnectCode
  | .lan addr, secret => assembleLan addr secret
  | .rendezvous id, secret => assembleRendezvous id secret

theorem assemble_eq (target : ConnectTarget) (secret : UInt32) :
    assemble target secret = fromPayload target (payload target secret) := by
  cases target <;> rfl

theorem parsePayload_payload {target : ConnectTarget} {secret : UInt32} (ht : target.InRange)
    (hs : secret.toNat < 2 ^ secretBits) :
    parsePayload (payload target secret) = .ok (assemble target secret) := by
  cases target with
  | lan addr => exact parsePayload_lan addr hs
  | rendezvous id => exact parsePayload_rendezvous ht hs

theorem payload_lt {target : ConnectTarget} {secret : UInt32} (ht : target.InRange)
    (hs : secret.toNat < 2 ^ secretBits) : payload target secret < 2 ^ 79 :=
  parsePayload_ok.mp ⟨_, parsePayload_payload ht hs⟩

theorem assemble_code (target : ConnectTarget) (secret : UInt32) :
    (assemble target secret).code = grouped (digits 32 codeChars (payload target secret)) := by
  rw [assemble_eq, fromPayload_code]

theorem parse_assemble {target : ConnectTarget} {secret : UInt32} (ht : target.InRange)
    (hs : secret.toNat < 2 ^ secretBits) :
    parse (assemble target secret).code = .ok (assemble target secret) := by
  have hlt := payload_lt ht hs
  rw [assemble_code, parse_grouped (by omega), parsePayload_payload ht hs]

theorem payload_injective {t t' : ConnectTarget} {s s' : UInt32} (ht : t.InRange)
    (ht' : t'.InRange) (hs : s.toNat < 2 ^ secretBits) (hs' : s'.toNat < 2 ^ secretBits)
    (h : payload t s = payload t' s') : t = t' ∧ s = s' := by
  have htarget : t = t' := by
    have hparse := parsePayload_payload ht hs
    rw [h, parsePayload_payload ht' hs'] at hparse
    have hsame := congrArg ConnectCode.target (Except.ok.inj hparse)
    rw [assemble_eq, assemble_eq] at hsame
    exact hsame.symm
  subst htarget
  refine ⟨rfl, UInt32.toNat_inj.mp ?_⟩
  cases t with
  | lan addr =>
    simp only [payload, lanPayload_eq] at h
    omega
  | rendezvous id =>
    simp only [payload, rendezvousPayload_eq ht hs, rendezvousPayload_eq ht hs'] at h
    omega

theorem grouped_injective {ds es : List ℕ} (hds : ∀ d ∈ ds, d < 32) (hes : ∀ e ∈ es, e < 32)
    (h : grouped ds = grouped es) : ds = es :=
  (spells_grouped hds).unique (h ▸ spells_grouped hes)

theorem assemble_code_injective {t t' : ConnectTarget} {s s' : UInt32} (ht : t.InRange)
    (ht' : t'.InRange) (hs : s.toNat < 2 ^ secretBits) (hs' : s'.toNat < 2 ^ secretBits)
    (h : (assemble t s).code = (assemble t' s').code) : t = t' ∧ s = s' := by
  have hlt := payload_lt ht hs
  have hlt' := payload_lt ht' hs'
  rw [assemble_code, assemble_code] at h
  have hdigits := grouped_injective (digits_lt (by decide)) (digits_lt (by decide)) h
  refine payload_injective ht ht' hs hs' (digits_injective ?_ ?_ hdigits) <;>
    · rw [codeChars]
      omega

theorem parse_eq_iff {s s' : String} {c c' : ConnectCode} (h : parse s = .ok c)
    (h' : parse s' = .ok c') : c = c' ↔ ∃ ds, Spells s ds ∧ Spells s' ds := by
  obtain ⟨ds, hds, hlen⟩ := parse_ok h
  obtain ⟨es, hes, hlen'⟩ := parse_ok h'
  constructor
  · rintro rfl
    have hcode := (parse_code h hds).2.symm.trans (parse_code h' hes).2
    obtain rfl := grouped_injective hds.lt hes.lt hcode
    exact ⟨ds, hds, hes⟩
  · rintro ⟨ds', hds', hes'⟩
    obtain rfl := hds'.unique hds
    obtain rfl := hes'.unique hes
    rw [parse_spells hds hlen, ← parse_spells hes hlen', h'] at h
    exact (Except.ok.inj h).symm

/-- Access codes encode their targets and secrets faithfully, and `parse` accepts
exactly the well-formed spellings, up to separators, case and aliases. -/
theorem access_code_format :
    (∀ target secret, target.InRange → secret.toNat < 2 ^ secretBits →
      (assemble target secret).target = target ∧
        parse (assemble target secret).code = .ok (assemble target secret)) ∧
    (∀ target target' secret secret', target.InRange → target'.InRange →
      secret.toNat < 2 ^ secretBits → secret'.toNat < 2 ^ secretBits →
      (target, secret) ≠ (target', secret') →
        (assemble target secret).code ≠ (assemble target' secret').code) ∧
    (∀ s, (∃ c, parse s = .ok c) ↔ ∃ ds, Wellformed s ds) ∧
    (∀ s c, parse s = .ok c →
      (∃ ds, Wellformed s ds ∧ c.code = grouped ds) ∧ parse c.code = .ok c) ∧
    (∀ s s' c c', parse s = .ok c → parse s' = .ok c' →
      (c = c' ↔ ∃ ds, Spells s ds ∧ Spells s' ds)) := by
  refine ⟨fun target secret ht hs => ⟨?_, parse_assemble ht hs⟩, ?_, parse_succeeds_iff, ?_,
    fun s s' c c' => parse_eq_iff⟩
  · rw [assemble_eq]
    rfl
  · rintro t t' s s' ht ht' hs hs' hne hcode
    obtain ⟨rfl, rfl⟩ := assemble_code_injective ht ht' hs hs' hcode
    exact hne rfl
  · intro s c h
    obtain ⟨ds, hds⟩ := (parse_succeeds_iff s).mp ⟨c, h⟩
    obtain ⟨hlen, hcode⟩ := parse_code h hds.1
    have hspells := spells_grouped hds.1.lt
    refine ⟨⟨ds, hds, hcode⟩, ?_⟩
    rw [hcode, parse_spells hspells hlen, ← parse_spells hds.1 hlen, h]

end Controlis.Security
