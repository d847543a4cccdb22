import Mathlib.Algebra.Order.Ring.Nat
import Mathlib.Data.UInt
import Mathlib.Tactic.Common
import Mathlib.Tactic.Ring

/-!
# Self-delimiting formats

A format writes values as bytes and reads them off the front of a byte string,
and carries the law that what was written is read back and what follows is left.
Bytes, numbers in base 128, pairs, renamed types and lists with their length in
front have formats, and so have the types built from these.
-/

namespace Controlis.Wire

structure Format (A : Type*) where
  write : A → List UInt8
  read : List UInt8 → Option (A × List UInt8)
  read_write : ∀ a rest, read (write a ++ rest) = some (a, rest)

variable {A B : Type*}

def Format.byte : Format UInt8 where
  write b := [b]
  read
    | [] => none
    | b :: rest => some (b, rest)
  read_write _ _ := rfl

def Format.pair (f : Format A) (g : Format B) : Format (A × B) where
  write p := f.write p.1 ++ g.write p.2
  read bytes := (f.read bytes).bind fun (a, bytes) =>
    (g.read bytes).map fun (b, bytes) => ((a, b), bytes)
  read_write p rest := by
    simp only [List.append_assoc, f.read_write, g.read_write, Option.bind_some, Option.map_some]

/-- The same bytes for another type; bytes that `into` refuses are not read. -/
def Format.imap (f : Format A) (into : A → Option B) (back : B → A)
    (h : ∀ b, into (back b) = some b) : Format B where
  write b := f.write (back b)
  read bytes := (f.read bytes).bind fun (a, bytes) => (into a).map (·, bytes)
  read_write b rest := by
    simp only [f.read_write, h, Option.bind_some, Option.map_some]

theorem Format.write_pair (f : Format A) (g : Format B) (a : A) (b : B) :
    (f.pair g).write (a, b) = f.write a ++ g.write b := rfl

theorem Format.write_imap (f : Format A) (into : A → Option B) (back : B → A)
    (h : ∀ b, into (back b) = some b) (b : B) : (f.imap into back h).write b = f.write (back b) :=
  rfl

/-- Base 128, lowest digit first, `k` digits with a mark and one without. -/
def base128 : ℕ → ℕ → List UInt8
  | 0, n => [.ofNat n]
  | k + 1, n => .ofNat (n % 128 + 128) :: base128 k (n / 128)

def varint (n : ℕ) : List UInt8 := base128 (n.log2 / 7) n

def readVarint : List UInt8 → Option (ℕ × List UInt8)
  | [] => none
  | b :: bytes =>
    if b.toNat < 128 then some (b.toNat, bytes)
    else (readVarint bytes).map fun (n, rest) => (b.toNat - 128 + 128 * n, rest)

theorem readVarint_base128 {k n : ℕ} (h : n < 128 ^ (k + 1)) (rest : List UInt8) :
    readVarint (base128 k n ++ rest) = some (n, rest) := by
  induction k generalizing n with
  | zero =>
    have hsmall : n < 128 := by simpa using h
    have hbyte : (UInt8.ofNat n).toNat = n := by
      rw [UInt8.toNat_ofNat']
      omega
    simp [base128, readVarint, hbyte, hsmall]
  | succ k ih =>
    have hdiv : n / 128 < 128 ^ (k + 1) := Nat.div_lt_of_lt_mul (by rwa [← pow_succ'])
    have hbyte : (UInt8.ofNat (n % 128 + 128)).toNat = n % 128 + 128 := by
      rw [UInt8.toNat_ofNat']
      omega
    have hmarked : ¬ n % 128 + 128 < 128 := by omega
    rw [base128, List.cons_append, readVarint, hbyte, if_neg hmarked, ih hdiv]
    simp only [Option.map_some, Nat.add_sub_cancel]
    rw [Nat.mod_add_div]

theorem readVarint_varint (n : ℕ) (rest : List UInt8) :
    readVarint (varint n ++ rest) = some (n, rest) := by
  apply readVarint_base128
  calc n < 2 ^ (n.log2 + 1) := Nat.lt_log2_self
    _ ≤ 2 ^ (7 * (n.log2 / 7 + 1)) := Nat.pow_le_pow_right (by decide) (by omega)
    _ = 128 ^ (n.log2 / 7 + 1) := pow_mul 2 7 _

def Format.nat : Format ℕ := ⟨varint, readVarint, readVarint_varint⟩

def Format.uint32 : Format UInt32 :=
  Format.nat.imap (fun n => if n < 2 ^ 32 then some (.ofNat n) else none) UInt32.toNat
    fun v => by rw [if_pos v.toNat_lt, UInt32.ofNat_toNat]

def Format.uint64 : Format UInt64 :=
  Format.nat.imap (fun n => if n < 2 ^ 64 then some (.ofNat n) else none) UInt64.toNat
    fun v => by rw [if_pos v.toNat_lt, UInt64.ofNat_toNat]

def readMany (f : Format A) : ℕ → List UInt8 → Option (List A × List UInt8)
  | 0, bytes => some ([], bytes)
  | n + 1, bytes => (f.read bytes).bind fun (a, bytes) =>
    (readMany f n bytes).map fun (as, bytes) => (a :: as, bytes)

theorem readMany_write (f : Format A) (as : List A) (rest : List UInt8) :
    readMany f as.length (as.flatMap f.write ++ rest) = some (as, rest) := by
  induction as with
  | nil => rfl
  | cons a as ih =>
    simp only [List.length_cons, List.flatMap_cons, List.append_assoc, readMany, f.read_write, ih,
      Option.bind_some, Option.map_some]

def Format.list (f : Format A) : Format (List A) where
  write as := varint as.length ++ as.flatMap f.write
  read bytes := (readVarint bytes).bind fun (n, bytes) => readMany f n bytes
  read_write as rest := by
    simp only [List.append_assoc, readVarint_varint, readMany_write, Option.bind_some]

theorem length_bytes (bytes : List UInt8) :
    ((Format.list .byte).write bytes).length = (varint bytes.length).length + bytes.length := by
  have hbytes : bytes.flatMap Format.byte.write = bytes := List.flatMap_singleton' bytes
  rw [Format.list, List.length_append, hbytes]

end Controlis.Wire
