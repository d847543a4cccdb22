import Mathlib.Algebra.Order.Ring.Nat
import Mathlib.Tactic.Common

/-!
# Nonnegative binary32 arithmetic

Values of nonnegative single-precision numbers, as dyadic fractions. A finite
number is `num / 2 ^ scale`, and products round to 24 significant bits, ties to
even. A product of a fraction with a scale of at most 149 and an integer needs
no more than that: it is not subnormal unless the fraction is, and does not
overflow while the integer has at most 33 bits.
-/

namespace Controlis.Binary32

structure Dyadic where
  num : ℕ
  scale : ℕ
deriving DecidableEq, Repr

/-- `n / 2 ^ s` to the nearest integer, ties to even. -/
def halfEven (n s : ℕ) : ℕ :=
  let q := n / 2 ^ s
  let r := n % 2 ^ s
  if 2 ^ s < 2 * r ∨ (2 ^ s = 2 * r ∧ q % 2 = 1) then q + 1 else q

def nearest (n : ℕ) : ℕ :=
  let s := Nat.log2 n + 1 - 24
  halfEven n s * 2 ^ s

def ofNat (n : ℕ) : Dyadic := ⟨nearest n, 0⟩

def mul (x y : Dyadic) : Dyadic := ⟨nearest (x.num * y.num), x.scale + y.scale⟩

def round (x : Dyadic) : ℕ := (2 * x.num + 2 ^ x.scale) / 2 ^ (x.scale + 1)

def sign (bits : UInt32) : Bool := bits >>> 31 == 1
def exponent (bits : UInt32) : ℕ := ((bits >>> 23) &&& 0xFF).toNat
def fraction (bits : UInt32) : ℕ := (bits &&& 0x7FFFFF).toNat

def isNan (bits : UInt32) : Bool := exponent bits == 255 && fraction bits != 0

def clampUnit (bits : UInt32) : Dyadic :=
  if sign bits then ⟨0, 0⟩
  else if 127 ≤ exponent bits then ⟨1, 0⟩
  else if exponent bits = 0 then ⟨fraction bits, 149⟩
  else ⟨2 ^ 23 + fraction bits, 150 - exponent bits⟩

end Controlis.Binary32
