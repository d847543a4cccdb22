import Mathlib.Algebra.Order.Ring.Nat
import Mathlib.Data.List.Induction
import Mathlib.Tactic.Common
import Mathlib.Tactic.Ring

/-!
# Fixed-length numerals

Big-endian numerals in base `b`: `value` reads a list of digits, `digits b n v`
writes the last `n` digits of `v`. On lists of `n` digits below `b` and on
numbers below `b ^ n` the two are inverse to each other. A further section reads
shifts and masks as the arithmetic they perform, and the last of all writes
32-bit words in little-endian bytes.
-/

namespace Controlis.Numeral

def value (b : ℕ) (ds : List ℕ) : ℕ := ds.foldl (fun v d => v * b + d) 0

def digits (b n v : ℕ) : List ℕ := (List.range n).reverse.map fun i => v / b ^ i % b

variable {b n v : ℕ} {ds : List ℕ}

@[simp] theorem value_nil (b : ℕ) : value b [] = 0 := rfl

@[simp] theorem value_snoc (b d : ℕ) (ds : List ℕ) :
    value b (ds ++ [d]) = value b ds * b + d := by
  simp [value, List.foldl_append]

theorem value_cons (b d : ℕ) (ds : List ℕ) :
    value b (d :: ds) = d * b ^ ds.length + value b ds := by
  induction ds using List.reverseRecOn with
  | nil => simp [value]
  | append_singleton ds e ih =>
    rw [← List.cons_append, value_snoc, ih, value_snoc, List.length_append, List.length_singleton,
      pow_succ]
    ring

@[simp] theorem length_digits (b n v : ℕ) : (digits b n v).length = n := by
  simp [digits]

@[simp] theorem digits_zero (b v : ℕ) : digits b 0 v = [] := rfl

theorem digits_succ (b n v : ℕ) : digits b (n + 1) v = digits b n (v / b) ++ [v % b] := by
  simp only [digits, List.range_succ_eq_map, List.reverse_cons, List.map_append, List.map_cons,
    List.map_nil, pow_zero, Nat.div_one]
  congr 1
  rw [← List.map_reverse, List.map_map]
  refine List.map_congr_left fun i _ => ?_
  simp only [Function.comp, pow_succ', Nat.div_div_eq_div_mul]

theorem digits_lt (hb : 0 < b) : ∀ d ∈ digits b n v, d < b := by
  intro d hd
  obtain ⟨i, -, rfl⟩ := List.mem_map.mp hd
  exact Nat.mod_lt _ hb

theorem value_lt (hds : ∀ d ∈ ds, d < b) : value b ds < b ^ ds.length := by
  induction ds using List.reverseRecOn with
  | nil => simp
  | append_singleton ds d ih =>
    have hlast := hds d (by simp)
    have hinit := ih fun x hx => hds x (by simp [hx])
    rw [value_snoc, List.length_append, List.length_singleton, pow_succ]
    calc value b ds * b + d < (value b ds + 1) * b := by rw [Nat.add_mul]; omega
      _ ≤ b ^ ds.length * b := Nat.mul_le_mul_right _ hinit

theorem digits_value (hds : ∀ d ∈ ds, d < b) : digits b ds.length (value b ds) = ds := by
  induction ds using List.reverseRecOn with
  | nil => rfl
  | append_singleton ds d ih =>
    have hlast := hds d (by simp)
    have hinit := ih fun x hx => hds x (by simp [hx])
    have hdiv : (value b ds * b + d) / b = value b ds := by
      rw [Nat.mul_comm, Nat.mul_add_div (by omega), Nat.div_eq_of_lt hlast, Nat.add_zero]
    have hmod : (value b ds * b + d) % b = d := by
      rw [Nat.mul_add_mod_self_right, Nat.mod_eq_of_lt hlast]
    rw [value_snoc, List.length_append, List.length_singleton, digits_succ, hdiv, hmod, hinit]

theorem value_digits (h : v < b ^ n) : value b (digits b n v) = v := by
  induction n generalizing v with
  | zero =>
    have hv : v = 0 := by simpa using h
    simp [hv]
  | succ n ih =>
    have hdiv : v / b < b ^ n := Nat.div_lt_of_lt_mul (by rwa [← pow_succ'])
    rw [digits_succ, value_snoc, ih hdiv]
    exact Nat.div_add_mod' v b

theorem digits_injective {w : ℕ} (hv : v < b ^ n) (hw : w < b ^ n)
    (h : digits b n v = digits b n w) : v = w := by
  rw [← value_digits hv, ← value_digits hw, h]

theorem shiftLeft_or {k a d : ℕ} (hd : d < 2 ^ k) : a <<< k ||| d = a * 2 ^ k + d := by
  rw [← Nat.shiftLeft_add_eq_or_of_lt hd, Nat.shiftLeft_eq]

theorem value_shift {k : ℕ} (hds : ∀ d ∈ ds, d < 2 ^ k) :
    ds.foldl (fun v d => v <<< k ||| d) 0 = value (2 ^ k) ds := by
  induction ds using List.reverseRecOn with
  | nil => rfl
  | append_singleton ds d ih =>
    rw [value_snoc, List.foldl_append, ih fun x hx => hds x (by simp [hx])]
    exact shiftLeft_or (hds d (by simp))

theorem shiftRight_mask (v i k : ℕ) : (v >>> i) &&& (2 ^ k - 1) = v / 2 ^ i % 2 ^ k := by
  rw [Nat.shiftRight_eq_div_pow, Nat.and_two_pow_sub_one_eq_mod]

def toLeBytes (v : UInt32) : List UInt8 :=
  [UInt8.ofNat v.toNat, UInt8.ofNat (v.toNat / 2 ^ 8), UInt8.ofNat (v.toNat / 2 ^ 16),
    UInt8.ofNat (v.toNat / 2 ^ 24)]

def fromLeBytes (bytes : List UInt8) : ℕ := bytes.foldr (fun byte v => byte.toNat + 2 ^ 8 * v) 0

@[simp] theorem length_toLeBytes (v : UInt32) : (toLeBytes v).length = 4 := rfl

theorem fromLeBytes_lt (bytes : List UInt8) : fromLeBytes bytes < 2 ^ (8 * bytes.length) := by
  induction bytes with
  | nil => simp [fromLeBytes]
  | cons byte bytes ih =>
    have hbyte := byte.toNat_lt
    have hpow : 2 ^ (8 * (bytes.length + 1)) = 2 ^ 8 * 2 ^ (8 * bytes.length) := by
      rw [← pow_add]
      congr 1
      omega
    have hcons : fromLeBytes (byte :: bytes) = byte.toNat + 2 ^ 8 * fromLeBytes bytes := rfl
    rw [hcons, List.length_cons, hpow]
    omega

theorem fromLeBytes_toLeBytes (v : UInt32) : fromLeBytes (toLeBytes v) = v.toNat := by
  have hv := v.toNat_lt
  simp only [fromLeBytes, toLeBytes, List.foldr_cons, List.foldr_nil, UInt8.toNat_ofNat']
  omega

theorem toLeBytes_fromLeBytes {bytes : List UInt8} (h : bytes.length = 4) :
    toLeBytes (.ofNat (fromLeBytes bytes)) = bytes := by
  obtain ⟨a, b, c, d, rfl⟩ : ∃ a b c d, bytes = [a, b, c, d] := by
    match bytes, h with
    | [a, b, c, d], _ => exact ⟨a, b, c, d, rfl⟩
  have ha := a.toNat_lt
  have hb := b.toNat_lt
  have hc := c.toNat_lt
  have hd := d.toNat_lt
  simp only [fromLeBytes, toLeBytes, List.foldr_cons, List.foldr_nil, UInt32.toNat_ofNat',
    List.cons.injEq, and_true]
  refine ⟨?_, ?_, ?_, ?_⟩ <;>
    · apply UInt8.toNat_inj.mp
      rw [UInt8.toNat_ofNat']
      omega

end Controlis.Numeral
