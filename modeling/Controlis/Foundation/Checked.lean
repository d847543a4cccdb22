import Mathlib.Tactic.Common
import Controlis.Foundation.Strided

/-!
# Computations that may fault

A fault is what a program must never reach: an arithmetic overflow, a slice out
of range, a failed expectation. An `Outcome` keeps it apart from the errors the
program returns on purpose, so that "returns a value or an error" is the
statement `NoFault`.
-/

namespace Controlis.Checked
open Strided

inductive Fault
  | overflow
  | outOfRange
  | expectation
deriving DecidableEq, Repr

inductive Stop (ε : Type*)
  | fault (f : Fault)
  | error (e : ε)
deriving DecidableEq, Repr

abbrev Outcome (ε α : Type*) := Except (Stop ε) α

universe u
variable {ε : Type*} {α β : Type u}

def NoFault (r : Outcome ε α) : Prop := ∀ f, r ≠ .error (.fault f)

def fail (e : ε) : Outcome ε α := .error (.error e)

def orFail (e : ε) : Option α → Outcome ε α
  | none => fail e
  | some a => .ok a

def lift (wrap : String → ε) : Except String α → Outcome ε α
  | .error message => fail (wrap message)
  | .ok a => .ok a

def add (bits a b : ℕ) : Outcome ε ℕ :=
  if a + b < 2 ^ bits then .ok (a + b) else .error (.fault .overflow)

def mul (bits a b : ℕ) : Outcome ε ℕ :=
  if a * b < 2 ^ bits then .ok (a * b) else .error (.fault .overflow)

def index (xs : List α) (start stop : ℕ) : Outcome ε (List α) :=
  if start ≤ stop ∧ stop ≤ xs.length then .ok (slice xs start (stop - start))
  else .error (.fault .outOfRange)

def get? (xs : List α) (start stop : ℕ) : Option (List α) :=
  if start ≤ stop ∧ stop ≤ xs.length then some (slice xs start (stop - start)) else none

def copyFromSlice (xs : List α) (start stop : ℕ) (ys : List α) : Outcome ε (List α) :=
  if start ≤ stop ∧ stop ≤ xs.length ∧ ys.length = stop - start then .ok (overwrite xs start ys)
  else .error (.fault .outOfRange)

@[simp] theorem ok_bind (a : α) (k : α → Outcome ε β) : (Except.ok a >>= k) = k a := rfl

@[simp] theorem error_bind (s : Stop ε) (k : α → Outcome ε β) :
    ((Except.error s : Outcome ε α) >>= k) = .error s := rfl

theorem bind_ok {r : Outcome ε α} {k : α → Outcome ε β} {b : β} (h : r >>= k = .ok b) :
    ∃ a, r = .ok a ∧ k a = .ok b := by
  cases r with
  | ok a => exact ⟨a, rfl, h⟩
  | error s => cases h

@[simp] theorem noFault_ok (a : α) : NoFault (.ok a : Outcome ε α) := fun _ h => by cases h

@[simp] theorem noFault_fail (e : ε) : NoFault (fail e : Outcome ε α) := fun _ h => by cases h

theorem noFault_lift (wrap : String → ε) (r : Except String α) : NoFault (lift wrap r) := by
  cases r <;> simp [lift]

theorem NoFault.bind {r : Outcome ε α} {k : α → Outcome ε β} (hr : NoFault r)
    (hk : ∀ a, r = .ok a → NoFault (k a)) : NoFault (r >>= k) := by
  cases r with
  | ok a => exact hk a rfl
  | error s =>
    intro f h
    rw [error_bind] at h
    exact hr f (congrArg _ (Except.error.inj h))

theorem add_ok {bits a b : ℕ} (h : a + b < 2 ^ bits) : (add bits a b : Outcome ε ℕ) = .ok (a + b) :=
  if_pos h

theorem mul_ok {bits a b : ℕ} (h : a * b < 2 ^ bits) : (mul bits a b : Outcome ε ℕ) = .ok (a * b) :=
  if_pos h

theorem index_ok {xs : List α} {start n : ℕ} (h : start + n ≤ xs.length) :
    (index xs start (start + n) : Outcome ε (List α)) = .ok (slice xs start n) := by
  rw [index, if_pos ⟨by omega, h⟩, Nat.add_sub_cancel_left]

theorem get?_some {xs : List α} {start n : ℕ} (h : start + n ≤ xs.length) :
    get? xs start (start + n) = some (slice xs start n) := by
  rw [get?, if_pos ⟨by omega, h⟩, Nat.add_sub_cancel_left]

theorem copyFromSlice_ok {xs ys : List α} {start n : ℕ} (h : start + n ≤ xs.length)
    (hys : ys.length = n) :
    (copyFromSlice xs start (start + n) ys : Outcome ε (List α)) = .ok (overwrite xs start ys) := by
  rw [copyFromSlice, if_pos ⟨by omega, h, by omega⟩]

theorem add_eq_ok {bits a b c : ℕ} (h : (add bits a b : Outcome ε ℕ) = .ok c) : a + b = c := by
  unfold add at h
  split_ifs at h
  exact Except.ok.inj h

theorem mul_eq_ok {bits a b c : ℕ} (h : (mul bits a b : Outcome ε ℕ) = .ok c) : a * b = c := by
  unfold mul at h
  split_ifs at h
  exact Except.ok.inj h

theorem index_eq_ok {xs ys : List α} {start stop : ℕ}
    (h : (index xs start stop : Outcome ε (List α)) = .ok ys) :
    start ≤ stop ∧ stop ≤ xs.length ∧ slice xs start (stop - start) = ys := by
  unfold index at h
  split_ifs at h with hrange
  exact ⟨hrange.1, hrange.2, Except.ok.inj h⟩

theorem copyFromSlice_eq_ok {xs ys zs : List α} {start stop : ℕ}
    (h : (copyFromSlice xs start stop ys : Outcome ε (List α)) = .ok zs) :
    start + ys.length ≤ xs.length ∧ overwrite xs start ys = zs := by
  unfold copyFromSlice at h
  split_ifs at h with hrange
  exact ⟨by omega, Except.ok.inj h⟩

/-- The computation returns, or faults, and has no errors of its own. -/
def NoError (r : Outcome ε α) : Prop := ∀ e, r ≠ fail e

theorem noError_ok (a : α) : NoError (.ok a : Outcome ε α) := fun _ h => by cases h

theorem NoError.bind {r : Outcome ε α} {k : α → Outcome ε β} (hr : NoError r)
    (hk : ∀ a, NoError (k a)) : NoError (r >>= k) := by
  cases r with
  | ok a => exact hk a
  | error s =>
    intro e h
    rw [error_bind] at h
    exact hr e (congrArg _ (Except.error.inj h))

theorem noError_add (bits a b : ℕ) : NoError (add bits a b : Outcome ε ℕ) := by
  intro e h
  unfold add at h
  split_ifs at h <;> cases h

theorem noError_mul (bits a b : ℕ) : NoError (mul bits a b : Outcome ε ℕ) := by
  intro e h
  unfold mul at h
  split_ifs at h <;> cases h

theorem noError_index (xs : List α) (start stop : ℕ) :
    NoError (index xs start stop : Outcome ε (List α)) := by
  intro e h
  unfold index at h
  split_ifs at h <;> cases h

theorem noError_copyFromSlice (xs ys : List α) (start stop : ℕ) :
    NoError (copyFromSlice xs start stop ys : Outcome ε (List α)) := by
  intro e h
  unfold copyFromSlice at h
  split_ifs at h <;> cases h

end Controlis.Checked
