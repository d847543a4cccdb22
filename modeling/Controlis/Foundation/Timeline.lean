import Mathlib.Order.Basic
import Mathlib.Order.Nat

/-!
# Steps on a clock that never runs backwards

A step occupies an interval `[begins e, ends e]`. A list of steps is `Ordered`
from `t` when every step begins no earlier than `t` and than the end of the step
before it. `horizon` is the instant the list reaches. Steps that take no time
have `begins = ends`. Concrete clocks count nanoseconds.
-/

namespace Controlis.Timeline

def fromSecs (n : ℕ) : ℕ := n * 1000000000
def asSecs (d : ℕ) : ℕ := d / 1000000000

variable {ε τ : Type*} [Preorder τ] (begins ends : ε → τ)

def Ordered : τ → List ε → Prop
  | _, [] => True
  | t, e :: es => t ≤ begins e ∧ begins e ≤ ends e ∧ Ordered (ends e) es

def horizon (ends : ε → τ) : τ → List ε → τ
  | t, [] => t
  | _, e :: es => horizon ends (ends e) es

variable {begins ends}

@[simp] theorem ordered_nil (t : τ) : Ordered begins ends t [] := trivial

theorem ordered_cons {t : τ} {e : ε} {es : List ε} :
    Ordered begins ends t (e :: es) ↔
      t ≤ begins e ∧ begins e ≤ ends e ∧ Ordered begins ends (ends e) es := Iff.rfl

theorem ordered_append {t : τ} {xs ys : List ε} :
    Ordered begins ends t (xs ++ ys) ↔
      Ordered begins ends t xs ∧ Ordered begins ends (horizon ends t xs) ys := by
  induction xs generalizing t with
  | nil => simp [horizon]
  | cons x xs ih =>
    simp only [List.cons_append, ordered_cons, horizon]
    rw [ih]
    simp only [and_assoc]

omit [Preorder τ] in
theorem horizon_append {t : τ} {xs ys : List ε} :
    horizon ends t (xs ++ ys) = horizon ends (horizon ends t xs) ys := by
  induction xs generalizing t with
  | nil => rfl
  | cons x xs ih => exact ih

theorem Ordered.mono {t u : τ} {xs : List ε} (h : Ordered begins ends t xs) (hu : u ≤ t) :
    Ordered begins ends u xs := by
  cases xs with
  | nil => trivial
  | cons x xs => exact ⟨hu.trans h.1, h.2⟩

theorem Ordered.le_begins {t : τ} {xs : List ε} (h : Ordered begins ends t xs) :
    ∀ x ∈ xs, t ≤ begins x := by
  induction xs generalizing t with
  | nil => simp
  | cons x xs ih =>
    intro y hy
    rcases List.mem_cons.mp hy with rfl | hy
    · exact h.1
    · exact h.1.trans (h.2.1.trans (ih h.2.2 y hy))

theorem Ordered.begins_le_last {t : τ} {xs : List ε} {y : ε}
    (h : Ordered begins ends t (xs ++ [y])) : ∀ x ∈ xs, begins x ≤ begins y := by
  induction xs generalizing t with
  | nil => simp
  | cons z xs ih =>
    intro x hx
    rcases List.mem_cons.mp hx with rfl | hx
    · exact h.2.1.trans (h.2.2.le_begins y (by simp))
    · exact ih h.2.2 x hx

end Controlis.Timeline
