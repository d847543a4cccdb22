import Mathlib.Data.List.Chain
import Mathlib.Tactic.Common

/-!
# Leases

A lease is granted for `ttl` and can be renewed for another `ttl` as long as it
has not run out. So it is held at an instant iff the grant, the renewals and the
instant follow one another with gaps below `ttl`: a renewal that comes too late
changes nothing, and neither does any after it.
-/

namespace Controlis.Lease

variable {ttl start now later r : ℕ} {renewals : List ℕ}

/-- Held from `start` on, renewed at these instants, and held at `now`. -/
def Unbroken (ttl start : ℕ) (renewals : List ℕ) (now : ℕ) : Prop :=
  List.IsChain (fun earlier next => next < earlier + ttl) (start :: renewals ++ [now])

instance : Decidable (Unbroken ttl start renewals now) :=
  inferInstanceAs (Decidable (List.IsChain _ _))

def lastRenewal (start : ℕ) (renewals : List ℕ) : ℕ := (start :: renewals).getLast (by simp)

@[simp] theorem lastRenewal_nil : lastRenewal start [] = start := rfl

@[simp] theorem lastRenewal_snoc : lastRenewal start (renewals ++ [r]) = r := by
  simp [lastRenewal]

@[simp] theorem lastRenewal_cons : lastRenewal start (r :: renewals) = lastRenewal r renewals :=
  rfl

theorem unbroken_iff : Unbroken ttl start renewals now ↔
    List.IsChain (fun earlier next => next < earlier + ttl) (start :: renewals) ∧
      now < lastRenewal start renewals + ttl := by
  have hlast : (start :: renewals).getLast? = some (lastRenewal start renewals) :=
    List.getLast?_eq_some_getLast _
  rw [Unbroken, List.isChain_append, hlast]
  simp

@[simp] theorem unbroken_nil : Unbroken ttl start [] now ↔ now < start + ttl := by
  rw [unbroken_iff]
  simp

theorem unbroken_snoc : Unbroken ttl start (renewals ++ [r]) now ↔
    Unbroken ttl start renewals r ∧ now < r + ttl := by
  rw [unbroken_iff, lastRenewal_snoc]
  rfl

theorem Unbroken.anti (h : Unbroken ttl start renewals later) (hle : now ≤ later) :
    Unbroken ttl start renewals now := by
  rw [unbroken_iff] at h ⊢
  exact ⟨h.1, by omega⟩

end Controlis.Lease
