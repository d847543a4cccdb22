import Mathlib.Data.List.TakeWhile
import Mathlib.Tactic.Common

/-!
# Fixed windows

A sequence of instants falls into windows: the first instant opens one, and the
first instant `width` or more behind the opening opens the next. A fixed-window
counter grants the first `max` instants of every window. Any stretch of time as
long as a window meets at most two of them.
-/

namespace Controlis

def windows (width : ℕ) : List ℕ → List (List ℕ)
  | [] => []
  | t :: times =>
    (t :: times.takeWhile (· < t + width)) :: windows width (times.dropWhile (· < t + width))
termination_by times => times.length
decreasing_by exact Nat.lt_succ_of_le (List.dropWhile_suffix _).length_le

/-- The decisions on the next `n` instants of a window in which `k` came before. -/
def roomFor (max k n : ℕ) : List Bool := (List.range' k n).map fun i => decide (i < max)

def fixedWindow (width max : ℕ) (times : List ℕ) : List Bool :=
  (windows width times).flatMap fun window => roomFor max 0 window.length

def granted (times : List ℕ) (decisions : List Bool) : List ℕ :=
  ((times.zip decisions).filter (·.2)).map (·.1)

variable {width max t lo hi b : ℕ} {times window : List ℕ}

theorem windows_cons (width t : ℕ) (times : List ℕ) : windows width (t :: times) =
    (t :: times.takeWhile (· < t + width)) :: windows width (times.dropWhile (· < t + width)) := by
  rw [windows]

theorem fixedWindow_nil (width max : ℕ) : fixedWindow width max [] = [] := by
  rw [fixedWindow, windows]
  rfl

theorem fixedWindow_cons (width max t : ℕ) (times : List ℕ) : fixedWindow width max (t :: times) =
    roomFor max 0 ((times.takeWhile (· < t + width)).length + 1) ++
      fixedWindow width max (times.dropWhile (· < t + width)) := by
  rw [fixedWindow, windows_cons, List.flatMap_cons, List.length_cons, fixedWindow]

theorem roomFor_succ (max k n : ℕ) :
    roomFor max k (n + 1) = decide (k < max) :: roomFor max (k + 1) n := by
  rw [roomFor, List.range'_succ, List.map_cons, roomFor]

theorem length_roomFor (max k n : ℕ) : (roomFor max k n).length = n := by
  simp [roomFor]

theorem granted_cons (t : ℕ) (times : List ℕ) (ok : Bool) (decisions : List Bool) :
    granted (t :: times) (ok :: decisions) =
      bif ok then t :: granted times decisions else granted times decisions := by
  cases ok <;> simp [granted]

theorem granted_append {xs ys : List ℕ} {as bs : List Bool} (h : xs.length = as.length) :
    granted (xs ++ ys) (as ++ bs) = granted xs as ++ granted ys bs := by
  rw [granted, List.zip_append h, List.filter_append, List.map_append]
  rfl

theorem granted_roomFor (max k : ℕ) (window : List ℕ) :
    granted window (roomFor max k window.length) = window.take (max - k) := by
  induction window generalizing k with
  | nil => simp [granted]
  | cons t window ih =>
    rw [List.length_cons, roomFor_succ, granted_cons, ih]
    by_cases hk : k < max
    · have hroom : max - k = max - (k + 1) + 1 := by omega
      rw [decide_eq_true hk, cond_true, hroom, List.take_succ_cons]
    · have hroom : max - k = 0 := by omega
      have hroom' : max - (k + 1) = 0 := by omega
      rw [decide_eq_false hk, cond_false, hroom, hroom', List.take_zero, List.take_zero]

theorem granted_fixedWindow (width max : ℕ) (times : List ℕ) :
    granted times (fixedWindow width max times) = (windows width times).flatMap (·.take max) := by
  induction times using windows.induct width with
  | case1 => simp [fixedWindow_nil, windows, granted]
  | case2 t times ih =>
    have hsplit : t :: times = (t :: times.takeWhile (· < t + width)) ++
        times.dropWhile (· < t + width) := by
      rw [List.cons_append, List.takeWhile_append_dropWhile]
    have hlength : (t :: times.takeWhile (· < t + width)).length =
        (roomFor max 0 ((times.takeWhile (· < t + width)).length + 1)).length := by
      rw [length_roomFor, List.length_cons]
    rw [fixedWindow_cons, windows_cons, List.flatMap_cons, ← ih, hsplit, granted_append hlength]
    exact congrArg (· ++ _) (granted_roomFor max 0 _)

def inStretch (lo hi : ℕ) (times : List ℕ) : ℕ := times.countP fun t => lo ≤ t ∧ t ≤ hi

theorem le_of_mem_dropWhile (hsorted : times.Pairwise (· ≤ ·)) {x : ℕ}
    (hx : x ∈ times.dropWhile (· < b)) : b ≤ x := by
  induction times with
  | nil => cases hx
  | cons t times ih =>
    rw [List.dropWhile_cons] at hx
    split_ifs at hx with ht
    · exact ih hsorted.tail hx
    · have hb : b ≤ t := by simpa using ht
      rcases List.mem_cons.mp hx with rfl | hx
      · exact hb
      · exact Nat.le_trans hb (List.rel_of_pairwise_cons hsorted hx)

theorem mem_of_granted {x : ℕ} (hx : x ∈ (windows width times).flatMap (·.take max)) :
    x ∈ times := by
  induction times using windows.induct width with
  | case1 => simp [windows] at hx
  | case2 t times ih =>
    rw [windows_cons, List.flatMap_cons] at hx
    rcases List.mem_append.mp hx with hx | hx
    · rcases List.mem_cons.mp (List.mem_of_mem_take hx) with rfl | hx
      · exact List.mem_cons_self
      · exact List.mem_cons_of_mem _ (List.takeWhile_subset _ hx)
    · exact List.mem_cons_of_mem _ ((List.dropWhile_suffix _).subset (ih hx))

theorem inStretch_append (lo hi : ℕ) (xs ys : List ℕ) :
    inStretch lo hi (xs ++ ys) = inStretch lo hi xs + inStretch lo hi ys := List.countP_append

theorem inStretch_eq_zero (h : ∀ t ∈ times, ¬ (lo ≤ t ∧ t ≤ hi)) : inStretch lo hi times = 0 := by
  apply List.countP_eq_zero.mpr
  intro t ht
  simpa using h t ht

theorem inStretch_take (lo hi max : ℕ) (window : List ℕ) :
    inStretch lo hi (window.take max) ≤ max :=
  Nat.le_trans List.countP_le_length (List.length_take_le _ _)

theorem inStretch_one_window (hsorted : times.Pairwise (· ≤ ·))
    (hhi : ∀ t ∈ times, hi < t + width) :
    inStretch lo hi ((windows width times).flatMap (·.take max)) ≤ max := by
  cases times with
  | nil => simp [windows, inStretch]
  | cons t times =>
    have hbehind : inStretch lo hi
        ((windows width (times.dropWhile (· < t + width))).flatMap (·.take max)) = 0 := by
      apply inStretch_eq_zero
      intro x hx hin
      have hle := le_of_mem_dropWhile hsorted.tail (mem_of_granted hx)
      have hlt := hhi t List.mem_cons_self
      omega
    rw [windows_cons, List.flatMap_cons, inStretch_append, hbehind]
    exact inStretch_take lo hi max _

theorem inStretch_two_windows (hwidth : 0 < width) (hsorted : times.Pairwise (· ≤ ·)) :
    inStretch lo (lo + width) ((windows width times).flatMap (·.take max)) ≤ 2 * max := by
  induction times using windows.induct width with
  | case1 => simp [windows, inStretch]
  | case2 t times ih =>
    have hrest : (times.dropWhile (· < t + width)).Pairwise (· ≤ ·) :=
      hsorted.tail.sublist (List.dropWhile_suffix _).sublist
    rw [windows_cons, List.flatMap_cons, inStretch_append]
    by_cases hmeets : lo < t + width
    · -- the first window may reach into the stretch, so the second one covers its end
      have hone : inStretch lo (lo + width)
          ((windows width (times.dropWhile (· < t + width))).flatMap (·.take max)) ≤ max := by
        apply inStretch_one_window hrest
        intro x hx
        have hle := le_of_mem_dropWhile hsorted.tail hx
        omega
      have hfirst := inStretch_take lo (lo + width) max (t :: times.takeWhile (· < t + width))
      omega
    · have hzero : inStretch lo (lo + width)
          ((t :: times.takeWhile (· < t + width)).take max) = 0 := by
        apply inStretch_eq_zero
        intro x hx hin
        rcases List.mem_cons.mp (List.mem_of_mem_take hx) with rfl | hx
        · omega
        · have hlt := List.mem_takeWhile_imp hx
          simp only [decide_eq_true_eq] at hlt
          omega
      have := ih hrest
      omega

/-- However long the sequence is, a stretch of one window's width has at most two windows'
grants. -/
theorem granted_in_stretch (max lo : ℕ) (hwidth : 0 < width)
    (hsorted : times.Pairwise (· ≤ ·)) :
    inStretch lo (lo + width) (granted times (fixedWindow width max times)) ≤ 2 * max := by
  rw [granted_fixedWindow]
  exact inStretch_two_windows hwidth hsorted

end Controlis
