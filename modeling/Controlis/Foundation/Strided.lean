import Mathlib.Algebra.Order.Ring.Nat
import Mathlib.Data.List.GetD
import Mathlib.Tactic.Common
import Mathlib.Tactic.Ring

/-!
# Windows of row-major storage

A list of length `stride * height` stores a picture row by row. A window is a
rectangle of it; `extract` reads the window out row by row and `patch` writes a
block of the window's own shape into it. Both work one row slice at a time, so
the frame facts reduce to slices of a list that do not overlap.
-/

namespace Controlis.Strided

variable {α : Type*}

def slice (xs : List α) (start n : ℕ) : List α := (xs.drop start).take n

def overwrite (xs : List α) (start : ℕ) (ys : List α) : List α :=
  xs.take start ++ ys ++ xs.drop (start + ys.length)

theorem length_slice {xs : List α} {start n : ℕ} (h : start + n ≤ xs.length) :
    (slice xs start n).length = n := by
  simp only [slice, List.length_take, List.length_drop]
  omega

@[simp] theorem slice_zero (xs : List α) (start : ℕ) : slice xs start 0 = [] := by simp [slice]

theorem getElem?_slice (xs : List α) (start : ℕ) {n i : ℕ} (hi : i < n) :
    (slice xs start n)[i]? = xs[start + i]? := by
  rw [slice, List.getElem?_take_of_lt hi, List.getElem?_drop]

theorem slice_slice (xs : List α) (start : ℕ) {n i k : ℕ} (h : i + k ≤ n) :
    slice (slice xs start n) i k = slice xs (start + i) k := by
  rw [slice, slice, slice, List.drop_take, List.take_take, List.drop_drop, Nat.min_eq_left
    (by omega)]

theorem slice_append_right {xs ys : List α} {start : ℕ} (h : xs.length ≤ start) (n : ℕ) :
    slice (xs ++ ys) start n = slice ys (start - xs.length) n := by
  rw [slice, slice, List.drop_append, List.drop_of_length_le h, List.nil_append]

theorem slice_middle (xs ys zs : List α) : slice (xs ++ (ys ++ zs)) xs.length ys.length = ys := by
  rw [slice, List.drop_left, List.take_left]

theorem overwrite_middle (xs ys zs : List α) {ws : List α} (h : ws.length = ys.length) :
    overwrite (xs ++ (ys ++ zs)) xs.length ws = xs ++ ws ++ zs := by
  rw [overwrite, List.take_left, h, ← List.drop_drop, List.drop_left, List.drop_left]

theorem length_overwrite {xs ys : List α} {start : ℕ} (h : start + ys.length ≤ xs.length) :
    (overwrite xs start ys).length = xs.length := by
  simp only [overwrite, List.length_append, List.length_take, List.length_drop]
  omega

theorem getElem?_overwrite {xs ys : List α} {start i : ℕ} (h : start + ys.length ≤ xs.length) :
    (overwrite xs start ys)[i]? =
      if start ≤ i ∧ i < start + ys.length then ys[i - start]? else xs[i]? := by
  have htake : (xs.take start).length = start := by
    rw [List.length_take]
    omega
  rcases lt_or_ge i start with hlo | hlo
  · rw [if_neg (by omega), overwrite, List.append_assoc, List.getElem?_append_left (by omega),
      List.getElem?_take_of_lt hlo]
  rcases lt_or_ge i (start + ys.length) with hhi | hhi
  · rw [if_pos ⟨hlo, hhi⟩, overwrite, List.append_assoc, List.getElem?_append_right (by omega),
      htake, List.getElem?_append_left (by omega)]
  · rw [if_neg (by omega), overwrite, List.getElem?_append_right (by simp [htake]; omega),
      List.getElem?_drop, List.length_append, htake]
    congr 1
    omega

theorem slice_overwrite_same {xs ys : List α} {start : ℕ} (h : start + ys.length ≤ xs.length) :
    slice (overwrite xs start ys) start ys.length = ys := by
  refine List.ext_getElem? fun i => ?_
  rcases lt_or_ge i ys.length with hi | hi
  · rw [getElem?_slice _ _ hi, getElem?_overwrite h, if_pos ⟨by omega, by omega⟩,
      Nat.add_sub_cancel_left]
  · have hlen : (slice (overwrite xs start ys) start ys.length).length = ys.length :=
      length_slice (by rw [length_overwrite h]; exact h)
    rw [List.getElem?_eq_none (by omega), List.getElem?_eq_none hi]

theorem slice_overwrite_disjoint {xs ys : List α} {start a n : ℕ}
    (h : start + ys.length ≤ xs.length) (hdis : a + n ≤ start ∨ start + ys.length ≤ a) :
    slice (overwrite xs start ys) a n = slice xs a n := by
  refine List.ext_getElem? fun i => ?_
  rcases lt_or_ge i n with hi | hi
  · rw [getElem?_slice _ _ hi, getElem?_slice _ _ hi, getElem?_overwrite h, if_neg (by omega)]
  · have hlen (zs : List α) : (slice zs a n).length ≤ n := by
      rw [slice, List.length_take]
      omega
    rw [List.getElem?_eq_none ((hlen _).trans hi), List.getElem?_eq_none ((hlen _).trans hi)]

theorem flatMap_rows (xs : List α) (rows cols : ℕ) :
    ((List.range rows).flatMap fun r => slice xs (r * cols) cols) = xs.take (rows * cols) := by
  induction rows with
  | zero => simp
  | succ rows ih =>
    rw [List.range_succ, List.flatMap_append, ih, Nat.succ_mul, List.take_add]
    simp [slice]

theorem slice_eq_iff {xs ys : List α} {start n c : ℕ} :
    slice xs start (n * c) = slice ys start (n * c) ↔
      ∀ r < n, slice xs (start + r * c) c = slice ys (start + r * c) c := by
  constructor
  · intro h r hr
    have hle : r * c + c ≤ n * c := by
      rw [← Nat.succ_mul]
      exact Nat.mul_le_mul_right _ hr
    rw [← slice_slice xs start hle, h, slice_slice ys start hle]
  · intro h
    have hblocks (zs : List α) : slice zs start (n * c) =
        (List.range n).flatMap fun r => slice zs (start + r * c) c := by
      rw [slice, ← flatMap_rows]
      simp only [slice, List.drop_drop]
    rw [hblocks, hblocks, List.flatMap_def, List.flatMap_def]
    apply congrArg List.flatten
    apply List.map_congr_left
    intro r hr
    exact h r (List.mem_range.mp hr)

theorem length_flatMap_rows {f : ℕ → List α} {n c : ℕ} (hf : ∀ r < n, (f r).length = c) :
    ((List.range n).flatMap f).length = n * c := by
  induction n with
  | zero => simp
  | succ n ih =>
    rw [List.range_succ, List.flatMap_append, List.length_append, List.flatMap_singleton,
      ih fun r hr => hf r (by omega), hf n (by omega), Nat.succ_mul]

theorem slice_flatMap {f : ℕ → List α} {n c r : ℕ} (hf : ∀ r < n, (f r).length = c)
    (hr : r < n) : slice ((List.range n).flatMap f) (r * c) c = f r := by
  induction n with
  | zero => omega
  | succ n ih =>
    have hlen := length_flatMap_rows fun r (hr : r < n) => hf r (by omega)
    rw [List.range_succ, List.flatMap_append, List.flatMap_singleton, slice]
    rcases Nat.lt_succ_iff_lt_or_eq.mp hr with hlt | rfl
    · have hle : r * c + c ≤ n * c := by
        rw [← Nat.succ_mul]
        exact Nat.mul_le_mul_right _ hlt
      rw [List.drop_append_of_le_length (by omega), List.take_append_of_le_length
        (by rw [List.length_drop]; omega)]
      exact ih (fun r hr => hf r (by omega)) hlt
    · rw [← hlen, List.drop_left, List.take_of_length_le (hf r (by omega)).le]

/-- Row offsets and column offsets count list elements. -/
structure Window where
  top : ℕ
  left : ℕ
  rows : ℕ
  cols : ℕ
deriving DecidableEq

variable {stride height : ℕ} {w v : Window} {xs ys : List α}

def Window.start (w : Window) (stride r : ℕ) : ℕ := (w.top + r) * stride + w.left

def Window.row (w : Window) (stride : ℕ) (xs : List α) (r : ℕ) : List α :=
  slice xs (w.start stride r) w.cols

def Window.extract (w : Window) (stride : ℕ) (xs : List α) : List α :=
  (List.range w.rows).flatMap (w.row stride xs)

def Window.patchRows (w : Window) (stride : ℕ) (ys : List α) (n : ℕ) (xs : List α) : List α :=
  (List.range n).foldl (fun xs r => overwrite xs (w.start stride r) (slice ys (r * w.cols) w.cols))
    xs

def Window.patch (w : Window) (stride : ℕ) (ys xs : List α) : List α :=
  w.patchRows stride ys w.rows xs

structure Window.Within (w : Window) (stride height : ℕ) : Prop where
  cols : w.left + w.cols ≤ stride
  rows : w.top + w.rows ≤ height

def Window.Apart (w v : Window) : Prop :=
  w.top + w.rows ≤ v.top ∨ v.top + v.rows ≤ w.top ∨
    w.left + w.cols ≤ v.left ∨ v.left + v.cols ≤ w.left

theorem Window.Apart.symm (h : w.Apart v) : v.Apart w := by
  rcases h with h | h | h | h <;> simp only [Window.Apart, h, true_or, or_true]

theorem row_end_le {a b stride left cols : ℕ} (hab : a < b) (h : left + cols ≤ stride) :
    a * stride + left + cols ≤ b * stride := by
  have hmul : (a + 1) * stride ≤ b * stride := Nat.mul_le_mul_right _ hab
  rw [Nat.succ_mul] at hmul
  omega

theorem Window.Within.row_le (h : w.Within stride height) (hlen : xs.length = stride * height)
    {r : ℕ} (hr : r < w.rows) : w.start stride r + w.cols ≤ xs.length := by
  have hrows := h.rows
  rw [hlen, Nat.mul_comm]
  exact row_end_le (by omega) h.cols

theorem Window.Within.length_row (h : w.Within stride height)
    (hlen : xs.length = stride * height) {r : ℕ} (hr : r < w.rows) :
    (w.row stride xs r).length = w.cols :=
  length_slice (h.row_le hlen hr)

theorem Window.length_extract (h : w.Within stride height) (hlen : xs.length = stride * height) :
    (w.extract stride xs).length = w.rows * w.cols :=
  length_flatMap_rows fun _ hr => h.length_row hlen hr

theorem patchRows_succ (n : ℕ) : w.patchRows stride ys (n + 1) xs =
    overwrite (w.patchRows stride ys n xs) (w.start stride n) (slice ys (n * w.cols) w.cols) := by
  simp [Window.patchRows, List.range_succ]

theorem block_row_le {n : ℕ} (hys : ys.length = w.rows * w.cols) (hn : n < w.rows) :
    n * w.cols + w.cols ≤ ys.length := by
  rw [hys, ← Nat.succ_mul]
  exact Nat.mul_le_mul_right _ hn

theorem length_patchRows (h : w.Within stride height) (hlen : xs.length = stride * height)
    (hys : ys.length = w.rows * w.cols) {n : ℕ} (hn : n ≤ w.rows) :
    (w.patchRows stride ys n xs).length = xs.length := by
  induction n with
  | zero => rfl
  | succ n ih =>
    have hprev := ih (by omega)
    have hrow := length_slice (block_row_le hys (n := n) (by omega))
    rw [patchRows_succ, length_overwrite, hprev]
    rw [hrow, hprev]
    exact h.row_le hlen (by omega)

theorem slice_patchRows (h : w.Within stride height) (hlen : xs.length = stride * height)
    (hys : ys.length = w.rows * w.cols) {n a k : ℕ} (hn : n ≤ w.rows)
    (hdis : ∀ r < n, a + k ≤ w.start stride r ∨ w.start stride r + w.cols ≤ a) :
    slice (w.patchRows stride ys n xs) a k = slice xs a k := by
  induction n with
  | zero => rfl
  | succ n ih =>
    have hprev := length_patchRows h hlen hys (n := n) (by omega)
    have hrow := length_slice (block_row_le hys (n := n) (by omega))
    rw [patchRows_succ, slice_overwrite_disjoint]
    · exact ih (by omega) fun r hr => hdis r (by omega)
    · rw [hrow, hprev]
      exact h.row_le hlen (by omega)
    · rw [hrow]
      exact hdis n (by omega)

theorem row_patchRows (h : w.Within stride height) (hlen : xs.length = stride * height)
    (hys : ys.length = w.rows * w.cols) {n r : ℕ} (hn : n ≤ w.rows) (hr : r < n) :
    w.row stride (w.patchRows stride ys n xs) r = slice ys (r * w.cols) w.cols := by
  induction n with
  | zero => omega
  | succ n ih =>
    have hprev := length_patchRows h hlen hys (n := n) (by omega)
    have hrow := length_slice (block_row_le hys (n := n) (by omega))
    have hfits : w.start stride n + (slice ys (n * w.cols) w.cols).length ≤
        (w.patchRows stride ys n xs).length := by
      rw [hrow, hprev]
      exact h.row_le hlen (by omega)
    rw [patchRows_succ, Window.row]
    rcases Nat.lt_succ_iff_lt_or_eq.mp hr with hlt | rfl
    · rw [slice_overwrite_disjoint hfits]
      · exact ih (by omega) hlt
      · exact Or.inl (by
          have hend := row_end_le (a := w.top + r) (b := w.top + n) (by omega) h.cols
          simp only [Window.start]
          omega)
    · have hsame := slice_overwrite_same hfits
      rwa [hrow] at hsame

@[simp] theorem length_patch (h : w.Within stride height) (hlen : xs.length = stride * height)
    (hys : ys.length = w.rows * w.cols) : (w.patch stride ys xs).length = xs.length :=
  length_patchRows h hlen hys le_rfl

theorem extract_patch (h : w.Within stride height) (hlen : xs.length = stride * height)
    (hys : ys.length = w.rows * w.cols) : w.extract stride (w.patch stride ys xs) = ys := by
  have hrows : ∀ r ∈ List.range w.rows,
      w.row stride (w.patch stride ys xs) r = slice ys (r * w.cols) w.cols := fun r hr =>
    row_patchRows h hlen hys le_rfl (List.mem_range.mp hr)
  rw [Window.extract, List.flatMap_def, List.map_congr_left hrows, ← List.flatMap_def,
    flatMap_rows, ← hys, List.take_length]

theorem rows_apart (hw : w.Within stride height) (hv : v.Within stride height) (hap : w.Apart v)
    {r s : ℕ} (hr : r < w.rows) (hs : s < v.rows) :
    w.start stride r + w.cols ≤ v.start stride s ∨
      v.start stride s + v.cols ≤ w.start stride r := by
  have hwc := hw.cols
  have hvc := hv.cols
  simp only [Window.start]
  rcases Nat.lt_trichotomy (w.top + r) (v.top + s) with hlt | heq | hgt
  · exact Or.inl ((row_end_le hlt hwc).trans (Nat.le_add_right _ _))
  · rw [heq]
    rcases hap with h | h | h | h <;> omega
  · exact Or.inr ((row_end_le hgt hvc).trans (Nat.le_add_right _ _))

theorem extract_patch_apart (hw : w.Within stride height) (hv : v.Within stride height)
    (hap : w.Apart v) (hlen : xs.length = stride * height)
    (hys : ys.length = w.rows * w.cols) :
    v.extract stride (w.patch stride ys xs) = v.extract stride xs := by
  have hrows : ∀ s ∈ List.range v.rows,
      v.row stride (w.patch stride ys xs) s = v.row stride xs s := by
    intro s hs
    refine slice_patchRows hw hlen hys le_rfl fun r hr => ?_
    exact rows_apart hv hw hap.symm (List.mem_range.mp hs) hr
  rw [Window.extract, List.flatMap_def, List.map_congr_left hrows, ← List.flatMap_def,
    ← Window.extract]

theorem extract_eq_iff (hw : w.Within stride height) (hx : xs.length = stride * height)
    (hy : ys.length = stride * height) :
    w.extract stride xs = w.extract stride ys ↔
      ∀ r < w.rows, w.row stride xs r = w.row stride ys r := by
  constructor
  · intro h r hr
    have hblock (zs : List α) (hz : zs.length = stride * height) :
        slice (w.extract stride zs) (r * w.cols) w.cols = w.row stride zs r :=
      slice_flatMap (fun _ hr => hw.length_row hz hr) hr
    rw [← hblock xs hx, ← hblock ys hy, h]
  · intro h
    rw [Window.extract, List.flatMap_def,
      List.map_congr_left fun r hr => h r (List.mem_range.mp hr), ← List.flatMap_def,
      ← Window.extract]

def patchAll (stride : ℕ) (blocks : List (Window × List α)) (xs : List α) : List α :=
  blocks.foldl (fun xs b => b.1.patch stride b.2 xs) xs

def Fits (stride height : ℕ) (blocks : List (Window × List α)) : Prop :=
  ∀ b ∈ blocks, b.1.Within stride height ∧ b.2.length = b.1.rows * b.1.cols

variable {blocks : List (Window × List α)}

theorem patchAll_cons (b : Window × List α) :
    patchAll stride (b :: blocks) xs = patchAll stride blocks (b.1.patch stride b.2 xs) := rfl

theorem length_patchAll (h : Fits stride height blocks) (hlen : xs.length = stride * height) :
    (patchAll stride blocks xs).length = stride * height := by
  induction blocks generalizing xs with
  | nil => exact hlen
  | cons b blocks ih =>
    obtain ⟨hw, hb⟩ := h b (by simp)
    exact ih (fun c hc => h c (List.mem_cons_of_mem _ hc)) (by rw [length_patch hw hlen hb, hlen])

theorem extract_patchAll_apart (h : Fits stride height blocks) (hv : v.Within stride height)
    (hlen : xs.length = stride * height) (hap : ∀ b ∈ blocks, b.1.Apart v) :
    v.extract stride (patchAll stride blocks xs) = v.extract stride xs := by
  induction blocks generalizing xs with
  | nil => rfl
  | cons b blocks ih =>
    obtain ⟨hw, hb⟩ := h b (by simp)
    rw [patchAll_cons, ih (fun c hc => h c (List.mem_cons_of_mem _ hc))
      (by rw [length_patch hw hlen hb, hlen]) fun c hc => hap c (List.mem_cons_of_mem _ hc)]
    exact extract_patch_apart hw hv (hap b (by simp)) hlen hb

theorem extract_patchAll_mem (h : Fits stride height blocks) (hlen : xs.length = stride * height)
    (hap : blocks.Pairwise fun b c => b.1.Apart c.1) {b : Window × List α} (hb : b ∈ blocks) :
    b.1.extract stride (patchAll stride blocks xs) = b.2 := by
  induction blocks generalizing xs with
  | nil => cases hb
  | cons c blocks ih =>
    obtain ⟨hw, hc⟩ := h c (by simp)
    obtain ⟨hfirst, hrest⟩ := List.pairwise_cons.mp hap
    have htail : Fits stride height blocks := fun d hd => h d (List.mem_cons_of_mem _ hd)
    have hlen' : (c.1.patch stride c.2 xs).length = stride * height := by
      rw [length_patch hw hlen hc, hlen]
    rw [patchAll_cons]
    rcases List.mem_cons.mp hb with rfl | hmem
    · rw [extract_patchAll_apart htail hw hlen' fun d hd => (hfirst d hd).symm]
      exact extract_patch hw hlen hc
    · exact ih htail hlen' hrest hmem

def overwriteAll (writes : List (ℕ × List α)) (xs : List α) : List α :=
  writes.foldl (fun xs w => overwrite xs w.1 w.2) xs

def lastAt (i : ℕ) : List (ℕ × List α) → Option α
  | [] => none
  | w :: later =>
    (lastAt i later).or (if w.1 ≤ i ∧ i < w.1 + w.2.length then w.2[i - w.1]? else none)

section Writes
variable {writes : List (ℕ × List α)}

theorem overwriteAll_cons (w : ℕ × List α) :
    overwriteAll (w :: writes) xs = overwriteAll writes (overwrite xs w.1 w.2) := rfl

theorem overwriteAll_append (writes' : List (ℕ × List α)) :
    overwriteAll (writes ++ writes') xs = overwriteAll writes' (overwriteAll writes xs) :=
  List.foldl_append

theorem length_overwriteAll (hfit : ∀ w ∈ writes, w.1 + w.2.length ≤ xs.length) :
    (overwriteAll writes xs).length = xs.length := by
  induction writes generalizing xs with
  | nil => rfl
  | cons w writes ih =>
    have hlen := length_overwrite (hfit w List.mem_cons_self)
    rw [overwriteAll_cons, ih, hlen]
    intro v hv
    rw [hlen]
    exact hfit v (List.mem_cons_of_mem _ hv)

theorem getElem?_overwriteAll (hfit : ∀ w ∈ writes, w.1 + w.2.length ≤ xs.length) (i : ℕ) :
    (overwriteAll writes xs)[i]? = (lastAt i writes).or xs[i]? := by
  induction writes generalizing xs with
  | nil => rfl
  | cons w writes ih =>
    have hw := hfit w List.mem_cons_self
    have hrest : ∀ v ∈ writes, v.1 + v.2.length ≤ (overwrite xs w.1 w.2).length := by
      intro v hv
      rw [length_overwrite hw]
      exact hfit v (List.mem_cons_of_mem _ hv)
    rw [overwriteAll_cons, ih hrest, getElem?_overwrite hw, lastAt, Option.or_assoc]
    split_ifs with hi
    · rw [List.getElem?_eq_getElem (by omega), Option.some_or]
    · rfl

/-- Writes leave a list as it is iff each position has what the last write to it puts there. -/
theorem overwriteAll_eq_self_iff (hfit : ∀ w ∈ writes, w.1 + w.2.length ≤ xs.length) :
    overwriteAll writes xs = xs ↔ ∀ i x, lastAt i writes = some x → xs[i]? = some x := by
  constructor
  · intro hsame i x hlast
    rw [← hsame, getElem?_overwriteAll hfit, hlast]
    rfl
  · intro hlast
    apply List.ext_getElem?
    intro i
    rw [getElem?_overwriteAll hfit]
    cases hx : lastAt i writes with
    | none => rfl
    | some x => exact (hlast i x hx).symm

end Writes

end Controlis.Strided
