import Controlis.Codec.Frame

/-!
# The tile encoder

A frame is cut along a grid of 64-pixel tiles, clamped at the right and bottom
edges. The first frame and every frame of a new size are sent whole; after
that only the tiles that differ from the previous frame are sent, each as a
length-prefixed JPEG block.
-/

namespace Controlis.Codec
open Checked Numeral Strided Protocol

def tileSize : ℕ := 64

def tileColumns (width y h x : ℕ) : Result (List TileRect) :=
  if x < width then
    let w := min tileSize (width - x)
    if x + tileSize < 2 ^ u32Bits then do
      let rects ← tileColumns width y h (x + tileSize)
      .ok (⟨.ofNat x, .ofNat y, .ofNat w, .ofNat h⟩ :: rects)
    else .error (.fault .overflow)
  else .ok []
termination_by width - x
decreasing_by
  rw [tileSize]
  omega

def tileRows (width height y : ℕ) : Result (List TileRect) :=
  if y < height then do
    let h := min tileSize (height - y)
    let line ← tileColumns width y h 0
    if y + tileSize < 2 ^ u32Bits then do
      let rects ← tileRows width height (y + tileSize)
      .ok (line ++ rects)
    else .error (.fault .overflow)
  else .ok []
termination_by height - y
decreasing_by
  rw [tileSize]
  omega

def tileRects (width height : UInt32) : Result (List TileRect) :=
  tileRows width.toNat height.toNat 0

def rowsChanged (a b : RgbaFrame) (rect : TileRect) (stride rowBytes : ℕ) :
    List ℕ → Result Bool
  | [] => .ok false
  | row :: rows => do
    let start ← rowStart stride rect row
    let stop ← add usizeBits start rowBytes
    let old ← index a.data start stop
    let new ← index b.data start stop
    if old ≠ new then .ok true else rowsChanged a b rect stride rowBytes rows

def tileChanged (a b : RgbaFrame) (rect : TileRect) : Result Bool := do
  let stride ← mul usizeBits a.width.toNat 4
  let rowBytes ← mul usizeBits rect.w.toNat 4
  rowsChanged a b rect stride rowBytes (List.range rect.h.toNat)

def extractRows (frame : RgbaFrame) (rect : TileRect) (stride rowBytes : ℕ) :
    List UInt8 → List ℕ → Result (List UInt8)
  | out, [] => .ok out
  | out, row :: rows => do
    let start ← rowStart stride rect row
    let stop ← add usizeBits start rowBytes
    let bytes ← index frame.data start stop
    extractRows frame rect stride rowBytes (out ++ bytes) rows

def extractTile (frame : RgbaFrame) (rect : TileRect) : Result (List UInt8) := do
  let stride ← mul usizeBits frame.width.toNat 4
  let rowBytes ← mul usizeBits rect.w.toNat 4
  let _capacity ← mul usizeBits rowBytes rect.h.toNat
  extractRows frame rect stride rowBytes [] (List.range rect.h.toNat)

structure TileEncoder where
  codec : VideoCodec
  previous : Option RgbaFrame
deriving DecidableEq, Repr

def TileEncoder.new (codec : VideoCodec) : TileEncoder := ⟨codec, none⟩

def TileEncoder.forceKeyframe (enc : TileEncoder) : TileEncoder := { enc with previous := none }

def TileEncoder.encodeFull (jpeg : Jpeg) (enc : TileEncoder) (monitorId : UInt32)
    (frameId : UInt64) (frame : RgbaFrame) : Result ScreenFrame := do
  let payload ← match enc.codec with
    | .rawRgba => .ok frame.data
    | .jpegTiles => encodeJpeg jpeg frame.data frame.width frame.height
    | .h264 => fail (.unsupportedCodec enc.codec)
  .ok ⟨monitorId, frameId, enc.codec, .full, frame.width, frame.height, [], payload⟩

def deltaTiles (jpeg : Jpeg) (previous frame : RgbaFrame) :
    List TileRect × List UInt8 → List TileRect → Result (List TileRect × List UInt8)
  | out, [] => .ok out
  | (tiles, payload), rect :: rects => do
    if ← tileChanged previous frame rect then
      let pixels ← extractTile frame rect
      let bytes ← encodeJpeg jpeg pixels rect.w rect.h
      deltaTiles jpeg previous frame (tiles ++ [rect], payload ++ block bytes) rects
    else deltaTiles jpeg previous frame (tiles, payload) rects

def TileEncoder.encodeDelta (jpeg : Jpeg) (enc : TileEncoder) (monitorId : UInt32)
    (frameId : UInt64) (frame : RgbaFrame) : Result ScreenFrame :=
  match enc.previous with
  | none => .error (.fault .expectation)
  | some previous => do
    let rects ← tileRects frame.width frame.height
    let (tiles, payload) ← deltaTiles jpeg previous frame ([], []) rects
    .ok ⟨monitorId, frameId, enc.codec, .tileDelta, frame.width, frame.height, tiles, payload⟩

/-- The first frame after construction, a resize or a forced keyframe. -/
def TileEncoder.sendFull (enc : TileEncoder) (frame : RgbaFrame) : Bool :=
  match enc.previous with
  | some prev => !prev.sameSize frame
  | none => true

/-- An error leaves the encoder as it was. -/
def TileEncoder.encode (jpeg : Jpeg) (enc : TileEncoder) (monitorId : UInt32)
    (frameId : UInt64) (frame : RgbaFrame) : Result (ScreenFrame × TileEncoder) := do
  let message ←
    if enc.sendFull frame || enc.codec == .rawRgba then enc.encodeFull jpeg monitorId frameId frame
    else enc.encodeDelta jpeg monitorId frameId frame
  .ok (message, { enc with previous := some frame })

def tileAt (width height i j : ℕ) : TileRect where
  x := .ofNat (tileSize * i)
  y := .ofNat (tileSize * j)
  w := .ofNat (min tileSize (width - tileSize * i))
  h := .ofNat (min tileSize (height - tileSize * j))

def tileCount (extent : ℕ) : ℕ := (extent + (tileSize - 1)) / tileSize

def grid (width height : ℕ) : List TileRect :=
  (List.range (tileCount height)).flatMap fun j =>
    (List.range (tileCount width)).map fun i => tileAt width height i j

theorem tileColumns_ok {width : ℕ} (height j : ℕ) (hw : width + tileSize ≤ 2 ^ 32) {i k : ℕ}
    (hik : i + k = tileCount width) :
    tileColumns width (tileSize * j) (min tileSize (height - tileSize * j)) (tileSize * i) =
      .ok ((List.range' i k).map fun i => tileAt width height i j) := by
  simp only [tileCount, tileSize] at hik hw
  induction k generalizing i with
  | zero =>
    rw [tileColumns, if_neg (by rw [tileSize]; omega)]
    rfl
  | succ k ih =>
    have hnext := ih (i := i + 1) (by omega)
    rw [Nat.mul_succ] at hnext
    rw [tileColumns, if_pos (by rw [tileSize]; omega), if_pos (by rw [tileSize, u32Bits]; omega),
      hnext, ok_bind, List.range'_succ, List.map_cons, tileAt]

theorem tileRows_ok {width height : ℕ} (hw : width + tileSize ≤ 2 ^ 32)
    (hh : height + tileSize ≤ 2 ^ 32) {j k : ℕ} (hjk : j + k = tileCount height) :
    tileRows width height (tileSize * j) =
      .ok ((List.range' j k).flatMap fun j =>
        (List.range (tileCount width)).map fun i => tileAt width height i j) := by
  simp only [tileCount, tileSize] at hjk hh
  induction k generalizing j with
  | zero =>
    rw [tileRows, if_neg (by rw [tileSize]; omega)]
    rfl
  | succ k ih =>
    have hnext := ih (j := j + 1) (by omega)
    rw [Nat.mul_succ] at hnext
    have hline := tileColumns_ok height j hw (Nat.zero_add (tileCount width))
    rw [Nat.mul_zero] at hline
    rw [tileRows, if_pos (by rw [tileSize]; omega)]
    dsimp only
    rw [hline, ok_bind, if_pos (by rw [tileSize, u32Bits]; omega), hnext, ok_bind,
      List.range'_succ, List.flatMap_cons, List.range_eq_range']

theorem tileRects_ok {width height : UInt32} (hw : width.toNat + tileSize ≤ 2 ^ 32)
    (hh : height.toNat + tileSize ≤ 2 ^ 32) :
    tileRects width height = .ok (grid width.toNat height.toNat) := by
  have h := tileRows_ok hw hh (Nat.zero_add (tileCount height.toNat))
  rwa [Nat.mul_zero, ← List.range_eq_range'] at h

theorem mem_grid {width height : ℕ} {rect : TileRect} : rect ∈ grid width height ↔
    ∃ i j, i < tileCount width ∧ j < tileCount height ∧ tileAt width height i j = rect := by
  simp only [grid, List.mem_flatMap, List.mem_map, List.mem_range]
  constructor
  · rintro ⟨j, hj, i, hi, rfl⟩
    exact ⟨i, j, hi, hj, rfl⟩
  · rintro ⟨i, j, hi, hj, rfl⟩
    exact ⟨j, hj, i, hi, rfl⟩

theorem tileAt_toNat {width height i j : ℕ} (hw : width + tileSize ≤ 2 ^ 32)
    (hh : height + tileSize ≤ 2 ^ 32) (hi : i < tileCount width) (hj : j < tileCount height) :
    (tileAt width height i j).x.toNat = tileSize * i ∧
      (tileAt width height i j).y.toNat = tileSize * j ∧
      (tileAt width height i j).w.toNat = min tileSize (width - tileSize * i) ∧
      (tileAt width height i j).h.toNat = min tileSize (height - tileSize * j) := by
  simp only [tileCount, tileSize] at hw hh hi hj
  simp only [tileAt, UInt32.toNat_ofNat', tileSize]
  omega

theorem grid_inside {width height : UInt32} (hw : width.toNat + tileSize ≤ 2 ^ 32)
    (hh : height.toNat + tileSize ≤ 2 ^ 32) {rect : TileRect}
    (h : rect ∈ grid width.toNat height.toNat) : rect.Inside width height ∧
      0 < rect.w.toNat ∧ rect.w.toNat ≤ tileSize ∧ 0 < rect.h.toNat ∧ rect.h.toNat ≤ tileSize := by
  obtain ⟨i, j, hi, hj, rfl⟩ := mem_grid.mp h
  obtain ⟨hx, hy, hrw, hrh⟩ := tileAt_toNat hw hh hi hj
  simp only [tileCount, tileSize] at hi hj
  rw [TileRect.Inside, hx, hy, hrw, hrh]
  simp only [tileSize]
  omega

theorem grid_pairwise {R : TileRect → TileRect → Prop} {width height : ℕ}
    (hline : ∀ i k j, i < k → k < tileCount width → j < tileCount height →
      R (tileAt width height i j) (tileAt width height k j))
    (hlines : ∀ i k j l, i < tileCount width → k < tileCount width → j < l →
      l < tileCount height → R (tileAt width height i j) (tileAt width height k l)) :
    (grid width height).Pairwise R := by
  apply List.pairwise_flatMap.mpr
  constructor
  · intro j hj
    apply List.pairwise_map.mpr
    apply List.Pairwise.imp_of_mem ?_ List.pairwise_lt_range
    intro i k _ hk hik
    exact hline i k j hik (List.mem_range.mp hk) (List.mem_range.mp hj)
  · apply List.Pairwise.imp_of_mem ?_ List.pairwise_lt_range
    intro j l _ hl hjl a ha b hb
    obtain ⟨i, hi, rfl⟩ := List.mem_map.mp ha
    obtain ⟨k, hk, rfl⟩ := List.mem_map.mp hb
    exact hlines i k j l (List.mem_range.mp hi) (List.mem_range.mp hk) hjl (List.mem_range.mp hl)

theorem grid_apart (width height : ℕ) (hw : width + tileSize ≤ 2 ^ 32)
    (hh : height + tileSize ≤ 2 ^ 32) :
    (grid width height).Pairwise fun a b => a.window.Apart b.window := by
  apply grid_pairwise
  · -- two tiles of one line differ in their columns
    intro i k j hik hk hj
    obtain ⟨hx, -, hrw, -⟩ := tileAt_toNat hw hh (hik.trans hk) hj
    obtain ⟨hx', -, -, -⟩ := tileAt_toNat hw hh hk hj
    apply Or.inr ∘ Or.inr ∘ Or.inl
    simp only [TileRect.window, hx, hx', hrw, tileSize]
    omega
  · -- tiles of two lines differ in their rows
    intro i k j l hi hk hjl hl
    obtain ⟨-, hy, -, hrh⟩ := tileAt_toNat hw hh hi (hjl.trans hl)
    obtain ⟨-, hy', -, -⟩ := tileAt_toNat hw hh hk hl
    apply Or.inl
    simp only [TileRect.window, hy, hy', hrh, tileSize]
    omega

theorem length_grid (width height : ℕ) :
    (grid width height).length = tileCount height * tileCount width :=
  length_flatMap_rows fun _ _ => by rw [List.length_map, List.length_range]

variable {a b frame : RgbaFrame} {rect : TileRect}

theorem row_fits (hv : frame.Valid) (h64 : 4 * frame.width.toNat * frame.height.toNat < 2 ^ 64)
    (hin : rect.Inside frame.width frame.height) {row : ℕ} (hrow : row < rect.h.toNat) :
    rect.window.start frame.stride row + 4 * rect.w.toNat ≤ frame.data.length ∧
      frame.data.length < 2 ^ 64 :=
  ⟨hin.within.row_le hv.length hrow, by rwa [hv]⟩

theorem rowsChanged_ok (ha : a.Valid) (hb : b.Valid) (hsize : a.sameSize b = true)
    (h64 : 4 * a.width.toNat * a.height.toNat < 2 ^ 64) (hin : rect.Inside a.width a.height)
    (rows : List ℕ) (hrows : ∀ row ∈ rows, row < rect.h.toNat) :
    rowsChanged a b rect a.stride (4 * rect.w.toNat) rows = .ok (decide (∃ row ∈ rows,
      rect.window.row a.stride a.data row ≠ rect.window.row a.stride b.data row)) := by
  induction rows with
  | nil => simp [rowsChanged]
  | cons row rows ih =>
    have hrow := hrows row (by simp)
    obtain ⟨hfits, hlt⟩ := row_fits ha h64 hin hrow
    have hlen : b.data.length = a.data.length := by
      obtain ⟨hw, hh⟩ := RgbaFrame.sameSize_iff.mp hsize
      rw [ha, hb, hw, hh]
    rw [rowsChanged, rowStart_ok hrow (by omega), ok_bind, usizeBits, add_ok (by omega), ok_bind,
      index_ok hfits, ok_bind, index_ok (by omega), ok_bind]
    split_ifs with hne
    · have hfirst : rect.window.row a.stride a.data row ≠ rect.window.row a.stride b.data row := hne
      simp [hfirst]
    · have hsame : rect.window.row a.stride a.data row = rect.window.row a.stride b.data row :=
        not_not.mp hne
      rw [ih fun r hr => hrows r (List.mem_cons_of_mem _ hr)]
      simp [hsame]

theorem tileChanged_ok (ha : a.Valid) (hb : b.Valid) (hsize : a.sameSize b = true)
    (h64 : 4 * a.width.toNat * a.height.toNat < 2 ^ 64) (hin : rect.Inside a.width a.height) :
    tileChanged a b rect = .ok (decide (a.region rect ≠ b.region rect)) := by
  obtain ⟨hw, hh⟩ := RgbaFrame.sameSize_iff.mp hsize
  have hstride : b.stride = a.stride := by rw [RgbaFrame.stride, RgbaFrame.stride, hw]
  have hb' : b.data.length = a.stride * a.height.toNat := by rw [hb.length, hstride, hh]
  have hrows := rowsChanged_ok ha hb hsize h64 hin (List.range rect.h.toNat)
    fun row hrow => List.mem_range.mp hrow
  rw [tileChanged, mul_four_ok, ok_bind, mul_four_ok, ok_bind]
  refine hrows.trans (congrArg _ (decide_eq_decide.mpr ?_))
  rw [RgbaFrame.region, RgbaFrame.region, hstride, Ne, extract_eq_iff hin.within ha.length hb']
  simp [TileRect.window]

theorem extractRows_ok (hv : frame.Valid)
    (h64 : 4 * frame.width.toNat * frame.height.toNat < 2 ^ 64)
    (hin : rect.Inside frame.width frame.height) (rows : List ℕ) (out : List UInt8)
    (hrows : ∀ row ∈ rows, row < rect.h.toNat) :
    extractRows frame rect frame.stride (4 * rect.w.toNat) out rows =
      .ok (out ++ rows.flatMap (rect.window.row frame.stride frame.data)) := by
  induction rows generalizing out with
  | nil => simp [extractRows]
  | cons row rows ih =>
    have hrow := hrows row (by simp)
    obtain ⟨hfits, hlt⟩ := row_fits hv h64 hin hrow
    rw [extractRows, rowStart_ok hrow (by omega), ok_bind, usizeBits, add_ok (by omega), ok_bind,
      index_ok hfits, ok_bind, ih _ fun r hr => hrows r (List.mem_cons_of_mem _ hr),
      List.flatMap_cons, List.append_assoc]
    rfl

theorem extractTile_ok (hv : frame.Valid)
    (h64 : 4 * frame.width.toNat * frame.height.toNat < 2 ^ 64)
    (hin : rect.Inside frame.width frame.height) :
    extractTile frame rect = .ok (frame.region rect) := by
  have hcapacity : 4 * rect.w.toNat * rect.h.toNat < 2 ^ 64 := by
    refine lt_of_le_of_lt (Nat.mul_le_mul (Nat.mul_le_mul_left 4 ?_) ?_) h64
    · exact (Nat.le_add_left _ _).trans hin.1
    · exact (Nat.le_add_left _ _).trans hin.2
  have hrows := extractRows_ok hv h64 hin (List.range rect.h.toNat) []
    fun row hrow => List.mem_range.mp hrow
  rw [extractTile, mul_four_ok, ok_bind, mul_four_ok, ok_bind, usizeBits, mul_ok hcapacity, ok_bind]
  exact hrows

variable {jpeg : Jpeg} {enc : TileEncoder} {monitorId : UInt32} {frameId : UInt64}

def changedOf (a b : RgbaFrame) (rects : List TileRect) : List TileRect :=
  rects.filter fun rect => a.region rect ≠ b.region rect

theorem deltaTiles_cases {rects : List TileRect} (jpeg : Jpeg) (ha : a.Valid) (hb : b.Valid)
    (hsize : a.sameSize b = true) (h64 : 4 * a.width.toNat * a.height.toNat < 2 ^ 64)
    (hin : ∀ rect ∈ rects, rect.Inside a.width a.height) (tiles : List TileRect)
    (payload : List UInt8) :
    (∃ blocks, List.Forall₂ (fun rect bytes =>
          encodeJpeg jpeg (b.region rect) rect.w rect.h = .ok bytes) (changedOf a b rects) blocks ∧
        deltaTiles jpeg a b (tiles, payload) rects =
          .ok (tiles ++ changedOf a b rects, payload ++ blocks.flatMap block)) ∨
      ∃ rect ∈ changedOf a b rects, ∃ stop,
        encodeJpeg jpeg (b.region rect) rect.w rect.h = .error stop ∧
          deltaTiles jpeg a b (tiles, payload) rects = .error stop := by
  obtain ⟨hw, hh⟩ := RgbaFrame.sameSize_iff.mp hsize
  induction rects generalizing tiles payload with
  | nil => exact Or.inl ⟨[], .nil, by simp [deltaTiles, changedOf]⟩
  | cons rect rects ih =>
    have hrect := hin rect (by simp)
    have hrest := ih fun r hr => hin r (List.mem_cons_of_mem _ hr)
    rw [deltaTiles, tileChanged_ok ha hb hsize h64 hrect, ok_bind]
    by_cases hne : a.region rect = b.region rect
    · have hskip : changedOf a b (rect :: rects) = changedOf a b rects := by
        simp [changedOf, hne]
      simp only [hne, ne_eq, not_true_eq_false, decide_false, Bool.false_eq_true, if_false, hskip]
      exact hrest tiles payload
    · have hcons : changedOf a b (rect :: rects) = rect :: changedOf a b rects := by
        simp [changedOf, hne]
      have htile : extractTile b rect = .ok (b.region rect) :=
        extractTile_ok hb (by rwa [← hw, ← hh]) (by rwa [← hw, ← hh])
      simp only [hne, ne_eq, not_false_eq_true, decide_true, if_true, hcons]
      rw [htile, ok_bind]
      cases hjpeg : encodeJpeg jpeg (b.region rect) rect.w rect.h with
      | error stop => exact Or.inr ⟨rect, List.mem_cons_self, stop, hjpeg, rfl⟩
      | ok bytes =>
        rw [ok_bind]
        rcases hrest (tiles ++ [rect]) (payload ++ block bytes) with
          ⟨blocks, hblocks, hdelta⟩ | ⟨r, hr, stop, hr'⟩
        · refine Or.inl ⟨bytes :: blocks, .cons hjpeg hblocks, ?_⟩
          rw [hdelta, List.flatMap_cons, List.append_assoc, List.append_assoc,
            List.singleton_append]
        · exact Or.inr ⟨r, List.mem_cons_of_mem _ hr, stop, hr'⟩

theorem eq_map_of_forall₂ {α β : Type} {R : α → β → Prop} {f : α → β} {xs : List α}
    {ys : List β} (h : List.Forall₂ R xs ys) (hf : ∀ x ∈ xs, ∀ y, R x y → y = f x) :
    ys = xs.map f := by
  induction h with
  | nil => rfl
  | cons hfirst _ ih =>
    rw [List.map_cons, ← hf _ List.mem_cons_self _ hfirst,
      ← ih fun x hx => hf x (List.mem_cons_of_mem _ hx)]

theorem deltaTiles_ok {rects : List TileRect} {bytes : TileRect → List UInt8}
    (ha : a.Valid) (hb : b.Valid) (hsize : a.sameSize b = true)
    (h64 : 4 * a.width.toNat * a.height.toNat < 2 ^ 64)
    (hin : ∀ rect ∈ rects, rect.Inside a.width a.height)
    (hbytes : ∀ rect ∈ rects, encodeJpeg jpeg (b.region rect) rect.w rect.h = .ok (bytes rect))
    (tiles : List TileRect) (payload : List UInt8) :
    deltaTiles jpeg a b (tiles, payload) rects =
      .ok (tiles ++ rects.filter fun rect => a.region rect ≠ b.region rect,
        payload ++ (rects.filter fun rect => a.region rect ≠ b.region rect).flatMap
          fun rect => block (bytes rect)) := by
  have hsent : ∀ rect ∈ changedOf a b rects,
      encodeJpeg jpeg (b.region rect) rect.w rect.h = .ok (bytes rect) := fun rect h =>
    hbytes rect (List.mem_filter.mp h).1
  rcases deltaTiles_cases jpeg ha hb hsize h64 hin tiles payload with
    ⟨blocks, hblocks, hdelta⟩ | ⟨rect, hrect, stop, hstop, -⟩
  · have heq : blocks = (changedOf a b rects).map bytes := by
      apply eq_map_of_forall₂ hblocks
      intro rect hrect block hblock
      rw [hsent rect hrect] at hblock
      exact (Except.ok.inj hblock).symm
    rw [hdelta, heq, List.flatMap_map]
    rfl
  · rw [hsent rect hrect] at hstop
    cases hstop

end Controlis.Codec
