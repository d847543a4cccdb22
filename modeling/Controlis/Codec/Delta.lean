import Mathlib.Data.List.Forall2
import Controlis.Codec.Hostile
import Controlis.Codec.Replay

/-!
# What a delta message says

The grid covers a frame, every pixel once. A delta between two frames of one
size lists the tiles in which a pixel differs, in grid order, and lays their
JPEG blocks end to end, so that the payload can be cut back in one way only.
-/

namespace Controlis.Codec
open Checked Numeral Strided Protocol

def TileRect.Before (a b : TileRect) : Prop :=
  a.y.toNat < b.y.toNat ∨ a.y.toNat = b.y.toNat ∧ a.x.toNat < b.x.toNat

instance (rect : TileRect) (x y : ℕ) : Decidable (rect.Covers x y) :=
  inferInstanceAs (Decidable (_ ∧ _))

structure IsGrid (width height : ℕ) (rects : List TileRect) : Prop where
  ordered : rects.Pairwise TileRect.Before
  clamped : ∀ rect, rect ∈ rects ↔ ∃ i j, tileSize * i < width ∧ tileSize * j < height ∧
    rect.x.toNat = tileSize * i ∧ rect.y.toNat = tileSize * j ∧
    rect.w.toNat = min tileSize (width - tileSize * i) ∧
    rect.h.toNat = min tileSize (height - tileSize * j)
  nonempty : ∀ rect ∈ rects, 0 < rect.w.toNat ∧ 0 < rect.h.toNat
  inside : ∀ rect ∈ rects, rect.x.toNat + rect.w.toNat ≤ width ∧
    rect.y.toNat + rect.h.toNat ≤ height
  once : ∀ x y, x < width → y < height → (rects.countP fun rect => rect.Covers x y) = 1

def TileRect.Differs (a b : RgbaFrame) (rect : TileRect) : Prop :=
  ∃ x y, rect.Covers x y ∧ a.pixel x y ≠ b.pixel x y

/-- Blocks with lengths of 32 bits that make up the payload. -/
def Lays (blocks : List (List UInt8)) (payload : List UInt8) : Prop :=
  (∀ bytes ∈ blocks, bytes.length < 2 ^ 32) ∧ blocks.flatMap block = payload

def readBlocks (payload : List UInt8) : ℕ → ℕ → Result (List (List UInt8) × ℕ)
  | cursor, 0 => .ok ([], cursor)
  | cursor, n + 1 => do
    let (bytes, cursor) ← readBlock payload cursor
    let (blocks, cursor) ← readBlocks payload cursor n
    .ok (bytes :: blocks, cursor)

def IsJpegOf (jpeg : Jpeg) (frame : RgbaFrame) (rect : TileRect) (bytes : List UInt8) : Prop :=
  encodeJpeg jpeg (frame.region rect) rect.w rect.h = .ok bytes

structure ExactDelta (jpeg : Jpeg) (rects : List TileRect) (prev frame : RgbaFrame)
    (message : ScreenFrame) : Prop where
  encoding : message.encoding = .tileDelta
  size : message.widthPx = frame.width ∧ message.heightPx = frame.height
  ordered : message.tiles.Sublist rects
  listed : ∀ rect ∈ rects, rect ∈ message.tiles ↔ rect.Differs prev frame
  outside : SameOutside message.tiles prev frame
  payload : ∃ blocks, List.Forall₂ (IsJpegOf jpeg frame) message.tiles blocks ∧
    readBlocks message.payload 0 message.tiles.length = .ok (blocks, message.payload.length) ∧
    Lays blocks message.payload ∧ ∀ others, Lays others message.payload → others = blocks

/-- What the wire format relies on: the block of one tile has a length of 32 bits. -/
def Jpeg.ShortTiles (jpeg : Jpeg) : Prop :=
  ∀ rgba (w h : UInt16) bytes, w.toNat ≤ tileSize → h.toNat ≤ tileSize →
    jpeg.encode rgba w h = .ok bytes → bytes.length < 2 ^ 32

theorem grid_ordered {width height : ℕ} (hw : width + tileSize ≤ 2 ^ 32)
    (hh : height + tileSize ≤ 2 ^ 32) : (grid width height).Pairwise TileRect.Before := by
  apply grid_pairwise
  · intro i k j hik hk hj
    obtain ⟨hx, hy, -, -⟩ := tileAt_toNat hw hh (hik.trans hk) hj
    obtain ⟨hx', hy', -, -⟩ := tileAt_toNat hw hh hk hj
    apply Or.inr
    rw [hx, hy, hx', hy', tileSize]
    omega
  · intro i k j l hi hk hjl hl
    obtain ⟨-, hy, -, -⟩ := tileAt_toNat hw hh hi (hjl.trans hl)
    obtain ⟨-, hy', -, -⟩ := tileAt_toNat hw hh hk hl
    apply Or.inl
    rw [hy, hy', tileSize]
    omega

theorem lt_tileCount {extent i : ℕ} : i < tileCount extent ↔ tileSize * i < extent := by
  rw [tileCount, tileSize]
  omega

theorem eq_tileAt {width height i j : ℕ} {rect : TileRect} (hw : width + tileSize ≤ 2 ^ 32)
    (hh : height + tileSize ≤ 2 ^ 32) (hi : i < tileCount width) (hj : j < tileCount height)
    (hx : rect.x.toNat = tileSize * i) (hy : rect.y.toNat = tileSize * j)
    (hrw : rect.w.toNat = min tileSize (width - tileSize * i))
    (hrh : rect.h.toNat = min tileSize (height - tileSize * j)) :
    tileAt width height i j = rect := by
  obtain ⟨hx', hy', hrw', hrh'⟩ := tileAt_toNat hw hh hi hj
  generalize tileAt width height i j = tile at *
  cases tile
  cases rect
  rw [TileRect.mk.injEq]
  exact ⟨UInt32.toNat_inj.mp (hx'.trans hx.symm), UInt32.toNat_inj.mp (hy'.trans hy.symm),
    UInt32.toNat_inj.mp (hrw'.trans hrw.symm), UInt32.toNat_inj.mp (hrh'.trans hrh.symm)⟩

theorem grid_clamped {width height : ℕ} (hw : width + tileSize ≤ 2 ^ 32)
    (hh : height + tileSize ≤ 2 ^ 32) (rect : TileRect) :
    rect ∈ grid width height ↔ ∃ i j, tileSize * i < width ∧ tileSize * j < height ∧
      rect.x.toNat = tileSize * i ∧ rect.y.toNat = tileSize * j ∧
      rect.w.toNat = min tileSize (width - tileSize * i) ∧
      rect.h.toNat = min tileSize (height - tileSize * j) := by
  rw [mem_grid]
  constructor
  · rintro ⟨i, j, hi, hj, rfl⟩
    exact ⟨i, j, lt_tileCount.mp hi, lt_tileCount.mp hj, tileAt_toNat hw hh hi hj⟩
  · rintro ⟨i, j, hi, hj, hx, hy, hrw, hrh⟩
    have hi' := lt_tileCount.mpr hi
    have hj' := lt_tileCount.mpr hj
    exact ⟨i, j, hi', hj', eq_tileAt hw hh hi' hj' hx hy hrw hrh⟩

theorem countP_eq_one {α : Type} {p : α → Bool} {xs : List α} {x : α}
    (hpair : xs.Pairwise fun a b => ¬(p a ∧ p b)) (hmem : x ∈ xs) (hx : p x) :
    xs.countP p = 1 := by
  induction xs with
  | nil => cases hmem
  | cons y ys ih =>
    obtain ⟨hfirst, hrest⟩ := List.pairwise_cons.mp hpair
    rcases List.mem_cons.mp hmem with rfl | hmem
    · rw [List.countP_cons_of_pos hx, Nat.add_eq_right, List.countP_eq_zero]
      intro z hz hpz
      exact hfirst z hz ⟨hx, hpz⟩
    · have hy : ¬p y := fun hy => hfirst x hmem ⟨hy, hx⟩
      rw [List.countP_cons_of_neg hy]
      exact ih hrest hmem

theorem Apart.not_covers {a b : TileRect} {x y : ℕ} (h : a.window.Apart b.window) :
    ¬(a.Covers x y ∧ b.Covers x y) := by
  simp only [Window.Apart, TileRect.window] at h
  simp only [TileRect.Covers]
  omega

theorem grid_once {width height x y : ℕ} (hw : width + tileSize ≤ 2 ^ 32)
    (hh : height + tileSize ≤ 2 ^ 32) (hx : x < width) (hy : y < height) :
    ((grid width height).countP fun rect => rect.Covers x y) = 1 := by
  have hi : x / tileSize < tileCount width := by
    rw [tileCount, tileSize]
    omega
  have hj : y / tileSize < tileCount height := by
    rw [tileCount, tileSize]
    omega
  apply countP_eq_one (x := tileAt width height (x / tileSize) (y / tileSize))
  · apply (grid_apart width height hw hh).imp
    intro a b hab
    simpa using Apart.not_covers hab
  · exact mem_grid.mpr ⟨_, _, hi, hj, rfl⟩
  · obtain ⟨hx', hy', hrw, hrh⟩ := tileAt_toNat hw hh hi hj
    rw [decide_eq_true_iff, TileRect.Covers, hx', hy', hrw, hrh, tileSize]
    omega

theorem grid_isGrid {width height : UInt32} (hw : width.toNat + tileSize ≤ 2 ^ 32)
    (hh : height.toNat + tileSize ≤ 2 ^ 32) :
    IsGrid width.toNat height.toNat (grid width.toNat height.toNat) where
  ordered := grid_ordered hw hh
  clamped := grid_clamped hw hh
  nonempty _ h := ⟨(grid_inside hw hh h).2.1, (grid_inside hw hh h).2.2.2.1⟩
  inside _ h := (grid_inside hw hh h).1
  once _ _ hx hy := grid_once hw hh hx hy

variable {a b : RgbaFrame} {rect : TileRect}

theorem row_eq_iff (ha : a.width = b.width) {row : ℕ} :
    rect.window.row a.stride a.data row = rect.window.row a.stride b.data row ↔
      ∀ i < rect.w.toNat,
        a.pixel (rect.x.toNat + i) (rect.y.toNat + row) =
          b.pixel (rect.x.toNat + i) (rect.y.toNat + row) := by
  have hpos (i : ℕ) : rect.window.start a.stride row + i * 4 =
      ((rect.y.toNat + row) * a.width.toNat + (rect.x.toNat + i)) * 4 := by
    simp only [Window.start, TileRect.window, RgbaFrame.stride]
    ring
  have hcols : rect.window.cols = rect.w.toNat * 4 := Nat.mul_comm _ _
  rw [Window.row, Window.row, hcols, slice_eq_iff]
  simp only [hpos, RgbaFrame.pixel, ha]

theorem region_ne_iff (ha : a.Valid) (hb : b.Valid) (hsize : a.sameSize b = true)
    (hin : rect.Inside a.width a.height) :
    a.region rect ≠ b.region rect ↔ rect.Differs a b := by
  obtain ⟨hw, hh⟩ := RgbaFrame.sameSize_iff.mp hsize
  have hstride : b.stride = a.stride := by rw [RgbaFrame.stride, RgbaFrame.stride, hw]
  have hlen : b.data.length = a.stride * a.height.toNat := by rw [hb.length, hstride, hh]
  rw [RgbaFrame.region, RgbaFrame.region, hstride, Ne, extract_eq_iff hin.within ha.length hlen,
    TileRect.Differs]
  simp only [row_eq_iff hw]
  push Not
  constructor
  · rintro ⟨row, hrow, i, hi, hne⟩
    simp only [TileRect.window] at hrow
    exact ⟨_, _, ⟨⟨by omega, by omega⟩, by omega, by omega⟩, hne⟩
  · rintro ⟨x, y, ⟨⟨hx, hx'⟩, hy, hy'⟩, hne⟩
    refine ⟨y - rect.y.toNat, ?_, x - rect.x.toNat, by omega, ?_⟩
    · simp only [TileRect.window]
      omega
    · rwa [Nat.add_sub_cancel' hx, Nat.add_sub_cancel' hy]

theorem readBlocks_laid {blocks : List (List UInt8)} (pre : List UInt8)
    (hlen : ∀ bytes ∈ blocks, bytes.length < 2 ^ 32)
    (h64 : (pre ++ blocks.flatMap block).length < 2 ^ 64) :
    readBlocks (pre ++ blocks.flatMap block) pre.length blocks.length =
      .ok (blocks, (pre ++ blocks.flatMap block).length) := by
  induction blocks generalizing pre with
  | nil => simp [readBlocks]
  | cons bytes blocks ih =>
    have hfirst := hlen bytes List.mem_cons_self
    rw [List.flatMap_cons] at h64 ⊢
    rw [List.length_cons, readBlocks, readBlock_block hfirst h64, ok_bind]
    dsimp only
    rw [← List.append_assoc] at h64 ⊢
    rw [ih _ (fun b hb => hlen b (List.mem_cons_of_mem _ hb)) h64]
    rfl

theorem block_append_inj {bytes bytes' rest rest' : List UInt8} (h : bytes.length < 2 ^ 32)
    (h' : bytes'.length < 2 ^ 32) (heq : block bytes ++ rest = block bytes' ++ rest') :
    bytes = bytes' ∧ rest = rest' := by
  rw [block, block, List.append_assoc, List.append_assoc] at heq
  obtain ⟨hhead, htail⟩ := List.append_inj heq (by rw [length_toLeBytes, length_toLeBytes])
  have hvalue := congrArg fromLeBytes hhead
  rw [fromLeBytes_toLeBytes, fromLeBytes_toLeBytes, UInt32.toNat_ofNat', UInt32.toNat_ofNat']
    at hvalue
  exact List.append_inj htail (by omega)

theorem Lays.unique {blocks others : List (List UInt8)} {payload : List UInt8}
    (h : Lays blocks payload) (h' : Lays others payload) : others = blocks := by
  obtain ⟨hlen, rfl⟩ := h
  obtain ⟨hlen', heq⟩ := h'
  induction blocks generalizing others with
  | nil =>
    cases others with
    | nil => rfl
    | cons bytes others => simp [block, toLeBytes] at heq
  | cons bytes blocks ih =>
    cases others with
    | nil => simp [block, toLeBytes] at heq
    | cons bytes' others =>
      rw [List.flatMap_cons, List.flatMap_cons] at heq
      obtain ⟨rfl, hrest⟩ := block_append_inj (hlen' bytes' List.mem_cons_self)
        (hlen bytes List.mem_cons_self) heq
      rw [ih (fun b hb => hlen b (List.mem_cons_of_mem _ hb))
        (fun b hb => hlen' b (List.mem_cons_of_mem _ hb)) hrest]

variable {jpeg : Jpeg} {enc : TileEncoder} {prev frame : Picture}

theorem jpeg_short (hj : jpeg.ShortTiles) {rects : List TileRect} {blocks : List (List UInt8)}
    (hrects : ∀ rect ∈ rects, rect ∈ grid frame.width.toNat frame.height.toNat)
    (h : List.Forall₂ (IsJpegOf jpeg frame.toRgbaFrame) rects blocks) :
    blocks.length ≤ rects.length ∧ ∀ bytes ∈ blocks, bytes.length < 2 ^ 32 := by
  refine ⟨h.length_eq.ge, ?_⟩
  induction h with
  | nil => exact fun _ hbytes => nomatch hbytes
  | @cons rect bytes _ _ hfirst _ ih =>
    have hlast := ih fun r hr => hrects r (List.mem_cons_of_mem _ hr)
    suffices bytes.length < 2 ^ 32 from List.forall_mem_cons.mpr ⟨this, hlast⟩
    obtain ⟨-, -, hw, -, hh⟩ := frame.grid_inside (hrects rect List.mem_cons_self)
    have hsize : rect.w.toUInt16.toNat = rect.w.toNat ∧ rect.h.toUInt16.toNat = rect.h.toNat := by
      rw [tileSize] at hw hh
      exact ⟨toUInt16_toNat (by omega), toUInt16_toNat (by omega)⟩
    rw [IsJpegOf, encodeJpeg] at hfirst
    cases hcode : jpeg.encode (frame.region rect) rect.w.toUInt16 rect.h.toUInt16 with
    | error e =>
      rw [hcode] at hfirst
      cases hfirst
    | ok bytes' =>
      rw [hcode] at hfirst
      cases hfirst
      exact hj _ _ _ _ (by rw [hsize.1]; exact hw) (by rw [hsize.2]; exact hh) hcode

theorem Picture.tileRects_eq (p : Picture) :
    tileRects p.width p.height = .ok (grid p.width.toNat p.height.toNat) ∧
      IsGrid p.width.toNat p.height.toNat (grid p.width.toNat p.height.toNat) := by
  have hw := p.width_le
  have hh := p.height_le
  exact ⟨tileRects_ok (by rw [tileSize]; omega) (by rw [tileSize]; omega),
    grid_isGrid (by rw [tileSize]; omega) (by rw [tileSize]; omega)⟩

theorem mem_changedOf (hsize : prev.sameSize frame.toRgbaFrame = true) {rect : TileRect}
    (hrect : rect ∈ grid frame.width.toNat frame.height.toNat) :
    rect ∈ changedOf prev.toRgbaFrame frame.toRgbaFrame
        (grid frame.width.toNat frame.height.toNat) ↔
      rect.Differs prev.toRgbaFrame frame.toRgbaFrame := by
  obtain ⟨hw, hh⟩ := RgbaFrame.sameSize_iff.mp hsize
  have hin : rect.Inside prev.width prev.height := by
    rw [hw, hh]
    exact (frame.grid_inside hrect).1
  rw [changedOf, List.mem_filter, decide_eq_true_iff,
    region_ne_iff prev.valid frame.valid hsize hin]
  exact and_iff_right hrect

theorem changedOf_outside (hsize : prev.sameSize frame.toRgbaFrame = true) :
    SameOutside (changedOf prev.toRgbaFrame frame.toRgbaFrame
      (grid frame.width.toNat frame.height.toNat)) prev.toRgbaFrame frame.toRgbaFrame := by
  obtain ⟨hw, hh⟩ := RgbaFrame.sameSize_iff.mp hsize
  refine ⟨hw, hh, ?_⟩
  intro x y hx hy hout
  have honce := frame.tileRects_eq.2.once x y (hw ▸ hx) (hh ▸ hy)
  obtain ⟨rect, hrect, hcovers⟩ := List.countP_pos_iff.mp (honce ▸ Nat.one_pos)
  by_contra hne
  have hdiffers : rect.Differs prev.toRgbaFrame frame.toRgbaFrame :=
    ⟨x, y, of_decide_eq_true hcovers, Ne.symm hne⟩
  exact hout rect ((mem_changedOf hsize hrect).mpr hdiffers) (of_decide_eq_true hcovers)

theorem encodeDelta_cases (hj : jpeg.ShortTiles) (henc : enc.previous = some prev.toRgbaFrame)
    (hsize : prev.sameSize frame.toRgbaFrame = true) (monitorId : UInt32) (frameId : UInt64) :
    (∃ message, enc.encodeDelta jpeg monitorId frameId frame.toRgbaFrame = .ok message ∧
        ExactDelta jpeg (grid frame.width.toNat frame.height.toNat) prev.toRgbaFrame
          frame.toRgbaFrame message) ∨
      ∃ rect ∈ grid frame.width.toNat frame.height.toNat,
        rect.Differs prev.toRgbaFrame frame.toRgbaFrame ∧ ∃ stop,
          encodeJpeg jpeg (frame.region rect) rect.w rect.h = .error stop ∧
            enc.encodeDelta jpeg monitorId frameId frame.toRgbaFrame = .error stop := by
  obtain ⟨hw, hh⟩ := RgbaFrame.sameSize_iff.mp hsize
  have hmem : ∀ rect ∈ changedOf prev.toRgbaFrame frame.toRgbaFrame
        (grid frame.width.toNat frame.height.toNat),
      rect ∈ grid frame.width.toNat frame.height.toNat := fun _ h => (List.mem_filter.mp h).1
  have hcases := deltaTiles_cases jpeg prev.valid frame.valid hsize prev.lt64
    (fun rect h => by rw [hw, hh]; exact (frame.grid_inside h).1) [] []
  rw [TileEncoder.encodeDelta, henc]
  dsimp only
  rw [frame.tileRects_eq.1, ok_bind]
  rcases hcases with ⟨blocks, hblocks, hdelta⟩ | ⟨rect, hrect, stop, hjpeg, hdelta⟩
  · rw [hdelta, ok_bind]
    obtain ⟨hcount, hshort⟩ := jpeg_short hj hmem hblocks
    have hfew := hcount.trans ((List.length_filter_le _ _).trans frame.length_grid_le)
    have hlt := length_blocks_lt hfew hshort
    refine Or.inl ⟨_, rfl, rfl, ⟨rfl, rfl⟩, List.filter_sublist,
      fun rect hrect => mem_changedOf hsize hrect, changedOf_outside hsize, blocks, hblocks, ?_⟩
    refine ⟨?_, ⟨hshort, rfl⟩, fun others hothers => Lays.unique ⟨hshort, rfl⟩ hothers⟩
    have hread := readBlocks_laid [] hshort hlt
    rw [← hblocks.length_eq] at hread
    exact hread
  · rw [hdelta, error_bind]
    exact Or.inr ⟨rect, hmem rect hrect, (mem_changedOf hsize (hmem rect hrect)).mp hrect, stop,
      hjpeg, rfl⟩

/-- Deltas are exact and minimal, and nothing faults on the way. -/
theorem deltas_are_exact (jpeg : Jpeg) (hj : jpeg.ShortTiles) (enc : TileEncoder)
    (prev frame : Picture) (henc : enc.previous = some prev.toRgbaFrame)
    (hsize : prev.sameSize frame.toRgbaFrame = true) (monitorId : UInt32) (frameId : UInt64) :
    NoFault (enc.encodeDelta jpeg monitorId frameId frame.toRgbaFrame) ∧
    ∃ rects, tileRects frame.width frame.height = .ok rects ∧
      IsGrid frame.width.toNat frame.height.toNat rects ∧
      (∀ message, enc.encodeDelta jpeg monitorId frameId frame.toRgbaFrame = .ok message →
        ExactDelta jpeg rects prev.toRgbaFrame frame.toRgbaFrame message) ∧
      ((∀ rect ∈ rects, rect.Differs prev.toRgbaFrame frame.toRgbaFrame →
          ∃ bytes, IsJpegOf jpeg frame.toRgbaFrame rect bytes) →
        ∃ message, enc.encodeDelta jpeg monitorId frameId frame.toRgbaFrame = .ok message) := by
  obtain ⟨hrects, hgrid⟩ := frame.tileRects_eq
  rcases encodeDelta_cases hj henc hsize monitorId frameId
    with ⟨message, hok, hexact⟩ | ⟨rect, hrect, hdiffers, stop, hjpeg, herr⟩
  · rw [hok]
    refine ⟨noFault_ok _, _, hrects, hgrid, ?_, fun _ => ⟨message, rfl⟩⟩
    intro message' hok'
    cases hok'
    exact hexact
  · rw [herr]
    refine ⟨?_, _, hrects, hgrid, ?_, ?_⟩
    · intro f hf
      cases hf
      exact noFault_lift _ _ f hjpeg
    · intro message hok
      cases hok
    · intro hall
      obtain ⟨bytes, hbytes⟩ := hall rect hrect hdiffers
      rw [IsJpegOf, hjpeg] at hbytes
      cases hbytes

def blackPicture : Picture :=
  ⟨⟨1, 1, [0, 0, 0, 255]⟩, by decide, by decide, by decide, by decide, rfl⟩

def whitePicture : Picture :=
  ⟨⟨1, 1, [255, 255, 255, 255]⟩, by decide, by decide, by decide, by decide, rfl⟩

theorem deltas_are_exact_pixel :
    NoFault (TileEncoder.encodeDelta greyJpeg ⟨.jpegTiles, some blackPicture.toRgbaFrame⟩ 0 1
      whitePicture.toRgbaFrame) ∧
    ∃ rects, tileRects 1 1 = .ok rects ∧ IsGrid 1 1 rects ∧
      ∀ message, TileEncoder.encodeDelta greyJpeg ⟨.jpegTiles, some blackPicture.toRgbaFrame⟩ 0 1
          whitePicture.toRgbaFrame = .ok message →
        ExactDelta greyJpeg rects blackPicture.toRgbaFrame whitePicture.toRgbaFrame message := by
  obtain ⟨hfault, rects, hrects, hgrid, hexact, -⟩ := deltas_are_exact greyJpeg
    greyJpeg_roundTrips.block ⟨.jpegTiles, some blackPicture.toRgbaFrame⟩ blackPicture
    whitePicture rfl rfl 0 1
  exact ⟨hfault, rects, hrects, hgrid, hexact⟩

end Controlis.Codec
