import Controlis.Codec.Hostile

/-!
# Rejected frames

A full picture is checked before it replaces the canvas, and so is the size of a
delta. The tiles of a delta are written while the rest of the payload is still
to be read: when a later tile is refused, the earlier ones stay. The canvas is
intact only if these tiles show what was there already.
-/

namespace Controlis.Codec
open Checked Strided Protocol

def readable (jpeg : Jpeg) (payload : List UInt8) :
    ℕ → List TileRect → List (TileRect × List UInt8)
  | _, [] => []
  | cursor, rect :: rects =>
    match nextTile jpeg payload cursor rect with
    | .error _ => []
    | .ok (pixels, cursor) => (rect, pixels) :: readable jpeg payload cursor rects

def rowWrites (stride : ℕ) (rect : TileRect) (pixels : List UInt8) (rows : List ℕ) :
    List (ℕ × List UInt8) :=
  rows.map fun row => (rect.window.start stride row,
    slice pixels (row * (4 * rect.w.toNat)) (4 * rect.w.toNat))

def tileWrites (stride : ℕ) (tiles : List (TileRect × List UInt8)) : List (ℕ × List UInt8) :=
  tiles.flatMap fun tile => rowWrites stride tile.1 tile.2 (List.range tile.1.h.toNat)

def RgbaFrame.written (f : RgbaFrame) (writes : List (ℕ × List UInt8)) : RgbaFrame :=
  { f with data := overwriteAll writes f.data }

/-- A delta for the canvas has, before its first unreadable tile, only what is on it. -/
def NothingNew (jpeg : Jpeg) (dec : TileDecoder) (message : ScreenFrame) : Prop :=
  message.encoding = .tileDelta → ∀ canvas, dec.canvas = some canvas →
    canvas.width = message.widthPx → canvas.height = message.heightPx →
    ∀ i byte, lastAt i (tileWrites canvas.stride
      (readable jpeg message.payload 0 message.tiles)) = some byte → canvas.data[i]? = some byte

variable {jpeg : Jpeg} {canvas canvas' : RgbaFrame} {rect : TileRect} {pixels payload : List UInt8}

theorem tileWrites_cons (stride : ℕ) (tiles : List (TileRect × List UInt8)) :
    tileWrites stride ((rect, pixels) :: tiles) =
      rowWrites stride rect pixels (List.range rect.h.toNat) ++ tileWrites stride tiles :=
  List.flatMap_cons

theorem written_append (writes writes' : List (ℕ × List UInt8)) :
    canvas.written (writes ++ writes') = (canvas.written writes).written writes' := by
  rw [RgbaFrame.written, overwriteAll_append]
  rfl

theorem rowStart_eq_ok {stride row start : ℕ} (h : rowStart stride rect row = .ok start) :
    start = rect.window.start stride row := by
  obtain ⟨y, hy, h⟩ := bind_ok h
  obtain ⟨rowOffset, hrow, h⟩ := bind_ok h
  obtain ⟨xOffset, hx, h⟩ := bind_ok h
  have hstart : rect.window.start stride row = (rect.y.toNat + row) * stride + 4 * rect.x.toNat :=
    rfl
  rw [hstart, ← add_eq_ok h, ← mul_eq_ok hrow, ← mul_eq_ok hx, ← add_eq_ok hy,
    Nat.mul_comm rect.x.toNat]

theorem blitRows_eq_ok {stride : ℕ} {data data' : List UInt8} {rows : List ℕ}
    (h : blitRows rect pixels stride (4 * rect.w.toNat) data rows = .ok data') :
    data' = overwriteAll (rowWrites stride rect pixels rows) data ∧
      ∀ w ∈ rowWrites stride rect pixels rows, w.1 + w.2.length ≤ data.length := by
  induction rows generalizing data with
  | nil => exact ⟨(Except.ok.inj h).symm, fun w hw => by cases hw⟩
  | cons row rows ih =>
    obtain ⟨dst, hdst, h⟩ := bind_ok h
    obtain ⟨src, hsrc, h⟩ := bind_ok h
    obtain ⟨dstEnd, hdstEnd, h⟩ := bind_ok h
    obtain ⟨srcEnd, hsrcEnd, h⟩ := bind_ok h
    obtain ⟨bytes, hbytes, h⟩ := bind_ok h
    obtain ⟨next, hnext, h⟩ := bind_ok h
    obtain rfl := rowStart_eq_ok hdst
    obtain rfl := mul_eq_ok hsrc
    obtain rfl := add_eq_ok hsrcEnd
    obtain ⟨-, -, rfl⟩ := index_eq_ok hbytes
    obtain ⟨hfit, rfl⟩ := copyFromSlice_eq_ok hnext
    obtain ⟨hdata, hrest⟩ := ih h
    rw [Nat.add_sub_cancel_left] at hfit hdata hrest
    refine ⟨hdata, fun w hw => ?_⟩
    rcases List.mem_cons.mp hw with rfl | hw
    · exact hfit
    · rw [← length_overwrite hfit]
      exact hrest w hw

theorem blit_eq_ok (h : blit canvas rect pixels = .ok canvas') :
    canvas' = canvas.written (rowWrites canvas.stride rect pixels (List.range rect.h.toNat)) ∧
    ∀ w ∈ rowWrites canvas.stride rect pixels (List.range rect.h.toNat),
      w.1 + w.2.length ≤ canvas.data.length := by
  rw [blit, mul_four_ok, ok_bind, mul_four_ok, ok_bind] at h
  obtain ⟨data, hdata, h⟩ := bind_ok h
  obtain ⟨rfl, hfit⟩ := blitRows_eq_ok hdata
  exact ⟨(Except.ok.inj h).symm, hfit⟩

theorem blit_noError (canvas : RgbaFrame) (rect : TileRect) (pixels : List UInt8) :
    NoError (blit canvas rect pixels) := by
  have hstart (stride row : ℕ) : NoError (rowStart stride rect row) :=
    (noError_add _ _ _).bind fun _ => (noError_mul _ _ _).bind fun _ =>
      (noError_mul _ _ _).bind fun _ => noError_add _ _ _
  have hrows (stride rowBytes : ℕ) (rows : List ℕ) (data : List UInt8) :
      NoError (blitRows rect pixels stride rowBytes data rows) := by
    induction rows generalizing data with
    | nil => exact noError_ok data
    | cons row rows ih =>
      exact (hstart _ _).bind fun _ => (noError_mul _ _ _).bind fun _ =>
        (noError_add _ _ _).bind fun _ => (noError_add _ _ _).bind fun _ =>
          (noError_index _ _ _).bind fun _ => (noError_copyFromSlice _ _ _ _).bind fun _ => ih _
  exact (noError_mul _ _ _).bind fun _ => (noError_mul _ _ _).bind fun _ =>
    (hrows _ _ _ _).bind fun _ => noError_ok _

theorem patchTiles_refused {e : CodecError} {cursor : ℕ} {tiles : List TileRect}
    (h : (patchTiles jpeg payload canvas cursor tiles).2 = fail e) :
    (patchTiles jpeg payload canvas cursor tiles).1 =
      canvas.written (tileWrites canvas.stride (readable jpeg payload cursor tiles)) ∧
    ∀ w ∈ tileWrites canvas.stride (readable jpeg payload cursor tiles),
      w.1 + w.2.length ≤ canvas.data.length := by
  induction tiles generalizing canvas cursor with
  | nil => cases h
  | cons rect rects ih =>
    rw [patchTiles] at h ⊢
    rw [readable]
    cases hnext : nextTile jpeg payload cursor rect with
    | error stop => exact ⟨rfl, fun w hw => by cases hw⟩
    | ok next =>
      obtain ⟨pixels, stop⟩ := next
      rw [hnext] at h
      dsimp only at h ⊢
      cases hblit : blit canvas rect pixels with
      | error s =>
        rw [hblit] at h
        have hfail : s = .error e := Except.error.inj h
        rw [hfail] at hblit
        exact absurd hblit (blit_noError canvas rect pixels e)
      | ok patched =>
        rw [hblit] at h
        obtain ⟨rfl, hfit⟩ := blit_eq_ok hblit
        obtain ⟨hcanvas, hrest⟩ := ih h
        rw [tileWrites_cons, written_append]
        refine ⟨hcanvas, fun w hw => ?_⟩
        rcases List.mem_append.mp hw with hw | hw
        · exact hfit w hw
        · rw [← length_overwriteAll hfit]
          exact hrest w hw

theorem applyDelta_refused {dec : TileDecoder} {width height : UInt32} {tiles : List TileRect}
    {e : CodecError} (hcanvas : dec.canvas = some canvas) (hwidth : canvas.width = width)
    (hheight : canvas.height = height)
    (h : (dec.applyDelta jpeg width height tiles payload).2 = fail e) :
    (dec.applyDelta jpeg width height tiles payload).1.canvas = dec.canvas ↔
      ∀ i byte, lastAt i (tileWrites canvas.stride (readable jpeg payload 0 tiles)) = some byte →
        canvas.data[i]? = some byte := by
  have hsize : ¬ (canvas.width ≠ width ∨ canvas.height ≠ height) := by simp [hwidth, hheight]
  rw [TileDecoder.applyDelta, hcanvas] at h ⊢
  dsimp only at h ⊢
  rw [if_neg hsize] at h ⊢
  obtain ⟨hwritten, hfit⟩ := patchTiles_refused h
  rw [← overwriteAll_eq_self_iff hfit]
  dsimp only
  rw [hwritten]
  constructor
  · intro hsame
    exact congrArg RgbaFrame.data (Option.some.inj hsame)
  · intro hsame
    rw [RgbaFrame.written, hsame]

theorem accept_of_decode {dec : TileDecoder} {message : ScreenFrame} {e : CodecError}
    (h : (dec.decode jpeg message).2 = fail e) : (dec.accept jpeg message).2 = fail e ∧
      (dec.decode jpeg message).1 = (dec.accept jpeg message).1 := by
  unfold TileDecoder.decode at h ⊢
  rcases hacc : dec.accept jpeg message with ⟨next, result⟩
  rw [hacc] at h
  cases result with
  | error stop => exact ⟨congrArg Except.error (Except.error.inj h), rfl⟩
  | ok u =>
    dsimp only at h ⊢
    cases hcanvas : next.canvas <;> rw [hcanvas] at h <;> cases h

/-- A refused message leaves the canvas as it was iff it had nothing new before the error. -/
theorem refused_intact_iff (jpeg : Jpeg) (dec : TileDecoder) (message : ScreenFrame)
    (e : CodecError) (h : (dec.decode jpeg message).2 = fail e) :
    (dec.decode jpeg message).1.canvas = dec.canvas ↔ NothingNew jpeg dec message := by
  obtain ⟨herr, hsame⟩ := accept_of_decode h
  rw [hsame]
  unfold TileDecoder.accept at herr ⊢
  unfold NothingNew
  cases hencoding : message.encoding with
  | full =>
    rw [hencoding] at herr
    dsimp only at herr ⊢
    cases hfull : fullFrame jpeg message with
    | error stop => simp
    | ok frame =>
      rw [hfull] at herr
      cases herr
  | tileDelta =>
    rw [hencoding] at herr
    dsimp only at herr ⊢
    cases hcanvas : dec.canvas with
    | none => simp [TileDecoder.applyDelta, hcanvas]
    | some canvas =>
      by_cases hsize : canvas.width = message.widthPx ∧ canvas.height = message.heightPx
      · have hiff := applyDelta_refused hcanvas hsize.1 hsize.2 herr
        rw [hcanvas] at hiff
        rw [hiff]
        simp [hsize.1, hsize.2]
      · -- another size: refused before any tile is read
        have hrefused : (dec.applyDelta jpeg message.widthPx message.heightPx message.tiles
            message.payload).1 = dec := by
          rw [TileDecoder.applyDelta, hcanvas]
          dsimp only
          rw [if_pos (not_and_or.mp hsize)]
        rw [hrefused, hcanvas]
        simp only [Option.some.injEq, forall_eq', true_iff]
        intro _ hwidth hheight
        exact absurd ⟨hwidth, hheight⟩ hsize

def truncatedDelta : ScreenFrame :=
  ⟨0, 1, .jpegTiles, .tileDelta, 1, 1, [⟨0, 0, 1, 1⟩, ⟨0, 0, 1, 1⟩], [1, 0, 0, 0, 0]⟩

theorem truncated_delta_shows_through :
    (TileDecoder.new.decode pixelJpeg (rawFrame 1 1 blackPixel.data)).1 = ⟨some blackPixel⟩ ∧
      ((⟨some blackPixel⟩ : TileDecoder).decode pixelJpeg truncatedDelta).2 =
        fail .malformedPayload ∧
      ((⟨some blackPixel⟩ : TileDecoder).decode pixelJpeg truncatedDelta).1.canvas ≠
        some blackPixel := by
  refine ⟨rfl, rfl, ?_⟩
  decide

theorem refused_intact_iff_truncated :
    ((⟨some blackPixel⟩ : TileDecoder).decode pixelJpeg truncatedDelta).1.canvas =
        some blackPixel ↔
      NothingNew pixelJpeg ⟨some blackPixel⟩ truncatedDelta :=
  refused_intact_iff pixelJpeg ⟨some blackPixel⟩ truncatedDelta .malformedPayload rfl

end Controlis.Codec
