import Mathlib.Data.List.Induction
import Controlis.Codec.Decoder

/-!
# The decoder against a hostile host

Every field of a message comes from the network. The decoder checks the payload
but neither the size of a full picture nor the place of a tile. `Harmless` says
which messages stay clear of both gaps: a picture that is stored fits in the
address space, and a tile that is written lies on the canvas.
-/

namespace Controlis.Codec
open Checked Numeral Strided Protocol

/-- A message as it is received; a byte vector holds at most `isize::MAX` bytes. -/
structure Received extends ScreenFrame where
  payload_lt : payload.length < 2 ^ 63

/-- The tiles whose block is found and decodes, as far as the loop gets. -/
def reached (jpeg : Jpeg) (payload : List UInt8) :
    ℕ → List TileRect → List (TileRect × List UInt8)
  | _, [] => []
  | cursor, rect :: rects =>
    match get? payload cursor (cursor + 4) with
    | none => []
    | some header =>
      let stop := cursor + 4 + fromLeBytes header
      match get? payload (cursor + 4) stop with
      | none => []
      | some bytes =>
        match jpeg.decode bytes with
        | .error _ => []
        | .ok pixels =>
          (rect, pixels) ::
            if pixels.length = 4 * rect.w.toNat * rect.h.toNat then reached jpeg payload stop rects
            else []

def TileRect.OnCanvas (rect : TileRect) (width height : UInt32) : Prop :=
  rect.h.toNat = 0 ∨
    (rect.w.toNat = 0 ∧ (rect.y.toNat + (rect.h.toNat - 1)) * width.toNat + rect.x.toNat ≤
      width.toNat * height.toNat) ∨
    rect.Inside width height

def HasPicture (jpeg : Jpeg) (message : ScreenFrame) : Prop :=
  match message.codec with
  | .rawRgba => True
  | .jpegTiles => ∃ pixels, jpeg.decode message.payload = .ok pixels
  | .h264 => False

def Harmless (jpeg : Jpeg) (dec : TileDecoder) (message : ScreenFrame) : Prop :=
  match message.encoding with
  | .full => HasPicture jpeg message →
    4 * message.widthPx.toNat * message.heightPx.toNat < 2 ^ 64
  | .tileDelta => ∀ canvas, dec.canvas = some canvas → canvas.width = message.widthPx →
    canvas.height = message.heightPx → ∀ tile ∈ reached jpeg message.payload 0 message.tiles,
      4 * tile.1.w.toNat * tile.1.h.toNat < 2 ^ 64 ∧
        (tile.2.length = 4 * tile.1.w.toNat * tile.1.h.toNat →
          tile.1.OnCanvas canvas.width canvas.height)

def RgbaFrame.pixel (f : RgbaFrame) (x y : ℕ) : List UInt8 :=
  slice f.data ((y * f.width.toNat + x) * 4) 4

def TileRect.Covers (rect : TileRect) (x y : ℕ) : Prop :=
  (rect.x.toNat ≤ x ∧ x < rect.x.toNat + rect.w.toNat) ∧
    rect.y.toNat ≤ y ∧ y < rect.y.toNat + rect.h.toNat

def SameOutside (tiles : List TileRect) (old new : RgbaFrame) : Prop :=
  old.width = new.width ∧ old.height = new.height ∧
    ∀ x y, x < old.width.toNat → y < old.height.toNat → (∀ rect ∈ tiles, ¬rect.Covers x y) →
      new.pixel x y = old.pixel x y

structure Safe (jpeg : Jpeg) (dec : TileDecoder) (message : ScreenFrame) : Prop where
  noFault : NoFault (dec.decode jpeg message).2
  valid : ∀ canvas, (dec.decode jpeg message).1.canvas = some canvas → canvas.Valid
  frame : message.encoding = .tileDelta → ∀ old new, dec.canvas = some old →
    (dec.decode jpeg message).2 = .ok new → SameOutside message.tiles old new

def TileDecoder.after (jpeg : Jpeg) (dec : TileDecoder) (messages : List Received) : TileDecoder :=
  messages.foldl (fun dec message => (dec.decode jpeg message.toScreenFrame).1) dec

variable {jpeg : Jpeg} {dec : TileDecoder} {canvas : RgbaFrame} {rect : TileRect}
  {pixels payload : List UInt8}

structure Sound (canvas : RgbaFrame) : Prop where
  valid : canvas.Valid
  lt64 : 4 * canvas.width.toNat * canvas.height.toNat < 2 ^ 64

theorem OnCanvas.rowsFit (hv : canvas.Valid) (h : rect.OnCanvas canvas.width canvas.height) :
    RowsFit canvas rect := by
  rcases h with h0 | ⟨hw, hle⟩ | hin
  · intro row hrow
    omega
  · intro row hrow
    have hlast : (rect.y.toNat + row) * canvas.width.toNat ≤
        (rect.y.toNat + (rect.h.toNat - 1)) * canvas.width.toNat :=
      Nat.mul_le_mul_right _ (by omega)
    have hstart : rect.window.start canvas.stride row =
        4 * ((rect.y.toNat + row) * canvas.width.toNat + rect.x.toNat) := by
      simp only [Window.start, TileRect.window, RgbaFrame.stride]
      ring
    rw [hv, hstart, hw, Nat.mul_assoc]
    omega
  · exact rowsFit_inside hv hin

theorem patch_empty {w : Window} {stride : ℕ} {ys xs : List UInt8}
    (h : w.rows = 0 ∨ w.cols = 0) : w.patch stride ys xs = xs := by
  rcases h with h | h
  · rw [Window.patch, h]
    rfl
  · have hskip (n : ℕ) : w.patchRows stride ys n xs = xs := by
      induction n with
      | zero => rfl
      | succ n ih => simp [patchRows_succ, ih, h, overwrite]
    exact hskip w.rows

theorem blit_frame (hv : canvas.Valid) (h : rect.OnCanvas canvas.width canvas.height)
    (hpixels : pixels.length = 4 * rect.w.toNat * rect.h.toNat) :
    SameOutside [rect] canvas
        ⟨canvas.width, canvas.height, rect.window.patch canvas.stride pixels canvas.data⟩ ∧
      (rect.window.patch canvas.stride pixels canvas.data).length = canvas.data.length := by
  have hempty : rect.w.toNat = 0 ∨ rect.h.toNat = 0 →
      rect.window.patch canvas.stride pixels canvas.data = canvas.data := fun h0 =>
    patch_empty (by simp only [TileRect.window]; omega)
  rcases h with h0 | ⟨h0, -⟩ | hin
  · rw [hempty (Or.inr h0)]
    exact ⟨⟨rfl, rfl, fun _ _ _ _ _ => rfl⟩, rfl⟩
  · rw [hempty (Or.inl h0)]
    exact ⟨⟨rfl, rfl, fun _ _ _ _ _ => rfl⟩, rfl⟩
  · have hrows : pixels.length = rect.window.rows * rect.window.cols := by
      rw [hpixels, Nat.mul_comm]
      rfl
    refine ⟨⟨rfl, rfl, fun x y hx hy hout => ?_⟩, length_patch hin.within hv.length hrows⟩
    have hcover := hout rect (by simp)
    refine slice_patchRows hin.within hv.length hrows le_rfl fun r hr => ?_
    have hwidth := hin.1
    simp only [TileRect.window] at hr
    simp only [Window.start, TileRect.window, RgbaFrame.stride]
    -- the pixel lies in another row than the written one, or beside the rectangle
    rcases Nat.lt_trichotomy y (rect.y.toNat + r) with hlt | rfl | hgt
    · have hend := row_end_le hlt (show 4 * x + 4 ≤ 4 * canvas.width.toNat by omega)
      have hpos : (y * canvas.width.toNat + x) * 4 = y * (4 * canvas.width.toNat) + 4 * x := by ring
      omega
    · simp only [TileRect.Covers] at hcover
      have hpos : ((rect.y.toNat + r) * canvas.width.toNat + x) * 4 =
          (rect.y.toNat + r) * (4 * canvas.width.toNat) + 4 * x := by ring
      omega
    · have hend := row_end_le hgt
        (show 4 * rect.x.toNat + 4 * rect.w.toNat ≤ 4 * canvas.width.toNat by omega)
      have hpos : (y * canvas.width.toNat + x) * 4 = y * (4 * canvas.width.toNat) + 4 * x := by ring
      omega

theorem get?_eq_some {xs ys : List UInt8} {start stop : ℕ} (h : get? xs start stop = some ys) :
    start ≤ stop ∧ stop ≤ xs.length ∧ ys.length = stop - start := by
  rw [get?] at h
  split_ifs at h with hle
  cases h
  exact ⟨hle.1, hle.2, length_slice (by omega)⟩

theorem decodeJpeg_noFault {bytes : List UInt8} {width height : UInt32}
    (h : (∃ pixels, jpeg.decode bytes = .ok pixels) →
      4 * width.toNat * height.toNat < 2 ^ 64) :
    NoFault (decodeJpeg jpeg bytes width height) := by
  refine NoFault.bind (noFault_lift _ _) fun pixels hpixels => ?_
  have hdecoded : jpeg.decode bytes = .ok pixels := by
    cases hd : jpeg.decode bytes with
    | error e => simp [hd, lift, fail] at hpixels
    | ok p => simpa [hd, lift] using hpixels
  rw [byteLen_ok (h ⟨pixels, hdecoded⟩), ok_bind]
  split_ifs <;> simp

/-- One round up to the blit: it fails on purpose, or hands over pixels of the
right size and leaves the rest of the tiles to be reached from the next block. -/
theorem nextTile_cases (payload : List UInt8) (hlen : payload.length < 2 ^ 63) (cursor : ℕ)
    (hcursor : cursor ≤ payload.length) (rect : TileRect) (rects : List TileRect)
    (h64 : ∀ tile ∈ reached jpeg payload cursor (rect :: rects), tile.1 = rect →
      4 * tile.1.w.toNat * tile.1.h.toNat < 2 ^ 64) :
    (∃ e, nextTile jpeg payload cursor rect = fail e) ∨
      ∃ pixels stop, nextTile jpeg payload cursor rect = .ok (pixels, stop) ∧
        stop ≤ payload.length ∧ pixels.length = 4 * rect.w.toNat * rect.h.toNat ∧
        pixels.length < 2 ^ 64 ∧ reached jpeg payload cursor (rect :: rects) =
          (rect, pixels) :: reached jpeg payload stop rects := by
  rw [reached] at h64 ⊢
  rw [nextTile, readU32, usizeBits, add_ok (by omega), ok_bind]
  cases hhead : get? payload cursor (cursor + 4) with
  | none => exact Or.inl ⟨_, rfl⟩
  | some header =>
    obtain ⟨-, hfit, hhlen⟩ := get?_eq_some hhead
    have hcount : (UInt32.ofNat (fromLeBytes header)).toNat = fromLeBytes header := by
      have hlt := fromLeBytes_lt header
      rw [hhlen, Nat.add_sub_cancel_left] at hlt
      rw [UInt32.toNat_ofNat']
      omega
    have hlt : fromLeBytes header < 2 ^ 32 := by
      rw [← hcount]
      exact UInt32.toNat_lt _
    rw [orFail, ok_bind, ok_bind]
    dsimp only at h64 ⊢
    rw [hcount, add_ok (by omega), ok_bind]
    rw [hhead] at h64
    dsimp only at h64 ⊢
    cases hblock : get? payload (cursor + 4) (cursor + 4 + fromLeBytes header) with
    | none => exact Or.inl ⟨_, rfl⟩
    | some bytes =>
      obtain ⟨-, hstop, -⟩ := get?_eq_some hblock
      rw [hblock] at h64
      rw [orFail, ok_bind, decodeJpeg]
      dsimp only at h64 ⊢
      cases hjpeg : jpeg.decode bytes with
      | error e => exact Or.inl ⟨_, rfl⟩
      | ok pixels =>
        rw [hjpeg] at h64
        have hsize := h64 (rect, pixels) (List.mem_cons_self ..) rfl
        rw [lift, ok_bind, byteLen_ok hsize, ok_bind]
        split_ifs with hne
        · exact Or.inl ⟨_, rfl⟩
        · have heq := not_not.mp hne
          refine Or.inr ⟨pixels, _, rfl, hstop, heq, by rw [heq]; exact hsize, ?_⟩
          dsimp only
          rw [if_pos heq]

theorem SameOutside.cons {tiles : List TileRect} {f g k : RgbaFrame}
    (h : SameOutside [rect] f g) (h' : SameOutside tiles g k) :
    SameOutside (rect :: tiles) f k := by
  obtain ⟨hw, hh, hp⟩ := h
  obtain ⟨hw', hh', hp'⟩ := h'
  refine ⟨hw.trans hw', hh.trans hh', fun x y hx hy hout => ?_⟩
  rw [hp' x y (hw ▸ hx) (hh ▸ hy) fun r hr => hout r (List.mem_cons_of_mem _ hr),
    hp x y hx hy fun r hr => hout r (by simpa using Or.inl (List.mem_singleton.mp hr))]

theorem patchTiles_safe (jpeg : Jpeg) (hlen : payload.length < 2 ^ 63)
    {tiles : List TileRect} {cursor : ℕ}
    (hcursor : cursor ≤ payload.length) (hs : Sound canvas)
    (hok : ∀ tile ∈ reached jpeg payload cursor tiles,
      4 * tile.1.w.toNat * tile.1.h.toNat < 2 ^ 64 ∧
        (tile.2.length = 4 * tile.1.w.toNat * tile.1.h.toNat →
          tile.1.OnCanvas canvas.width canvas.height)) :
    NoFault (patchTiles jpeg payload canvas cursor tiles).2 ∧
      Sound (patchTiles jpeg payload canvas cursor tiles).1 ∧
      SameOutside tiles canvas (patchTiles jpeg payload canvas cursor tiles).1 := by
  induction tiles generalizing canvas cursor with
  | nil => exact ⟨noFault_ok _, hs, rfl, rfl, fun _ _ _ _ _ => rfl⟩
  | cons rect rects ih =>
    rcases nextTile_cases payload hlen cursor hcursor rect rects
      (fun tile htile _ => (hok tile htile).1) with
      ⟨e, hfail⟩ | ⟨pixels, stop, hnext, hstop, hpix, hpix64, hreached⟩
    · rw [patchTiles, hfail]
      exact ⟨noFault_fail e, hs, rfl, rfl, fun _ _ _ _ _ => rfl⟩
    · have hon := (hok (rect, pixels) (by rw [hreached]; exact List.mem_cons_self ..)).2 hpix
      obtain ⟨hframe, hcount⟩ := blit_frame hs.valid hon hpix
      have hblit := blit_ok (by rw [hs.valid]; exact hs.lt64) hpix hpix64
        (OnCanvas.rowsFit hs.valid hon)
      have hsound : Sound ⟨canvas.width, canvas.height,
          rect.window.patch canvas.stride pixels canvas.data⟩ :=
        ⟨hcount.trans hs.valid, hs.lt64⟩
      obtain ⟨hno, hend, hsame⟩ := ih hstop hsound fun tile htile =>
        hok tile (by rw [hreached]; exact List.mem_cons_of_mem _ htile)
      rw [patchTiles, hnext]
      dsimp only
      rw [hblit]
      exact ⟨hno, hend, hframe.cons hsame⟩

theorem new_sound {width height : UInt32} {data : List UInt8}
    (h64 : 4 * width.toNat * height.toNat < 2 ^ 64) :
    NoFault (RgbaFrame.new width height data) ∧
      ∀ f, RgbaFrame.new width height data = .ok f → Sound f := by
  rw [RgbaFrame.new, byteLen_ok h64, ok_bind]
  split_ifs with hne
  · exact ⟨noFault_fail _, fun f hf => by cases hf⟩
  · refine ⟨noFault_ok _, fun f hf => ?_⟩
    cases hf
    exact ⟨not_not.mp hne, h64⟩

theorem fullFrame_sound {message : ScreenFrame}
    (h : HasPicture jpeg message → 4 * message.widthPx.toNat * message.heightPx.toNat < 2 ^ 64) :
    NoFault (fullFrame jpeg message) ∧ ∀ f, fullFrame jpeg message = .ok f → Sound f := by
  rw [fullFrame]
  rw [HasPicture] at h
  cases hcodec : message.codec with
  | rawRgba =>
    rw [hcodec] at h
    exact new_sound (h trivial)
  | h264 => exact ⟨noFault_fail _, fun f hf => by cases hf⟩
  | jpegTiles =>
    rw [hcodec] at h
    dsimp only at h ⊢
    have hdec := decodeJpeg_noFault h
    cases hpixels : decodeJpeg jpeg message.payload message.widthPx message.heightPx with
    | error stop =>
      rw [hpixels] at hdec
      refine ⟨fun f hf => ?_, fun f hf => by cases hf⟩
      rw [error_bind] at hf
      exact hdec f (congrArg _ (Except.error.inj hf))
    | ok pixels =>
      refine new_sound (h ?_)
      cases hjpeg : jpeg.decode message.payload with
      | error e => simp [decodeJpeg, hjpeg, lift, fail] at hpixels
      | ok p => exact ⟨p, rfl⟩

def TileDecoder.Sound (dec : TileDecoder) : Prop :=
  ∀ canvas, dec.canvas = some canvas → Codec.Sound canvas

theorem decode_step (hs : dec.Sound) (message : Received)
    (h : Harmless jpeg dec message.toScreenFrame) :
    Safe jpeg dec message.toScreenFrame ∧ (dec.decode jpeg message.toScreenFrame).1.Sound := by
  suffices hstep : NoFault (dec.decode jpeg message.toScreenFrame).2 ∧
      (dec.decode jpeg message.toScreenFrame).1.Sound ∧
      (message.encoding = .tileDelta → ∀ old new, dec.canvas = some old →
        (dec.decode jpeg message.toScreenFrame).2 = .ok new →
          SameOutside message.tiles old new) from
    ⟨⟨hstep.1, fun canvas hc => (hstep.2.1 canvas hc).valid, hstep.2.2⟩, hstep.2.1⟩
  rw [Harmless] at h
  rw [TileDecoder.decode, TileDecoder.accept]
  cases hencoding : message.encoding with
  | full =>
    rw [hencoding] at h
    obtain ⟨hno, hsound⟩ := fullFrame_sound h
    dsimp only
    cases hfull : fullFrame jpeg message.toScreenFrame with
    | error stop =>
      rw [hfull] at hno
      exact ⟨fun f hf => hno f (congrArg _ (Except.error.inj hf)), hs, fun he => by cases he⟩
    | ok f =>
      refine ⟨noFault_ok _, fun canvas hc => ?_, fun he => by cases he⟩
      cases hc
      exact hsound f hfull
  | tileDelta =>
    rw [hencoding] at h
    dsimp only at h ⊢
    rw [TileDecoder.applyDelta]
    cases hcanvas : dec.canvas with
    | none => exact ⟨noFault_fail _, hs, fun _ old _ ho => by cases ho⟩
    | some canvas =>
      dsimp only
      split_ifs with hsize
      · exact ⟨noFault_fail _, hs, fun _ _ _ _ hn => by cases hn⟩
      · obtain ⟨hw, hh⟩ := not_or.mp hsize
        obtain ⟨hno, hsound, hsame⟩ := patchTiles_safe jpeg message.payload_lt
          (Nat.zero_le _) (hs canvas hcanvas)
          (h canvas hcanvas (not_not.mp hw) (not_not.mp hh))
        cases hpatch : patchTiles jpeg message.payload canvas 0 message.tiles with
        | mk patched result =>
          rw [hpatch] at hno hsound hsame
          have hkeep : TileDecoder.Sound ⟨some patched⟩ := by
            intro c hc
            cases hc
            exact hsound
          cases result with
          | error stop =>
            exact ⟨fun f hf => hno f (congrArg _ (Except.error.inj hf)), hkeep,
              fun _ _ _ _ hn => by cases hn⟩
          | ok =>
            refine ⟨noFault_ok _, hkeep, fun _ old new ho hn => ?_⟩
            cases ho
            cases hn
            exact hsame

theorem after_sound (messages : List Received) (hs : dec.Sound)
    (h : ∀ pre message post, messages = pre ++ message :: post →
      Harmless jpeg (dec.after jpeg pre) message.toScreenFrame) :
    (dec.after jpeg messages).Sound := by
  induction messages using List.reverseRecOn with
  | nil => exact hs
  | append_singleton messages message ih =>
    have hinit := ih fun pre m post hsplit => h pre m (post ++ [message]) (by simp [hsplit])
    have hlast := h messages message [] rfl
    rw [TileDecoder.after, List.foldl_append]
    exact (decode_step hinit message hlast).2

/-- In every run whose messages are harmless where they arrive, every call is safe. -/
theorem harmless_messages_are_safe (jpeg : Jpeg) (messages : List Received)
    (h : ∀ pre message post, messages = pre ++ message :: post →
      Harmless jpeg (TileDecoder.new.after jpeg pre) message.toScreenFrame) :
    ∀ pre message post, messages = pre ++ message :: post →
      Safe jpeg (TileDecoder.new.after jpeg pre) message.toScreenFrame := by
  intro pre message post hsplit
  have hsound : (TileDecoder.new.after jpeg pre).Sound := by
    refine after_sound pre (fun canvas hc => by cases hc) fun pre' m post' hsplit' => ?_
    exact h pre' m (post' ++ message :: post) (by simp [hsplit, hsplit'])
  exact (decode_step hsound message (h pre message post hsplit)).1

def pixelJpeg : Jpeg where
  encode _ _ _ := .ok [0]
  decode _ := .ok [128, 128, 128, 255]

def rawFrame (width height : UInt32) (payload : List UInt8) : ScreenFrame :=
  ⟨0, 0, .rawRgba, .full, width, height, [], payload⟩

def tileMessage (width height : UInt32) (rect : TileRect) : ScreenFrame :=
  ⟨0, 1, .jpegTiles, .tileDelta, width, height, [rect], [1, 0, 0, 0, 0]⟩

def blackPixel : RgbaFrame := ⟨1, 1, [0, 0, 0, 255]⟩

def blackColumn : RgbaFrame := ⟨1, 2, [0, 0, 0, 255, 0, 0, 0, 255]⟩

/-- A picture whose size overflows, a tile past the end of the canvas, and a
tile beside the canvas that lands in the next row. -/
theorem hostile_messages_do_harm :
    ¬Safe pixelJpeg .new (rawFrame 0x80000000 0x80000000 []) ∧
      ¬Safe pixelJpeg ⟨some blackPixel⟩ (tileMessage 1 1 ⟨1, 0, 1, 1⟩) ∧
      ¬Safe pixelJpeg ⟨some blackColumn⟩ (tileMessage 1 2 ⟨1, 0, 1, 1⟩) ∧
      (TileDecoder.new.decode pixelJpeg (rawFrame 1 1 blackPixel.data)).1 = ⟨some blackPixel⟩ ∧
      (TileDecoder.new.decode pixelJpeg (rawFrame 1 2 blackColumn.data)).1 =
        ⟨some blackColumn⟩ := by
  refine ⟨fun h => ?_, fun h => ?_, fun h => ?_, rfl, rfl⟩
  · exact h.noFault .overflow rfl
  · exact h.noFault .outOfRange rfl
  · have hframe := h.frame rfl blackColumn ⟨1, 2, [0, 0, 0, 255, 128, 128, 128, 255]⟩ rfl rfl
    have hpixel := hframe.2.2 0 1 (by decide) (by decide) (by simp [tileMessage, TileRect.Covers])
    exact absurd hpixel (by decide)

theorem harmless_messages_are_safe_pixel :
    Safe pixelJpeg (TileDecoder.new.after pixelJpeg [⟨rawFrame 1 1 blackPixel.data, by decide⟩])
      (tileMessage 1 1 ⟨0, 0, 1, 1⟩) := by
  refine harmless_messages_are_safe pixelJpeg
    [⟨rawFrame 1 1 blackPixel.data, by decide⟩, ⟨tileMessage 1 1 ⟨0, 0, 1, 1⟩, by decide⟩]
    (fun pre message post hsplit => ?_) _ ⟨tileMessage 1 1 ⟨0, 0, 1, 1⟩, by decide⟩ [] rfl
  rcases pre with _ | ⟨first, _ | ⟨second, pre⟩⟩
  · cases hsplit
    exact fun _ => by decide
  · cases hsplit
    intro canvas hcanvas _ _ tile htile
    cases hcanvas
    have hreached : reached pixelJpeg [1, 0, 0, 0, 0] 0 [⟨0, 0, 1, 1⟩] =
        [(⟨0, 0, 1, 1⟩, [128, 128, 128, 255])] := rfl
    obtain rfl := List.mem_singleton.mp (hreached ▸ htile)
    exact ⟨by decide, fun _ => Or.inr (Or.inr ⟨by decide, by decide⟩)⟩
  · simp at hsplit

end Controlis.Codec
