import Controlis.Foundation.Binary32
import Controlis.Protocol.Message

/-!
# Wire coordinates to pixels

A normalized coordinate selects a pixel of a monitor. The sum with the origin
wraps as in a release build; for a monitor that fits in the desktop it does not
leave the monitor's rectangle.
-/

namespace Controlis.Input
open Protocol Binary32

def axis (norm : F32) (size : UInt32) : Int32 :=
  if size = 0 then 0
  else
    let clamped := if isNan norm.bits then ⟨0, 0⟩ else clampUnit norm.bits
    let last := size - 1
    let scaled := round (mul clamped (ofNat last.toNat))
    Int32.ofInt (min scaled last.toNat : ℕ)

def normalizedToPixel (xNorm yNorm : F32) (originX originY : Int32) (width height : UInt32) :
    Int32 × Int32 :=
  (originX + axis xNorm width, originY + axis yNorm height)

/-- Of size at least one, with every pixel at `i32` coordinates. -/
structure FitsDesktop (m : MonitorInfo) : Prop where
  width_pos : 0 < m.widthPx.toNat
  height_pos : 0 < m.heightPx.toNat
  right : m.originX.toInt + m.widthPx.toNat ≤ 2 ^ 31
  bottom : m.originY.toInt + m.heightPx.toNat ≤ 2 ^ 31

def Inside (m : MonitorInfo) (p : Int32 × Int32) : Prop :=
  (m.originX.toInt ≤ p.1.toInt ∧ p.1.toInt < m.originX.toInt + m.widthPx.toNat) ∧
    m.originY.toInt ≤ p.2.toInt ∧ p.2.toInt < m.originY.toInt + m.heightPx.toNat

example : axis ⟨0x3F800000⟩ 1920 = 1919 ∧ axis ⟨0x3F000000⟩ 1920 = 960 ∧
    axis ⟨0x7FC00000⟩ 1920 = 0 ∧ axis ⟨0xBF800000⟩ 1920 = 0 := by decide

theorem axis_inside (norm : F32) {size : UInt32} (hsize : 0 < size.toNat) (origin : Int32)
    (hfit : origin.toInt + size.toNat ≤ 2 ^ 31) :
    origin.toInt ≤ (origin + axis norm size).toInt ∧
      (origin + axis norm size).toInt < origin.toInt + size.toNat := by
  have hne : size ≠ 0 := by
    rintro rfl
    simp at hsize
  have hlast : (size - 1).toNat = size.toNat - 1 := by
    have hone : (1 : UInt32) ≤ size := UInt32.le_iff_toNat_le.mpr (Nat.succ_le_of_lt hsize)
    rw [UInt32.toNat_sub_of_le _ _ hone]
    rfl
  have hlo := origin.le_toInt
  simp only [axis, if_neg hne, hlast]
  generalize hpixel : min (round _) (size.toNat - 1) = pixel
  have hle : pixel ≤ size.toNat - 1 := hpixel ▸ Nat.min_le_right _ _
  have hsum : (origin + Int32.ofInt pixel).toInt = origin.toInt + pixel := by
    rw [Int32.toInt_add, Int32.toInt_ofInt, Int32.size, Int.add_bmod_bmod]
    exact Int.bmod_eq_of_le (by omega) (by omega)
  rw [hsum]
  omega

theorem normalizedToPixel_inside {m : MonitorInfo} (h : FitsDesktop m) (xNorm yNorm : F32) :
    Inside m (normalizedToPixel xNorm yNorm m.originX m.originY m.widthPx m.heightPx) :=
  ⟨axis_inside xNorm h.width_pos m.originX h.right,
    axis_inside yNorm h.height_pos m.originY h.bottom⟩

end Controlis.Input
