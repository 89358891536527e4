/-
  Tusb/Scaling.lean --- from the places of the screen to the values of a report.

  With a size of 2 to 32768 there are at least as many report values as places, so each
  place has its own value.  Relative moves are sums clamped at every step.
-/
import Esp32Deskflow.Tusb.ReportBounds
import Mathlib.Data.Int.ConditionallyCompleteOrder
import Mathlib.Order.ConditionallyCompleteLattice.Finset
import Mathlib.Order.Interval.Set.ProjIcc

set_option autoImplicit false

namespace Esp32Deskflow.Tusb

open Esp32Deskflow.Foundation

/-! ## Scaling -/

/-- What the scaling of a coordinate is relied on for. -/
structure ScalesExactly (size : UInt16) : Prop where
  first : toHid size 0 = 0
  last : toHid size (size - 1) = 32767
  strictMono : ∀ v w, v < w → w < size → toHid size v < toHid size w
  /-- the 32-bit product is the product -/
  product : ∀ v < size, (v.toUInt32 * 32767).toNat = v.toNat * 32767

/-- The last place of a screen with more than one place. -/
theorem lastPlace_toNat {size : UInt16} (hsize : 2 ≤ size) :
    (size - 1).toNat = size.toNat - 1 := by
  have htwo : 2 ≤ size.toNat := UInt16.le_iff_toNat_le.mp hsize
  have hlt := size.toNat_lt
  have hone : (1 : UInt16).toNat = 1 := rfl
  rw [UInt16.toNat_sub, hone]
  omega

theorem lastPlace_ne_zero {size : UInt16} (hsize : 2 ≤ size) : size - 1 ≠ 0 := by
  have htwo : 2 ≤ size.toNat := UInt16.le_iff_toNat_le.mp hsize
  have hlast := lastPlace_toNat hsize
  intro hzero
  rw [hzero] at hlast
  have hnone : (0 : UInt16).toNat = 0 := rfl
  omega

theorem le_lastPlace_iff {size v : UInt16} (hsize : 2 ≤ size) : v ≤ size - 1 ↔ v < size := by
  have htwo : 2 ≤ size.toNat := UInt16.le_iff_toNat_le.mp hsize
  rw [UInt16.le_iff_toNat_le, UInt16.lt_iff_toNat_lt, lastPlace_toNat hsize]
  omega

theorem toHid_lt {size v w : UInt16} (hsize : 2 ≤ size) (hmax : size ≤ 32768) (hlt : v < w)
    (hw : w < size) : toHid size v < toHid size w := by
  have hle : (size - 1).toNat ≤ 32767 := by
    have hmax' : size.toNat ≤ 32768 := UInt16.le_iff_toNat_le.mp hmax
    rw [lastPlace_toNat hsize]
    omega
  have hpos : 0 < (size - 1).toNat := by
    have htwo : 2 ≤ size.toNat := UInt16.le_iff_toNat_le.mp hsize
    rw [lastPlace_toNat hsize]
    omega
  have hne := lastPlace_ne_zero hsize
  have hv : v < size := UInt16.lt_trans hlt hw
  rw [UInt16.lt_iff_toNat_lt, toHid_toNat hne ((le_lastPlace_iff hsize).mpr hv),
    toHid_toNat hne ((le_lastPlace_iff hsize).mpr hw)]
  exact floorScale_strictMono hpos hle (UInt16.lt_iff_toNat_lt.mp hlt)

theorem scalesExactly {size : UInt16} (hsize : 2 ≤ size) (hmax : size ≤ 32768) :
    ScalesExactly size where
  first := by
    have hfirst : (toHid size 0).toNat = 0 := by
      rw [toHid_toNat (lastPlace_ne_zero hsize) (UInt16.zero_le)]
      exact floorScale_zero
    exact UInt16.toNat_inj.mp hfirst
  last := by
    have htwo : 2 ≤ size.toNat := UInt16.le_iff_toNat_le.mp hsize
    have hpos : 0 < (size - 1).toNat := by
      rw [lastPlace_toNat hsize]
      omega
    have hlast : (toHid size (size - 1)).toNat = 32767 := by
      rw [toHid_toNat (lastPlace_ne_zero hsize) (UInt16.le_refl _)]
      exact floorScale_last hpos
    exact UInt16.toNat_inj.mp hlast
  strictMono := fun _ _ hlt hw => toHid_lt hsize hmax hlt hw
  product := fun v _ => scaleProduct_toNat v

/-! ## Relative moves -/

/-- The places of a screen of this size. -/
abbrev Places (size : UInt16) : Type := Set.Icc (0 : ℤ) (size - 1).toNat

theorem places_nonempty (size : UInt16) : (0 : ℤ) ≤ (size - 1).toNat := Int.natCast_nonneg _

/-- `clamp_u16` brings a value back between 0 and `max`. -/
theorem clampU16_toNat (v : ℤ) (max : UInt16) :
    ((clampU16 v max).toNat : ℤ) =
      Set.projIcc (0 : ℤ) max.toNat (Int.natCast_nonneg _) v := by
  have hlt := max.toNat_lt
  rw [Set.coe_projIcc]
  unfold clampU16
  split
  · next hneg =>
      have hzero : ((0 : UInt16).toNat : ℤ) = 0 := rfl
      omega
  · next hneg =>
      split
      · omega
      · next hle =>
          have hvalue : ((UInt16.ofInt v).toNat : ℤ) = v := by
            have hmod : (UInt16.ofInt v).toNat = (v % 2 ^ 16).toNat % 2 ^ 16 := rfl
            omega
          omega

/-- The screen has this size, and the target is this place on it. -/
structure TusbActuator.TargetAt (act : TusbActuator) {width height : UInt16} (x : Places width)
    (y : Places height) : Prop where
  width : act.screenWidth = width
  height : act.screenHeight = height
  targetX : (act.targetX.toNat : ℤ) = x
  targetY : (act.targetY.toNat : ℤ) = y

/-- A sequence of `actuator_move_relative` calls. -/
def TusbActuator.moveAll (act : TusbActuator) (moves : List (Int16 × Int16)) : TusbActuator :=
  moves.foldl (fun act move => actuatorMoveRelative act move.1 move.2) act

section Moves

variable {width height : UInt16} {x : Places width} {y : Places height}

theorem TusbActuator.TargetAt.notified {act : TusbActuator} (h : act.TargetAt x y) :
    act.notifyMovement.TargetAt x y := by
  obtain ⟨hwidth, hheight, hx, hy⟩ := h
  unfold TusbActuator.notifyMovement
  split
  · exact ⟨hwidth, hheight, hx, hy⟩
  · exact ⟨hwidth, hheight, hx, hy⟩

theorem TusbActuator.TargetAt.moveRelative {act : TusbActuator} (h : act.TargetAt x y)
    (dx dy : Int16) : (actuatorMoveRelative act dx dy).TargetAt
      (Set.projIcc _ _ (places_nonempty width) (x + dx.toInt))
      (Set.projIcc _ _ (places_nonempty height) (y + dy.toInt)) := by
  obtain ⟨rfl, rfl, hx, hy⟩ := h
  have hmoved : TusbActuator.TargetAt { act with
      targetX := clampU16 (act.targetX.toNat + dx.toInt) (act.screenWidth - 1)
      targetY := clampU16 (act.targetY.toNat + dy.toInt) (act.screenHeight - 1) }
      (Set.projIcc _ _ (places_nonempty act.screenWidth) (x + dx.toInt))
      (Set.projIcc _ _ (places_nonempty act.screenHeight) (y + dy.toInt)) := by
    rw [← hx, ← hy]
    exact ⟨rfl, rfl, clampU16_toNat _ _, clampU16_toNat _ _⟩
  exact hmoved.notified

/-- The target after any relative moves is the sum clamped at every step. -/
theorem TusbActuator.TargetAt.moveAll {act : TusbActuator} (h : act.TargetAt x y)
    (moves : List (Int16 × Int16)) : (act.moveAll moves).TargetAt
      (clampedSum (places_nonempty width) x (moves.map fun move => move.1.toInt))
      (clampedSum (places_nonempty height) y (moves.map fun move => move.2.toInt)) := by
  induction moves generalizing act x y with
  | nil =>
      rw [List.map_nil, List.map_nil, clampedSum_nil, clampedSum_nil]
      exact h
  | cons move moves ih =>
      rw [List.map_cons, List.map_cons, clampedSum_cons, clampedSum_cons]
      exact ih (h.moveRelative move.1 move.2)

/-- The displaced target of a jiggle is another place of the screen. -/
theorem jiggleX_onScreen {act : TusbActuator} (hwidth : 2 ≤ act.screenWidth)
    (hx : act.targetX < act.screenWidth) :
    jiggleX act < act.screenWidth ∧ jiggleX act ≠ act.targetX := by
  have htwo : 2 ≤ act.screenWidth.toNat := UInt16.le_iff_toNat_le.mp hwidth
  have hlt : act.targetX.toNat < act.screenWidth.toNat := UInt16.lt_iff_toNat_lt.mp hx
  have hone : (1 : UInt16).toNat = 1 := rfl
  have hw := act.screenWidth.toNat_lt
  rw [UInt16.lt_iff_toNat_lt, ne_eq, ← UInt16.toNat_inj]
  unfold jiggleX
  split
  · rw [UInt16.toNat_add, hone]
    omega
  · rw [UInt16.toNat_sub, hone]
    omega

end Moves

/-- Another place has another report value. -/
theorem ScalesExactly.ne {size v w : UInt16} (h : ScalesExactly size) (hv : v < size)
    (hw : w < size) (hne : v ≠ w) : toHid size v ≠ toHid size w := by
  have hne' : v.toNat ≠ w.toNat := fun heq => hne (UInt16.toNat_inj.mp heq)
  rcases Nat.lt_or_gt_of_ne hne' with hlt | hgt
  · exact UInt16.ne_of_lt (h.strictMono v w (UInt16.lt_iff_toNat_lt.mpr hlt) hw)
  · exact (UInt16.ne_of_lt (h.strictMono w v (UInt16.lt_iff_toNat_lt.mpr hgt) hv)).symm

/-- On a screen of 2 to 32768 places a side: both scalings are exact at the ends and lose no place;
relative moves, from every place of the screen and however many, lead to the sum clamped at every
step; and a jiggle from every place reports another X value. -/
theorem scaling_exact {width height : UInt16} (hwidth : 2 ≤ width) (hwidthMax : width ≤ 32768)
    (hheight : 2 ≤ height) (hheightMax : height ≤ 32768) :
    ScalesExactly width ∧ ScalesExactly height ∧
    (∀ (act : TusbActuator) (x : Places width) (y : Places height) (moves : List (Int16 × Int16)),
      act.TargetAt x y → (act.moveAll moves).TargetAt
        (clampedSum (places_nonempty width) x (moves.map fun move => move.1.toInt))
        (clampedSum (places_nonempty height) y (moves.map fun move => move.2.toInt))) ∧
    (∀ (act : TusbActuator) (x : Places width) (y : Places height), act.TargetAt x y →
      toHid width (jiggleX act) ≠ toHid width act.targetX) := by
  have hscales := scalesExactly hwidth hwidthMax
  refine ⟨hscales, scalesExactly hheight hheightMax, fun act x y moves h => h.moveAll moves, ?_⟩
  rintro act x y ⟨rfl, -, hx, -⟩
  have hon : act.targetX < act.screenWidth := by
    apply (le_lastPlace_iff hwidth).mp
    rw [UInt16.le_iff_toNat_le]
    exact Int.ofNat_le.mp (hx.trans_le x.2.2)
  obtain ⟨haway, hne⟩ := jiggleX_onScreen hwidth hon
  exact hscales.ne haway hon hne

/-- A move out at the right and the top of a screen of 1920 by 1080 places, and back. -/
theorem scaling_exact_fullHd :
    ScalesExactly 1920 ∧ ∃ (x : Places 1920) (y : Places 1080), (x : ℤ) = 1900 ∧ (y : ℤ) = 7 ∧
      ((tusbActuatorInit 1920 1080).moveAll [(30000, -5), (-19, 7)]).TargetAt x y := by
  obtain ⟨hscales, -, hmoves, -⟩ := scaling_exact (by decide : 2 ≤ (1920 : UInt16)) (by decide)
    (by decide : 2 ≤ (1080 : UInt16)) (by decide)
  have hstart : (tusbActuatorInit 1920 1080).TargetAt (⟨0, by decide⟩ : Places 1920)
      (⟨0, by decide⟩ : Places 1080) := ⟨rfl, rfl, rfl, rfl⟩
  refine ⟨hscales, _, _, ?_, ?_, hmoves _ _ _ [(30000, -5), (-19, 7)] hstart⟩
  · decide
  · decide

end Esp32Deskflow.Tusb
