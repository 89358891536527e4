/-
  Foundation/FloorScale.lean --- scaling by a floored fraction, and sums clamped at
  every step.

  A range of `d + 1` places is mapped to a range of `m + 1` places by `v * m / d`.  With
  `d` not above `m` no two places fall together, and the ends are mapped to the ends.
-/
import Mathlib.Order.Interval.Set.ProjIcc
import Mathlib.Order.Monotone.Basic
import Mathlib.Data.Int.Order.Basic

set_option autoImplicit false

namespace Esp32Deskflow.Foundation

/-! ## Scaling -/

/-- The place of `v` when `0, …, d` is mapped to `0, …, m`. -/
def floorScale (m d v : ℕ) : ℕ := v * m / d

section Scaling

variable {m d : ℕ}

@[simp] theorem floorScale_zero : floorScale m d 0 = 0 := by
  unfold floorScale
  rw [Nat.zero_mul, Nat.zero_div]

theorem floorScale_last (hd : 0 < d) : floorScale m d d = m := Nat.mul_div_cancel_left m hd

theorem floorScale_le {v : ℕ} (hv : v ≤ d) : floorScale m d v ≤ m :=
  Nat.div_le_of_le_mul (Nat.mul_le_mul_right m hv)

/-- One place further the quotient has grown by at least one. -/
theorem floorScale_lt_succ (hd : 0 < d) (hle : d ≤ m) (v : ℕ) :
    floorScale m d v < floorScale m d (v + 1) := by
  have hgrow : v * m + d ≤ (v + 1) * m := by
    rw [Nat.succ_mul]
    exact Nat.add_le_add_left hle _
  calc floorScale m d v < v * m / d + 1 := Nat.lt_succ_self _
    _ = (v * m + d) / d := (Nat.add_div_right _ hd).symm
    _ ≤ floorScale m d (v + 1) := Nat.div_le_div_right hgrow

theorem floorScale_strictMono (hd : 0 < d) (hle : d ≤ m) : StrictMono (floorScale m d) :=
  strictMono_nat_of_lt_succ (floorScale_lt_succ hd hle)

end Scaling

/-! ## Sums clamped at every step -/

section Clamping

variable {α : Type} [LinearOrder α] [Add α] {lo hi : α}

/-- One summand after the other is added, and each sum is brought back between the bounds. -/
def clampedSum (hle : lo ≤ hi) (start : Set.Icc lo hi) (summands : List α) : Set.Icc lo hi :=
  summands.foldl (fun sum a => Set.projIcc lo hi hle (sum + a)) start

@[simp] theorem clampedSum_nil (hle : lo ≤ hi) (start : Set.Icc lo hi) :
    clampedSum hle start [] = start := rfl

@[simp] theorem clampedSum_cons (hle : lo ≤ hi) (start : Set.Icc lo hi) (a : α)
    (summands : List α) :
    clampedSum hle start (a :: summands) =
      clampedSum hle (Set.projIcc lo hi hle (start + a)) summands := rfl

end Clamping

end Esp32Deskflow.Foundation
