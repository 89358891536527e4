/-
  Foundation/EventGroup.lean --- a word of event bits, set, cleared and tested by masks.

  A mask only touches its own bits: a test with a mask that has no bit in common with
  the one written gives what it gave before.
-/
import Mathlib.Tactic.ByContra

set_option autoImplicit false

namespace Esp32Deskflow.Foundation.EventGroup

variable {w : Nat}

/-- Set the bits of the mask. -/
def setBits (bits mask : BitVec w) : BitVec w := bits ||| mask

/-- Clear the bits of the mask. -/
def clearBits (bits mask : BitVec w) : BitVec w := bits &&& ~~~mask

/-- Some bit of the mask is set. -/
def AnySet (bits mask : BitVec w) : Prop := bits &&& mask ≠ 0

instance (bits mask : BitVec w) : Decidable (AnySet bits mask) :=
  inferInstanceAs (Decidable (_ ≠ _))

theorem anySet_iff {bits mask : BitVec w} :
    AnySet bits mask ↔ ∃ i, bits.getLsbD i = true ∧ mask.getLsbD i = true := by
  unfold AnySet
  constructor
  · intro h
    by_contra hnone
    apply h
    apply BitVec.eq_of_getLsbD_eq
    intro i _
    rw [BitVec.getLsbD_and, BitVec.ofNat_eq_ofNat, BitVec.getLsbD_zero]
    by_contra hi
    exact hnone ⟨i, by simpa using hi⟩
  · rintro ⟨i, hbits, hmask⟩ hzero
    have hi := congrArg (fun v => v.getLsbD i) hzero
    simp [hbits, hmask] at hi

theorem not_anySet_zero (mask : BitVec w) : ¬ AnySet 0 mask := by
  intro h
  obtain ⟨i, hi, _⟩ := anySet_iff.mp h
  simp at hi

theorem anySet_setBits {bits mask other : BitVec w} :
    AnySet (setBits bits mask) other ↔ AnySet bits other ∨ AnySet mask other := by
  simp only [anySet_iff, setBits, BitVec.getLsbD_or, Bool.or_eq_true, or_and_right, exists_or]

theorem anySet_setBits_of_disjoint {bits mask other : BitVec w} (h : ¬ AnySet mask other) :
    AnySet (setBits bits mask) other ↔ AnySet bits other := by
  rw [anySet_setBits, or_iff_left h]

theorem anySet_clearBits_of_disjoint {bits mask other : BitVec w} (h : ¬ AnySet mask other) :
    AnySet (clearBits bits mask) other ↔ AnySet bits other := by
  rw [anySet_iff, anySet_iff]
  refine exists_congr fun i => and_congr_left fun hother => ?_
  have hmask : mask.getLsbD i = false := by
    by_contra hi
    exact h (anySet_iff.mpr ⟨i, by simpa using hi, hother⟩)
  rw [clearBits, BitVec.getLsbD_and, Bool.and_eq_true, and_iff_left_iff_imp]
  intro hbits
  rw [BitVec.getLsbD_not, hmask]
  simpa using BitVec.lt_of_getLsbD hbits

theorem anySet_of_clearBits {bits mask other : BitVec w} (h : AnySet (clearBits bits mask) other) :
    AnySet bits other := by
  obtain ⟨i, hbits, hother⟩ := anySet_iff.mp h
  rw [clearBits, BitVec.getLsbD_and, Bool.and_eq_true] at hbits
  exact anySet_iff.mpr ⟨i, hbits.1, hother⟩

theorem not_anySet_clearBits (bits mask : BitVec w) : ¬ AnySet (clearBits bits mask) mask := by
  intro h
  obtain ⟨i, hbits, hmask⟩ := anySet_iff.mp h
  simp [clearBits, hmask] at hbits

end Esp32Deskflow.Foundation.EventGroup
