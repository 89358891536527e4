/-
  Foundation/BitFields.lean --- fields of any widths packed into one number.

  The first field takes the lowest bits.  Fields next to each other may be taken as one,
  so that what was written by bytes can be read by fields of other widths.
-/
import Esp32Deskflow.Foundation.Bytes
import Mathlib.Algebra.Group.Int.Defs
import Mathlib.Algebra.Group.Nat.Defs
import Mathlib.Tactic.Ring

set_option autoImplicit false

namespace Esp32Deskflow.Foundation

/-- The number made of fields, given as width and value. -/
def pack : List (Nat × Nat) → Nat
  | [] => 0
  | (width, value) :: rest => value + 2 ^ width * pack rest

/-- The values of the fields of these widths. -/
def unpack : List Nat → Nat → List Nat
  | [], _ => []
  | width :: rest, n => n % 2 ^ width :: unpack rest (n / 2 ^ width)

/-- Fields that fit their widths are read back. -/
theorem unpack_pack {fields : List (Nat × Nat)} (hfit : ∀ f ∈ fields, f.2 < 2 ^ f.1) :
    unpack (fields.map Prod.fst) (pack fields) = fields.map Prod.snd := by
  induction fields with
  | nil => rfl
  | cons field rest ih =>
      obtain ⟨width, value⟩ := field
      obtain ⟨hvalue, hrest⟩ := List.forall_mem_cons.mp hfit
      have hlow : (value + 2 ^ width * pack rest) % 2 ^ width = value := by
        rw [Nat.add_mul_mod_self_left, Nat.mod_eq_of_lt hvalue]
      have hhigh : (value + 2 ^ width * pack rest) / 2 ^ width = pack rest := by
        rw [Nat.add_mul_div_left _ _ (Nat.two_pow_pos width), Nat.div_eq_of_lt hvalue,
          Nat.zero_add]
      simp only [List.map_cons, pack, unpack, hlow, hhigh, ih hrest]

/-- Two fields next to each other are one field. -/
theorem pack_join (w₁ w₂ v₁ v₂ : Nat) (rest : List (Nat × Nat)) :
    pack ((w₁, v₁) :: (w₂, v₂) :: rest) = pack ((w₁ + w₂, v₁ + 2 ^ w₁ * v₂) :: rest) := by
  simp only [pack, Nat.pow_add]
  ring

/-- The other way round, a field is two fields next to each other. -/
theorem pack_split (w₁ w₂ v : Nat) (rest : List (Nat × Nat)) :
    pack ((w₁ + w₂, v) :: rest) = pack ((w₁, v % 2 ^ w₁) :: (w₂, v / 2 ^ w₁) :: rest) := by
  rw [pack_join, Nat.mod_add_div]

theorem pack_congr {field : Nat × Nat} {rest rest' : List (Nat × Nat)}
    (h : pack rest = pack rest') : pack (field :: rest) = pack (field :: rest') := by
  simp only [pack, h]

/-- The number whose bytes these are, the lowest one first. -/
def ofLittleEndian (bytes : Bytes) : Nat := pack (bytes.map fun b => (8, b.toNat))

/-- A number of this width as a two's complement. -/
def signExtend (width n : Nat) : Int := if 2 * n < 2 ^ width then n else n - 2 ^ width

theorem signExtend_eq_toInt (v : Int8) : signExtend 8 v.toUInt8.toNat = v.toInt := by
  rw [← Int8.toInt_toBitVec, BitVec.toInt_eq_toNat_cond]
  rfl

end Esp32Deskflow.Foundation
