/-
  Tusb/Keycodes.lean --- `keycodes.h` and `keycodes.c`: key identifiers of the
  Barrier protocol to HID usages.

  The lookup tables are the initializers of the source, row by row.  An index past
  the end of an initializer reads 0, as in C.
-/
import Mathlib.Data.List.Basic

set_option autoImplicit false

namespace Esp32Deskflow.Tusb

/-! ## Tables -/

/-- `TABLE_US`. -/
def tableUs : List UInt8 := [
  0x00, 0x00, 0x00, 0x00, 0x00, 0x00, 0x00, 0x00, 0x00, 0x00, 0x00, 0x00, 0x00, 0x00, 0x00, 0x00,
  0x00, 0x00, 0x00, 0x00, 0x00, 0x00, 0x00, 0x00, 0x00, 0x00, 0x00, 0x00, 0x00, 0x00, 0x00, 0x00,
  0x2C, 0x1E, 0x34, 0x20, 0x21, 0x22, 0x24, 0x34, 0x26, 0x27, 0x25, 0x2E, 0x36, 0x2D, 0x37, 0x38,
  0x27, 0x1E, 0x1F, 0x20, 0x21, 0x22, 0x23, 0x24, 0x25, 0x26, 0x33, 0x33, 0x36, 0x2E, 0x37, 0x38,
  0x1F, 0x04, 0x05, 0x06, 0x07, 0x08, 0x09, 0x0A, 0x0B, 0x0C, 0x0D, 0x0E, 0x0F, 0x10, 0x11, 0x12,
  0x13, 0x14, 0x15, 0x16, 0x17, 0x18, 0x19, 0x1A, 0x1B, 0x1C, 0x1D, 0x2F, 0x31, 0x30, 0x23, 0x2D,
  0x35, 0x04, 0x05, 0x06, 0x07, 0x08, 0x09, 0x0A, 0x0B, 0x0C, 0x0D, 0x0E, 0x0F, 0x10, 0x11, 0x12,
  0x13, 0x14, 0x15, 0x16, 0x17, 0x18, 0x19, 0x1A, 0x1B, 0x1C, 0x1D, 0x2F, 0x31, 0x30, 0x35, 0x00,
  0x00, 0x00, 0x00, 0x00, 0x00, 0x00, 0x00, 0x00, 0x00, 0x00, 0x00, 0x00, 0x00, 0x00, 0x00, 0x00,
  0x00, 0x00, 0x00, 0x00, 0x00, 0x00, 0x00, 0x00, 0x00, 0x00, 0x00, 0x00, 0x00, 0x00, 0x00, 0x00,
  0x00, 0x00, 0x00, 0x00, 0x00, 0x00, 0x00, 0x00, 0x00, 0x00, 0x00, 0x00, 0x00, 0x00, 0x00, 0x00,
  0x00, 0x00, 0x00, 0x00, 0x00, 0x00, 0x00, 0x00, 0x00, 0x00, 0x00, 0x00, 0x00, 0x00, 0x00, 0x00,
  0x00, 0x00, 0x00, 0x00, 0x00, 0x00, 0x00, 0x00, 0x00, 0x00, 0x00, 0x00, 0x00, 0x00, 0x00, 0x00,
  0x00, 0x00, 0x00, 0x00, 0x00, 0x00, 0x00, 0x00, 0x00, 0x00, 0x00, 0x00, 0x00, 0x00, 0x00, 0x00,
  0x00, 0x00, 0x00, 0x00, 0x00, 0x00, 0x00, 0x00, 0x00, 0x00, 0x00, 0x00, 0x00, 0x00, 0x00, 0x00,
  0x00, 0x00, 0x00, 0x00, 0x00, 0x00, 0x00, 0x00, 0x00, 0x00, 0x00, 0x00, 0x00, 0x00, 0x00, 0x00]

/-- `TABLE_DE`. -/
def tableDe : List UInt8 := [
  0x00, 0x00, 0x00, 0x00, 0x00, 0x00, 0x00, 0x00, 0x00, 0x00, 0x00, 0x00, 0x00, 0x00, 0x00, 0x00,
  0x00, 0x00, 0x00, 0x00, 0x00, 0x00, 0x00, 0x00, 0x00, 0x00, 0x00, 0x00, 0x00, 0x00, 0x00, 0x00,
  0x2C, 0x1E, 0x1F, 0x32, 0x21, 0x22, 0x23, 0x31, 0x25, 0x26, 0x30, 0x30, 0x36, 0x38, 0x37, 0x24,
  0x27, 0x1E, 0x1F, 0x20, 0x21, 0x22, 0x23, 0x24, 0x25, 0x26, 0x37, 0x36, 0x64, 0x27, 0x64, 0x2D,
  0x14, 0x04, 0x05, 0x06, 0x07, 0x08, 0x09, 0x0A, 0x0B, 0x0C, 0x0D, 0x0E, 0x0F, 0x10, 0x11, 0x12,
  0x13, 0x14, 0x15, 0x16, 0x17, 0x18, 0x19, 0x1A, 0x1B, 0x1D, 0x1C, 0x25, 0x2D, 0x26, 0x33, 0x38,
  0x00, 0x04, 0x05, 0x06, 0x07, 0x08, 0x09, 0x0A, 0x0B, 0x0C, 0x0D, 0x0E, 0x0F, 0x10, 0x11, 0x12,
  0x13, 0x14, 0x15, 0x16, 0x17, 0x18, 0x19, 0x1A, 0x1B, 0x1D, 0x1C, 0x24, 0x64, 0x27, 0x30, 0x00,
  0x00, 0x00, 0x00, 0x00, 0x00, 0x00, 0x00, 0x00, 0x00, 0x00, 0x00, 0x00, 0x00, 0x00, 0x00, 0x00,
  0x00, 0x00, 0x00, 0x00, 0x00, 0x00, 0x00, 0x00, 0x00, 0x00, 0x00, 0x00, 0x00, 0x00, 0x00, 0x00,
  0x00, 0x00, 0x00, 0x00, 0x00, 0x00, 0x00, 0x20, 0x00, 0x00, 0x00, 0x00, 0x00, 0x00, 0x00, 0x00,
  0x35, 0x00, 0x00, 0x00, 0x00, 0x00, 0x00, 0x00, 0x00, 0x00, 0x00, 0x00, 0x00, 0x00, 0x00, 0x00,
  0x00, 0x00, 0x00, 0x00, 0x34, 0x00, 0x00, 0x00, 0x00, 0x00, 0x00, 0x00, 0x00, 0x00, 0x00, 0x00,
  0x00, 0x00, 0x00, 0x00, 0x00, 0x00, 0x33, 0x00, 0x00, 0x00, 0x00, 0x00, 0x2F, 0x00, 0x00, 0x2D,
  0x00, 0x00, 0x00, 0x00, 0x34, 0x00, 0x00, 0x00, 0x00, 0x00, 0x00, 0x00, 0x00, 0x00, 0x00, 0x00,
  0x00, 0x00, 0x00, 0x00, 0x00, 0x00, 0x33, 0x00, 0x00, 0x00, 0x00, 0x00, 0x2F, 0x00, 0x00, 0x00]

/-- `EXT_TAB`.  The initializer has 248 entries; C fills the array up to 256 with zeros. -/
def extTab : List UInt8 := [
  0x00, 0x00, 0x00, 0x00, 0x00, 0x00, 0x00, 0x00, 0x2A, 0x2B, 0x00, 0x9C, 0x00, 0x28, 0x00, 0x00,
  0x00, 0x00, 0x00, 0x48, 0x47, 0x9A, 0x00, 0x00, 0x00, 0x00, 0x00, 0x29, 0x00, 0x00, 0x00, 0x00,
  0x00, 0x00, 0x00, 0x00, 0x00, 0x00, 0x00, 0x00, 0x00, 0x00, 0x00, 0x00, 0x00, 0x00, 0x00, 0x00,
  0x00, 0x00, 0x00, 0x00, 0x00, 0x00, 0x00, 0x00, 0x00, 0x00, 0x00, 0x00, 0x00, 0x00, 0x00, 0x00,
  0x00, 0x00, 0x00, 0x00, 0x00, 0x00, 0x00, 0x00, 0x00, 0x00, 0x00, 0x00, 0x00, 0x00, 0x00, 0x00,
  0x4A, 0x50, 0x52, 0x4F, 0x51, 0x4B, 0x4E, 0x4D, 0x00, 0x00, 0x00, 0x00, 0x00, 0x00, 0x00, 0x00,
  0x77, 0x46, 0x74, 0x49, 0x00, 0x7A, 0x00, 0x76, 0x7E, 0x9B, 0x75, 0x00, 0x00, 0x00, 0x00, 0x00,
  0x00, 0x00, 0x00, 0x00, 0x00, 0x00, 0x00, 0x00, 0x00, 0x00, 0x00, 0x00, 0x00, 0x00, 0x00, 0x53,
  0x00, 0x00, 0x00, 0x00, 0x00, 0x00, 0x00, 0x00, 0x00, 0x00, 0x00, 0x00, 0x00, 0x58, 0x00, 0x00,
  0x00, 0x00, 0x00, 0x00, 0x00, 0x5F, 0x5C, 0x60, 0x5E, 0x5A, 0x61, 0x5B, 0x59, 0x5D, 0x62, 0x63,
  0x00, 0x00, 0x55, 0x57, 0x00, 0x56, 0x63, 0x54,
  0x62, 0x59, 0x55, 0x57, 0x5C, 0x56, 0x5E, 0x54, 0x60, 0x61, 0x00, 0x00, 0x00, 0x67, 0x3A, 0x3B,
  0x3C, 0x3D, 0x3E, 0x3F, 0x40, 0x41, 0x42, 0x43, 0x44, 0x45, 0x68, 0x69, 0x6A, 0x6B, 0x6C, 0x6D,
  0x6E, 0x6F, 0x70, 0x71, 0x72, 0x73, 0x00, 0x00, 0x00, 0x00, 0x00, 0x00, 0x00, 0x00, 0x00, 0x00,
  0x00, 0xE1, 0xE5, 0xE0, 0xE4, 0x39, 0x00, 0xE2, 0xE6, 0xE1, 0xE5, 0xE0, 0xE7, 0x39, 0x00, 0x00,
  0x00, 0x00, 0x00, 0x00, 0x00, 0x00, 0x00, 0x00, 0x00, 0x00, 0x00, 0x00, 0x00, 0x00, 0x00, 0x4C]

/-- `HIGH_CHARS`: a sparse lookup for Unicode characters above 0xFF. -/
def highChars : List (UInt16 × UInt8) := [
  (0x20AC, 0x08),
  (0x0302, 0x35),
  (0x0301, 0x2E),
  (0x0300, 0x2E)]

/-! ## Layouts -/

/-- `keyboard_layout_t`, without the count. -/
inductive KeyboardLayout where
  | us
  | de
  deriving DecidableEq, Repr, Inhabited

/-- The table of a layout, which `s_table` points to. -/
def KeyboardLayout.table : KeyboardLayout → List UInt8
  | .us => tableUs
  | .de => tableDe

/-- `keycodes_set_layout`: the layout in force afterwards.  A number that names no
layout changes nothing. -/
def keycodesSetLayout (current : KeyboardLayout) (layout : UInt8) : KeyboardLayout :=
  if layout ≥ 2 then current
  else if layout = 0 then .us
  else .de

/-! ## Lookups -/

/-- `HID_KEY_NONE`. -/
def hidKeyNone : UInt8 := 0x00

/-- `HID_KEY_TAB`. -/
def hidKeyTab : UInt8 := 0x2B

/-- `BARRIER_KEY_LEFT_TAB`. -/
def barrierKeyLeftTab : UInt16 := 0xEE20

/-- `BARRIER_EXT_BASE`. -/
def barrierExtBase : UInt16 := 0xEF00

/-- `barrier_key_to_hid`: the HID usage of a key. -/
def barrierKeyToHid (layout : KeyboardLayout) (barrierKey : UInt16) : UInt8 :=
  if barrierKey = barrierKeyLeftTab then hidKeyTab
  else if barrierKey < 0x100 then layout.table.getD barrierKey.toNat 0
  else if barrierKey ≥ barrierExtBase ∧ barrierKey ≤ barrierExtBase + 255 then
    extTab.getD (barrierKey - barrierExtBase).toNat 0
  else
    match highChars.find? fun entry => entry.1 == barrierKey with
    | some entry => entry.2
    | none => hidKeyNone

/-- `mask_to_tusb_modifier`: the modifier byte of a mask of logical modifiers.
Meta and AltGr share the right Alt bit. -/
def maskToTusbModifier (dfMask : UInt16) : UInt8 :=
  (if dfMask &&& 0x0001 ≠ 0 then 0x02 else 0) |||
  (if dfMask &&& 0x0002 ≠ 0 then 0x01 else 0) |||
  (if dfMask &&& 0x0004 ≠ 0 then 0x04 else 0) |||
  (if dfMask &&& 0x0008 ≠ 0 then 0x40 else 0) |||
  (if dfMask &&& 0x0010 ≠ 0 then 0x08 else 0) |||
  (if dfMask &&& 0x0020 ≠ 0 then 0x40 else 0)

/-- Key 0 has no usage on any layout. -/
theorem barrierKeyToHid_zero (layout : KeyboardLayout) : barrierKeyToHid layout 0 = 0 := by
  cases layout <;> rfl

end Esp32Deskflow.Tusb
