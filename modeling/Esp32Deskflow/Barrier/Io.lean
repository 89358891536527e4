/-
  Barrier/Io.lean --- `barrier_io.c`, the big-endian accessors of the codec.

  A pointer argument `&buf[off]` is the pair of the buffer and the offset.  A
  read returns `none` when one of its bytes lies outside of the buffer, and so
  does a write.
-/
import Esp32Deskflow.Foundation.Bytes

set_option autoImplicit false

namespace Esp32Deskflow.Barrier

open Esp32Deskflow.Foundation

/-! ## The accessors -/

/-- `io_read_u32_be`. -/
def ioReadU32Be (buf : Bytes) (off : Nat) : Option UInt32 := do
  let b₀ ← load buf off
  let b₁ ← load buf (off + 1)
  let b₂ ← load buf (off + 2)
  let b₃ ← load buf (off + 3)
  return u32OfBytes b₀ b₁ b₂ b₃

/-- `io_read_u16_be`. -/
def ioReadU16Be (buf : Bytes) (off : Nat) : Option UInt16 := do
  let b₀ ← load buf off
  let b₁ ← load buf (off + 1)
  return u16OfBytes b₀ b₁

/-- `io_read_i16_be`. -/
def ioReadI16Be (buf : Bytes) (off : Nat) : Option Int16 := do
  let v ← ioReadU16Be buf off
  return v.toInt16

/-- `io_read_i8`. -/
def ioReadI8 (buf : Bytes) (off : Nat) : Option Int8 := do
  let b ← load buf off
  return b.toInt8

/-- `io_write_u32_be`. -/
def ioWriteU32Be (buf : Bytes) (off : Nat) (val : UInt32) : Option Bytes := do
  let buf ← store buf off ((val >>> 24) &&& 0xFF).toUInt8
  let buf ← store buf (off + 1) ((val >>> 16) &&& 0xFF).toUInt8
  let buf ← store buf (off + 2) ((val >>> 8) &&& 0xFF).toUInt8
  store buf (off + 3) (val &&& 0xFF).toUInt8

/-- `io_write_u16_be`. -/
def ioWriteU16Be (buf : Bytes) (off : Nat) (val : UInt16) : Option Bytes := do
  let buf ← store buf off ((val >>> 8) &&& 0xFF).toUInt8
  store buf (off + 1) (val &&& 0xFF).toUInt8

/-- `io_write_i16_be`. -/
def ioWriteI16Be (buf : Bytes) (off : Nat) (val : Int16) : Option Bytes :=
  ioWriteU16Be buf off val.toUInt16

/-! ## Writes are block stores -/

theorem ioWriteU16Be_eq (buf : Bytes) (off : Nat) (val : UInt16) :
    ioWriteU16Be buf off val = storeAll buf off (u16Bytes val) := by
  simp [ioWriteU16Be, u16Bytes, storeAll]

theorem ioWriteI16Be_eq (buf : Bytes) (off : Nat) (val : Int16) :
    ioWriteI16Be buf off val = storeAll buf off (u16Bytes val.toUInt16) :=
  ioWriteU16Be_eq buf off val.toUInt16

theorem ioWriteU32Be_eq (buf : Bytes) (off : Nat) (val : UInt32) :
    ioWriteU32Be buf off val = storeAll buf off (u32Bytes val) := by
  simp [ioWriteU32Be, u32Bytes, storeAll]

theorem store_eq_storeAll (buf : Bytes) (off : Nat) (val : UInt8) :
    store buf off val = storeAll buf off [val] := by
  simp [storeAll]

/-! ## Reads of what was written -/

/-- Four adjacent bytes read as the word they spell. -/
theorem ioReadU32Be_at (front rest : Bytes) (b₀ b₁ b₂ b₃ : UInt8) :
    ioReadU32Be (front ++ b₀ :: b₁ :: b₂ :: b₃ :: rest) front.length =
      some (u32OfBytes b₀ b₁ b₂ b₃) := by
  have hload := load_append_right front (b₀ :: b₁ :: b₂ :: b₃ :: rest)
  have hload₀ := hload 0
  rw [Nat.add_zero] at hload₀
  simp only [ioReadU32Be, hload₀, hload 1, hload 2, hload 3]
  rfl

/-- The bytes of a 32-bit word, found at `off`, read back as the word. -/
theorem ioReadU32Be_u32Bytes (front rest : Bytes) (val : UInt32) :
    ioReadU32Be (front ++ (u32Bytes val ++ rest)) front.length = some val := by
  obtain ⟨b₀, b₁, b₂, b₃, hbytes, hval⟩ := u32Bytes_split val
  rw [hbytes, ← hval]
  exact ioReadU32Be_at front rest b₀ b₁ b₂ b₃

end Esp32Deskflow.Barrier
