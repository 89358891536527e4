/-
  Libc/CStr.lean --- C strings in fixed-size arrays.

  A `char` array that always holds a terminated string is the list of the bytes
  before the terminator, together with the facts that it leaves room for the
  terminator and does not contain one.
-/
import Esp32Deskflow.Foundation.Bytes
import Mathlib.Data.List.TakeWhile

set_option autoImplicit false

namespace Esp32Deskflow.Libc

open Esp32Deskflow.Foundation

/-- The string held by a `char` array of `cap` bytes. -/
structure CStr (cap : Nat) where
  bytes : Bytes
  fits : bytes.length < cap
  noNul : (0 : UInt8) ∉ bytes
  deriving DecidableEq, Repr

theorem CStr.ext_bytes {cap : Nat} {s t : CStr cap} (h : s.bytes = t.bytes) : s = t := by
  cases s
  cases t
  cases h
  rfl

/-- The string that a block of bytes starts with: it ends at the first NUL. -/
def cString (bs : Bytes) : Bytes := bs.takeWhile fun b => b != 0

theorem nul_not_mem_cString (bs : Bytes) : (0 : UInt8) ∉ cString bs := by
  intro h
  have hne := List.mem_takeWhile_imp h
  simp at hne

theorem cString_eq_self {bs : Bytes} (h : (0 : UInt8) ∉ bs) : cString bs = bs := by
  refine List.takeWhile_eq_self_iff.mpr ?_
  intro b hb
  simp only [bne_iff_ne]
  rintro rfl
  exact h hb

theorem cString_append_nul (text rest : Bytes) : cString (text ++ 0 :: rest) = cString text := by
  induction text with
  | nil => rfl
  | cons b text ih =>
      by_cases hb : b = 0
      · subst hb
        rfl
      · have hstep (s : Bytes) : cString (b :: s) = b :: cString s := by simp [cString, hb]
        rw [List.cons_append, hstep, hstep, ih]

/-- `strncpy(dst, src, sizeof(dst) - 1)` into an array whose last byte is NUL. -/
def strncpy (cap : Nat) (hcap : 0 < cap) (src : Bytes) : CStr cap where
  bytes := (cString src).take (cap - 1)
  fits := by
    have hlen := List.length_take_le (cap - 1) (cString src)
    omega
  noNul := fun h => nul_not_mem_cString src (List.mem_of_mem_take h)

/-- Copying a string that fits changes nothing. -/
theorem strncpy_bytes {cap : Nat} (hcap : 0 < cap) (s : CStr cap) :
    strncpy cap hcap s.bytes = s := by
  refine CStr.ext_bytes ?_
  have hfits := s.fits
  have hlen : s.bytes.length ≤ cap - 1 := by omega
  show (cString s.bytes).take (cap - 1) = s.bytes
  rw [cString_eq_self s.noNul, List.take_of_length_le hlen]

/-! ## Arrays -/

/-- `strncpy(dst, src, n)`: the bytes up to the terminator, at most `n` of them, and zeros behind
them up to `n`; `none` if `src` ends before, or `dst` is too short. -/
def strncpyInto {cap : Nat} (dst : Buffer cap) (src : Bytes) (n : Nat) : Option (Buffer cap) :=
  if 0 ∈ src ∨ n ≤ src.length then
    let text := (cString src).take n
    dst.write 0 (text ++ List.replicate (n - text.length) 0)
  else none

/-- The array that holds a string and nothing else. -/
def CStr.array {cap : Nat} (s : CStr cap) : Buffer cap where
  bytes := s.bytes ++ List.replicate (cap - s.bytes.length) 0
  size_eq := by
    have hfits := s.fits
    rw [List.length_append, List.length_replicate]
    omega

/-- The string of such an array ends inside of it. -/
theorem CStr.array_terminated {cap : Nat} (s : CStr cap) :
    0 ∈ s.array.bytes ∧ cString s.array.bytes = s.bytes := by
  have hfits := s.fits
  obtain ⟨k, hk⟩ : ∃ k, cap - s.bytes.length = k + 1 := ⟨cap - s.bytes.length - 1, by omega⟩
  have hbytes : s.array.bytes = s.bytes ++ 0 :: List.replicate k 0 := by
    rw [← List.replicate_succ, ← hk]
    rfl
  rw [hbytes, cString_append_nul, cString_eq_self s.noNul]
  exact ⟨List.mem_append_right _ List.mem_cons_self, rfl⟩

theorem strncpyInto_bytes {n : Nat} (dst : Buffer (n + 1)) {src : Bytes}
    (hsrc : 0 ∈ src ∨ n ≤ src.length) : ∃ b, strncpyInto dst src n = some b ∧
      b.bytes = (cString src).take n ++
        (List.replicate (n - ((cString src).take n).length) 0 ++ dst.bytes.drop n) := by
  have hle := List.length_take_le n (cString src)
  have hlen : ((cString src).take n ++
      List.replicate (n - ((cString src).take n).length) 0).length = n := by
    rw [List.length_append, List.length_replicate]
    omega
  obtain ⟨b, hb⟩ : ∃ b, dst.write 0 ((cString src).take n ++
      List.replicate (n - ((cString src).take n).length) 0) = some b :=
    dst.exists_write (by omega)
  refine ⟨b, (if_pos hsrc).trans hb, ?_⟩
  rw [Buffer.write_eq_some hb, hlen, Nat.zero_add, List.take_zero, List.nil_append,
    List.append_assoc]

/-- The string of `src` in front of zeros. -/
theorem strncpy_array_bytes (n : Nat) (src : Bytes) :
    (strncpy (n + 1) (Nat.succ_pos n) src).array.bytes = (cString src).take n ++
      (List.replicate (n - ((cString src).take n).length) 0 ++ [0]) := by
  have hle := List.length_take_le n (cString src)
  rw [← List.replicate_succ', ← Nat.sub_add_comm hle]
  rfl

/-- `strncpy` over all of an array but its last byte leaves nothing of what was there. -/
theorem strncpyInto_eq {n : Nat} {dst : Buffer (n + 1)} (hlast : dst.bytes.drop n = [0])
    {src : Bytes} (hsrc : 0 ∈ src ∨ n ≤ src.length) :
    strncpyInto dst src n = some (strncpy (n + 1) (Nat.succ_pos n) src).array := by
  obtain ⟨b, hb, hbytes⟩ := strncpyInto_bytes dst hsrc
  rw [hb]
  refine congrArg some (Buffer.ext_bytes ?_)
  rw [hbytes, hlast, strncpy_array_bytes]

/-- The same if the array is terminated after the copy. -/
theorem strncpyInto_terminated {n : Nat} (dst : Buffer (n + 1)) {src : Bytes}
    (hsrc : 0 ∈ src ∨ n ≤ src.length) :
    ((strncpyInto dst src n).bind fun dst => dst.write n [0]) =
      some (strncpy (n + 1) (Nat.succ_pos n) src).array := by
  obtain ⟨b, hb, hbytes⟩ := strncpyInto_bytes dst hsrc
  obtain ⟨b', hb'⟩ := b.exists_write (show n + [(0 : UInt8)].length ≤ n + 1 from Nat.le_refl _)
  have hle := List.length_take_le n (cString src)
  have hfront : b.bytes.take n = (cString src).take n ++
      List.replicate (n - ((cString src).take n).length) 0 := by
    rw [hbytes, ← List.append_assoc]
    refine List.take_left' ?_
    rw [List.length_append, List.length_replicate]
    omega
  have hback : b.bytes.drop (n + [(0 : UInt8)].length) = [] :=
    List.drop_eq_nil_of_le (Nat.le_of_eq b.size_eq)
  rw [hb, Option.bind_some, hb']
  refine congrArg some (Buffer.ext_bytes ?_)
  rw [Buffer.write_eq_some hb', hfront, hback, strncpy_array_bytes, List.append_assoc]
  rfl

/-- `snprintf(dst, sizeof(dst), ...)` of a text: what fits is stored, with a terminator. -/
def snprintf {cap : Nat} (dst : Buffer cap) (text : Bytes) : Option (Buffer cap) :=
  dst.write 0 (text.take (cap - 1) ++ [0])

/-- `snprintf(dst + off, size, ...)` of a text: as much of it as leaves room for a terminator, and
the terminator; a `size` of 0 stores nothing. -/
def snprintfAt {cap : Nat} (dst : Buffer cap) (off size : Nat) (text : Bytes) :
    Option (Buffer cap) :=
  if size = 0 then some dst else dst.write off (text.take (size - 1) ++ [0])

/-- A text that fits is stored whole, behind what stood in front of it. -/
theorem snprintfAt_fits {cap : Nat} (dst : Buffer cap) {off size : Nat} {text : Bytes}
    (hsize : off + size ≤ cap) (hfits : text.length < size) :
    ∃ b, snprintfAt dst off size text = some b ∧
      b.bytes.take (off + text.length) = dst.bytes.take off ++ text := by
  have htake : text.take (size - 1) = text := List.take_of_length_le (by omega)
  obtain ⟨b, hb⟩ : ∃ b, dst.write off (text ++ [0]) = some b := by
    refine dst.exists_write ?_
    rw [List.length_append, List.length_singleton]
    omega
  refine ⟨b, ?_, ?_⟩
  · rw [snprintfAt, if_neg (by omega), htake, hb]
  · have hfront : (dst.bytes.take off).length = off := by
      rw [List.length_take, dst.size_eq]
      omega
    rw [Buffer.write_eq_some hb, List.append_assoc, ← List.append_assoc]
    refine List.take_left' ?_
    rw [List.length_append, hfront]

end Esp32Deskflow.Libc
