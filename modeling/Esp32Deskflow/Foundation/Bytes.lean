/-
  Foundation/Bytes.lean --- byte memory and big-endian integers.

  A region of memory is the list of its bytes.  Loading or storing outside of the
  region is `none`: the access has no defined result, so a computation that
  returns `some` has stayed inside the region it was given.

  The second half is the arithmetic of big-endian integers: a shift-and-or
  expression is the base-256 numeral of its bytes, and the bytes cut out of a
  word by shifts and masks are its base-256 digits.
-/
import Mathlib.Data.List.Basic

set_option autoImplicit false

namespace Esp32Deskflow.Foundation

/-- A string of bytes. -/
abbrev Bytes : Type := List UInt8

/-- The bytes of an ASCII string literal, without a terminator. -/
def ascii (s : String) : Bytes := s.toList.map fun c => c.toNat.toUInt8

/-! ## Loads and stores -/

/-- Read the byte at `i`. -/
def load (m : Bytes) (i : Nat) : Option UInt8 := m[i]?

/-- Write `v` at `i`. -/
def store (m : Bytes) (i : Nat) (v : UInt8) : Option Bytes :=
  if i < m.length then some (m.set i v) else none

/-- Write the bytes of a block one after the other, starting at `i`. -/
def storeAll (m : Bytes) (i : Nat) : Bytes → Option Bytes
  | [] => some m
  | b :: bs => (store m i b).bind fun m' => storeAll m' (i + 1) bs

theorem load_append_right (front m : Bytes) (i : Nat) :
    load (front ++ m) (front.length + i) = load m i := by
  simp [load, List.getElem?_append_right]

theorem load_append_left {m : Bytes} (rest : Bytes) {i : Nat} (h : i < m.length) :
    load (m ++ rest) i = load m i := by
  simp [load, List.getElem?_append_left h]

@[simp] theorem load_cons_zero (b : UInt8) (m : Bytes) : load (b :: m) 0 = some b := rfl

@[simp] theorem load_cons_succ (b : UInt8) (m : Bytes) (i : Nat) :
    load (b :: m) (i + 1) = load m i := rfl

theorem store_append (front : Bytes) (old v : UInt8) (rest : Bytes) :
    store (front ++ old :: rest) front.length v = some (front ++ v :: rest) := by
  simp [store]

/-- Storing a block over a block of the same size replaces exactly that block. -/
theorem storeAll_append (front : Bytes) : ∀ (old new rest : Bytes), old.length = new.length →
    storeAll (front ++ (old ++ rest)) front.length new = some (front ++ (new ++ rest)) := by
  intro old new
  induction new generalizing front old with
  | nil =>
      intro rest h
      have hold : old = [] := List.length_eq_zero_iff.mp h
      subst hold
      rfl
  | cons v new ih =>
      intro rest h
      cases old with
      | nil => simp at h
      | cons o old =>
          have hlen : old.length = new.length := by simpa using h
          have hrest := ih (front ++ [v]) old rest hlen
          simp only [List.length_append, List.length_singleton, List.append_assoc,
            List.singleton_append] at hrest
          simp only [storeAll, List.cons_append, store_append, Option.bind_some]
          exact hrest

/-- A block that fits is stored, and nothing outside of its range changes. -/
theorem storeAll_eq (m : Bytes) (i : Nat) (bs : Bytes) (h : i + bs.length ≤ m.length) :
    storeAll m i bs = some (m.take i ++ (bs ++ m.drop (i + bs.length))) := by
  have hi : (m.take i).length = i := by rw [List.length_take]; omega
  have hmid : ((m.drop i).take bs.length).length = bs.length := by
    rw [List.length_take, List.length_drop]; omega
  have hsplit : m = m.take i ++ ((m.drop i).take bs.length ++ m.drop (i + bs.length)) := by
    rw [← List.drop_drop, List.take_append_drop, List.take_append_drop]
  have hstore := storeAll_append (m.take i) ((m.drop i).take bs.length) bs
    (m.drop (i + bs.length)) hmid
  rw [hi, ← hsplit] at hstore
  exact hstore

/-- A block is stored by storing its two halves in turn. -/
theorem storeAll_append_block (m : Bytes) (i : Nat) (as bs : Bytes) :
    storeAll m i (as ++ bs) =
      (storeAll m i as).bind fun m' => storeAll m' (i + as.length) bs := by
  induction as generalizing m i with
  | nil => rfl
  | cons a as ih =>
      simp only [List.cons_append, storeAll, List.length_cons]
      cases store m i a with
      | none => rfl
      | some m' =>
          simp only [Option.bind_some, ih]
          rw [show i + 1 + as.length = i + (as.length + 1) from by omega]

/-! ## Big-endian words -/

/-- The 16-bit word of two bytes, most significant first. -/
def u16OfBytes (b₀ b₁ : UInt8) : UInt16 := (b₀.toUInt16 <<< 8) ||| b₁.toUInt16

/-- The 32-bit word of four bytes, most significant first. -/
def u32OfBytes (b₀ b₁ b₂ b₃ : UInt8) : UInt32 :=
  (b₀.toUInt32 <<< 24) ||| (b₁.toUInt32 <<< 16) ||| (b₂.toUInt32 <<< 8) ||| b₃.toUInt32

/-- The two bytes of a 16-bit word, most significant first. -/
def u16Bytes (v : UInt16) : Bytes := [((v >>> 8) &&& 0xFF).toUInt8, (v &&& 0xFF).toUInt8]

/-- The four bytes of a 32-bit word, most significant first. -/
def u32Bytes (v : UInt32) : Bytes :=
  [((v >>> 24) &&& 0xFF).toUInt8, ((v >>> 16) &&& 0xFF).toUInt8,
    ((v >>> 8) &&& 0xFF).toUInt8, (v &&& 0xFF).toUInt8]

@[simp] theorem u16Bytes_length (v : UInt16) : (u16Bytes v).length = 2 := rfl

@[simp] theorem u32Bytes_length (v : UInt32) : (u32Bytes v).length = 4 := rfl

theorem u16OfBytes_toNat (b₀ b₁ : UInt8) :
    (u16OfBytes b₀ b₁).toNat = 256 * b₀.toNat + b₁.toNat := by
  have h₀ := b₀.toNat_lt
  have h₁ := b₁.toNat_lt
  have hor := Nat.shiftLeft_add_eq_or_of_lt (i := 8) h₁ b₀.toNat
  simp only [u16OfBytes, UInt16.toNat_or, UInt16.toNat_shiftLeft, UInt8.toNat_toUInt16]
  rw [show (8 : UInt16).toNat % 16 = 8 from rfl,
    Nat.mod_eq_of_lt (by rw [Nat.shiftLeft_eq]; omega), ← hor, Nat.shiftLeft_eq]
  omega

theorem u32OfBytes_toNat (b₀ b₁ b₂ b₃ : UInt8) :
    (u32OfBytes b₀ b₁ b₂ b₃).toNat =
      16777216 * b₀.toNat + 65536 * b₁.toNat + 256 * b₂.toNat + b₃.toNat := by
  have h₀ := b₀.toNat_lt
  have h₁ := b₁.toNat_lt
  have h₂ := b₂.toNat_lt
  have h₃ := b₃.toNat_lt
  -- Each `or` adds a byte below the lowest bit that is already set.
  have hor₁ : b₀.toNat <<< 24 ||| b₁.toNat <<< 16 = (b₀.toNat * 256 + b₁.toNat) <<< 16 := by
    rw [← Nat.shiftLeft_add_eq_or_of_lt (i := 24) (by rw [Nat.shiftLeft_eq]; omega)]
    simp only [Nat.shiftLeft_eq]; omega
  have hor₂ : (b₀.toNat * 256 + b₁.toNat) <<< 16 ||| b₂.toNat <<< 8 =
      ((b₀.toNat * 256 + b₁.toNat) * 256 + b₂.toNat) <<< 8 := by
    rw [← Nat.shiftLeft_add_eq_or_of_lt (i := 16) (by rw [Nat.shiftLeft_eq]; omega)]
    simp only [Nat.shiftLeft_eq]; omega
  have hor₃ := Nat.shiftLeft_add_eq_or_of_lt (i := 8) h₃
    ((b₀.toNat * 256 + b₁.toNat) * 256 + b₂.toNat)
  simp only [u32OfBytes, UInt32.toNat_or, UInt32.toNat_shiftLeft, UInt8.toNat_toUInt32]
  rw [show (24 : UInt32).toNat % 32 = 24 from rfl, show (16 : UInt32).toNat % 32 = 16 from rfl,
    show (8 : UInt32).toNat % 32 = 8 from rfl,
    Nat.mod_eq_of_lt (a := b₀.toNat <<< 24) (by rw [Nat.shiftLeft_eq]; omega),
    Nat.mod_eq_of_lt (a := b₁.toNat <<< 16) (by rw [Nat.shiftLeft_eq]; omega),
    Nat.mod_eq_of_lt (a := b₂.toNat <<< 8) (by rw [Nat.shiftLeft_eq]; omega),
    hor₁, hor₂, ← hor₃, Nat.shiftLeft_eq]
  omega

/-- Masking a 16-bit word with `0xFF` and truncating keeps its low base-256 digit. -/
theorem u16_low_byte_toNat (v : UInt16) : (v &&& 0xFF).toUInt8.toNat = v.toNat % 256 := by
  simp only [UInt16.toNat_toUInt8, UInt16.toNat_and]
  rw [show (0xFF : UInt16).toNat = 2 ^ 8 - 1 from rfl, Nat.and_two_pow_sub_one_eq_mod]
  omega

/-- Masking a 32-bit word with `0xFF` and truncating keeps its low base-256 digit. -/
theorem u32_low_byte_toNat (v : UInt32) : (v &&& 0xFF).toUInt8.toNat = v.toNat % 256 := by
  simp only [UInt32.toNat_toUInt8, UInt32.toNat_and]
  rw [show (0xFF : UInt32).toNat = 2 ^ 8 - 1 from rfl, Nat.and_two_pow_sub_one_eq_mod]
  omega

theorem u16_shiftRight_toNat (v : UInt16) : (v >>> 8).toNat = v.toNat / 256 := by
  rw [UInt16.toNat_shiftRight, show (8 : UInt16).toNat % 16 = 8 from rfl,
    Nat.shiftRight_eq_div_pow]

theorem u32_shiftRight_toNat (v : UInt32) :
    (v >>> 8).toNat = v.toNat / 256 ∧ (v >>> 16).toNat = v.toNat / 65536 ∧
      (v >>> 24).toNat = v.toNat / 16777216 := by
  refine ⟨?_, ?_, ?_⟩
  · rw [UInt32.toNat_shiftRight, show (8 : UInt32).toNat % 32 = 8 from rfl,
      Nat.shiftRight_eq_div_pow]
  · rw [UInt32.toNat_shiftRight, show (16 : UInt32).toNat % 32 = 16 from rfl,
      Nat.shiftRight_eq_div_pow]
  · rw [UInt32.toNat_shiftRight, show (24 : UInt32).toNat % 32 = 24 from rfl,
      Nat.shiftRight_eq_div_pow]

/-- Reading back the bytes of a 16-bit word returns the word. -/
theorem u16OfBytes_u16Bytes (v : UInt16) :
    u16OfBytes ((v >>> 8) &&& 0xFF).toUInt8 (v &&& 0xFF).toUInt8 = v := by
  have hv := v.toNat_lt
  apply UInt16.toNat_inj.mp
  rw [u16OfBytes_toNat, u16_low_byte_toNat, u16_low_byte_toNat, u16_shiftRight_toNat]
  omega

/-- Reading back the bytes of a 32-bit word returns the word. -/
theorem u32OfBytes_u32Bytes (v : UInt32) :
    u32OfBytes ((v >>> 24) &&& 0xFF).toUInt8 ((v >>> 16) &&& 0xFF).toUInt8
      ((v >>> 8) &&& 0xFF).toUInt8 (v &&& 0xFF).toUInt8 = v := by
  have hv := v.toNat_lt
  obtain ⟨h8, h16, h24⟩ := u32_shiftRight_toNat v
  apply UInt32.toNat_inj.mp
  rw [u32OfBytes_toNat]
  simp only [u32_low_byte_toNat, h8, h16, h24]
  omega

/-- Writing out a 16-bit word that was read from two bytes returns the bytes. -/
theorem u16Bytes_u16OfBytes (b₀ b₁ : UInt8) : u16Bytes (u16OfBytes b₀ b₁) = [b₀, b₁] := by
  have h₀ := b₀.toNat_lt
  have h₁ := b₁.toNat_lt
  have hhi : (((u16OfBytes b₀ b₁) >>> 8) &&& 0xFF).toUInt8 = b₀ := by
    apply UInt8.toNat_inj.mp
    rw [u16_low_byte_toNat, u16_shiftRight_toNat, u16OfBytes_toNat]; omega
  have hlo : ((u16OfBytes b₀ b₁) &&& 0xFF).toUInt8 = b₁ := by
    apply UInt8.toNat_inj.mp
    rw [u16_low_byte_toNat, u16OfBytes_toNat]; omega
  simp only [u16Bytes, hhi, hlo]

/-- Writing out a 32-bit word that was read from four bytes returns the bytes. -/
theorem u32Bytes_u32OfBytes (b₀ b₁ b₂ b₃ : UInt8) :
    u32Bytes (u32OfBytes b₀ b₁ b₂ b₃) = [b₀, b₁, b₂, b₃] := by
  have h₀ := b₀.toNat_lt
  have h₁ := b₁.toNat_lt
  have h₂ := b₂.toNat_lt
  have h₃ := b₃.toNat_lt
  obtain ⟨h8, h16, h24⟩ := u32_shiftRight_toNat (u32OfBytes b₀ b₁ b₂ b₃)
  have hdigit : ∀ (v : UInt32) (b : UInt8), v.toNat % 256 = b.toNat →
      (v &&& 0xFF).toUInt8 = b := by
    intro v b h
    apply UInt8.toNat_inj.mp
    rw [u32_low_byte_toNat, h]
  simp only [u32Bytes]
  rw [hdigit _ b₀ (by rw [h24, u32OfBytes_toNat]; omega),
    hdigit _ b₁ (by rw [h16, u32OfBytes_toNat]; omega),
    hdigit _ b₂ (by rw [h8, u32OfBytes_toNat]; omega),
    hdigit _ b₃ (by rw [u32OfBytes_toNat]; omega)]

/-- The base-256 numeral of a block, most significant byte first. -/
def bigEndian (bs : Bytes) : Nat := bs.foldl (fun v b => 256 * v + b.toNat) 0

@[simp] theorem bigEndian_u16Bytes (v : UInt16) : bigEndian (u16Bytes v) = v.toNat := by
  have hv := v.toNat_lt
  simp only [bigEndian, u16Bytes, List.foldl_cons, List.foldl_nil, u16_low_byte_toNat,
    u16_shiftRight_toNat]
  omega

@[simp] theorem bigEndian_u32Bytes (v : UInt32) : bigEndian (u32Bytes v) = v.toNat := by
  have hv := v.toNat_lt
  obtain ⟨h8, h16, h24⟩ := u32_shiftRight_toNat v
  simp only [bigEndian, u32Bytes, List.foldl_cons, List.foldl_nil, u32_low_byte_toNat, h8, h16, h24]
  omega

@[simp] theorem bigEndian_singleton (b : UInt8) : bigEndian [b] = b.toNat := by
  simp [bigEndian]

/-- The bytes of a 16-bit word, named, with the word they read back as. -/
theorem u16Bytes_split (v : UInt16) :
    ∃ b₀ b₁, u16Bytes v = [b₀, b₁] ∧ u16OfBytes b₀ b₁ = v :=
  ⟨_, _, rfl, u16OfBytes_u16Bytes v⟩

/-- The bytes of a 32-bit word, named, with the word they read back as. -/
theorem u32Bytes_split (v : UInt32) :
    ∃ b₀ b₁ b₂ b₃, u32Bytes v = [b₀, b₁, b₂, b₃] ∧ u32OfBytes b₀ b₁ b₂ b₃ = v :=
  ⟨_, _, _, _, rfl, u32OfBytes_u32Bytes v⟩

/-- A block of at least two bytes begins with the bytes of a 16-bit word. -/
theorem exists_u16Bytes_append {d : Bytes} {n : Nat} (h : d.length = n + 2) :
    ∃ (v : UInt16) (d' : Bytes), d = u16Bytes v ++ d' ∧ d'.length = n := by
  match d, h with
  | b₀ :: b₁ :: d', h =>
      refine ⟨u16OfBytes b₀ b₁, d', ?_, by simpa using h⟩
      rw [u16Bytes_u16OfBytes]
      rfl

/-- A block of at least four bytes begins with the bytes of a 32-bit word. -/
theorem exists_u32Bytes_append {d : Bytes} {n : Nat} (h : d.length = n + 4) :
    ∃ (v : UInt32) (d' : Bytes), d = u32Bytes v ++ d' ∧ d'.length = n := by
  match d, h with
  | b₀ :: b₁ :: b₂ :: b₃ :: d', h =>
      refine ⟨u32OfBytes b₀ b₁ b₂ b₃, d', ?_, by simpa using h⟩
      rw [u32Bytes_u32OfBytes]
      rfl

/-- A nonempty block begins with a byte. -/
theorem exists_byte_append {d : Bytes} {n : Nat} (h : d.length = n + 1) :
    ∃ (b : UInt8) (d' : Bytes), d = [b] ++ d' ∧ d'.length = n := by
  match d, h with
  | b :: d', h => exact ⟨b, d', rfl, by simpa using h⟩

/-- The word of an integer is its remainder. -/
theorem uint32_toNat_ofInt (n : Int) : ((UInt32.ofInt n).toNat : Int) = n % 4294967296 := by
  have hpos := Int.emod_nonneg n (show (4294967296 : Int) ≠ 0 by decide)
  have hlt := Int.emod_lt_of_pos n (show (0 : Int) < 4294967296 by decide)
  rw [UInt32.ofInt, UInt32.toNat_ofNat']
  omega

/-! ## Buffers of a fixed size -/

/-- An array of `n` bytes. -/
structure Buffer (n : Nat) where
  bytes : Bytes
  size_eq : bytes.length = n
  deriving DecidableEq, Repr

theorem Buffer.ext_bytes {n : Nat} {b b' : Buffer n} (h : b.bytes = b'.bytes) : b = b' := by
  cases b
  cases b'
  cases h
  rfl

/-- `calloc`. -/
def Buffer.zeroed (n : Nat) : Buffer n := ⟨List.replicate n 0, List.length_replicate⟩

/-- The result of a function that worked on the buffer in place; `none` if it is not a
buffer of that size any more. -/
def Buffer.ofBytes (n : Nat) (bs : Bytes) : Option (Buffer n) :=
  if h : bs.length = n then some ⟨bs, h⟩ else none

/-- Write a block at `i`; `none` if it does not fit. -/
def Buffer.write {n : Nat} (b : Buffer n) (i : Nat) (block : Bytes) : Option (Buffer n) :=
  if h : i + block.length ≤ n then
    some ⟨b.bytes.take i ++ (block ++ b.bytes.drop (i + block.length)), by
      simp only [List.length_append, List.length_take, List.length_drop, b.size_eq]; omega⟩
  else none

theorem Buffer.exists_write {n : Nat} (b : Buffer n) {i : Nat} {block : Bytes}
    (h : i + block.length ≤ n) : ∃ b', b.write i block = some b' := by
  unfold Buffer.write
  rw [dif_pos h]
  exact ⟨_, rfl⟩

theorem Buffer.write_eq_some {n : Nat} {b b' : Buffer n} {i : Nat} {block : Bytes}
    (h : b.write i block = some b') :
    b'.bytes = b.bytes.take i ++ (block ++ b.bytes.drop (i + block.length)) := by
  unfold Buffer.write at h
  split at h
  · cases h
    rfl
  · cases h

end Esp32Deskflow.Foundation
