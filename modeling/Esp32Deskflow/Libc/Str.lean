/-
  Libc/Str.lean --- string search and number conversion of the C standard library.

  A `const char *` is an offset into a region of memory.  The functions read up to the
  terminator, and return `none` when there is none from the offset on.  `long` has 32
  bits; `strtoul` and `strtol` convert with base 10 and saturate.
-/
import Esp32Deskflow.Foundation.Occurrence
import Esp32Deskflow.Libc.CStr
import Esp32Deskflow.Libc.Format

set_option autoImplicit false

namespace Esp32Deskflow.Libc

open Esp32Deskflow.Foundation

/-! ## Strings in memory -/

/-- The string at an offset. -/
def stringAt (m : Bytes) (i : Nat) : Option Bytes :=
  if 0 ∈ m.drop i then some (cString (m.drop i)) else none

/-- `strstr`: the offset of the first occurrence. -/
def strstr (m : Bytes) (i : Nat) (pat : Bytes) : Option (Option Nat) :=
  (stringAt m i).map fun s => (indexOf pat s).map (i + ·)

/-- `strchr` for a character other than the terminator. -/
def strchr (m : Bytes) (i : Nat) (c : UInt8) : Option (Option Nat) :=
  (stringAt m i).map fun s => (s.idxOf? c).map (i + ·)

/-- `memcpy` of `n` bytes at `i` to the front of a `char` array, and a terminator behind them;
`none` if they are not in the region, do not fit, or contain a terminator. -/
def copyString (cap : Nat) (m : Bytes) (i n : Nat) : Option (CStr cap) :=
  if h : i + n ≤ m.length ∧ n < cap ∧ 0 ∉ (m.drop i).take n then
    some ⟨(m.drop i).take n, lt_of_le_of_lt (List.length_take_le n _) h.2.1, h.2.2⟩
  else none

/-! ## Numbers -/

/-- What `strtoul` and `strtol` read: whether there is a minus sign, and the digits. -/
def signedDigits (s : Bytes) : Bool × Nat :=
  match s.dropWhile isSpace with
  | [] => (false, 0)
  | c :: rest =>
      if c = 45 then (true, digitsValue (rest.takeWhile isDigit))
      else if c = 43 then (false, digitsValue (rest.takeWhile isDigit))
      else (false, digitsValue ((c :: rest).takeWhile isDigit))

/-- `strtoul`. -/
def strtoul (m : Bytes) (i : Nat) : Option UInt32 :=
  (stringAt m i).map fun s =>
    match signedDigits s with
    | (negative, n) =>
        if 2 ^ 32 ≤ n then 0xFFFFFFFF else if negative then -n.toUInt32 else n.toUInt32

/-- `strtol`. -/
def strtol (m : Bytes) (i : Nat) : Option Int32 :=
  (stringAt m i).map fun s =>
    match signedDigits s with
    | (true, n) => Int32.ofInt (max (-n : Int) (-2 ^ 31))
    | (false, n) => Int32.ofInt (min (n : Int) (2 ^ 31 - 1))

/-! ## Printed numbers read back -/

theorem signedDigits_decimal (n : Nat) {rest : Bytes}
    (hrest : ∀ b ∈ rest.head?, isDigit b = false) :
    signedDigits (decimal n ++ rest) = (false, n) := by
  have hspace := decimalInt_head_not_space (n : Int) rest
  have hint : decimalInt (n : Int) = decimal n := rfl
  rw [hint] at hspace
  have hdigits := (takeWhile_append_stop
    (fun b hb => isDigit_of_mem_decimal (n := n) hb) hrest).1
  rw [signedDigits, hspace]
  cases hdec : decimal n with
  | nil => exact absurd hdec (decimal_ne_nil n)
  | cons c cs =>
      have hc : isDigit c = true := isDigit_of_mem_decimal (hdec ▸ List.mem_cons_self)
      have h45 : c ≠ 45 := by rintro rfl; exact absurd hc (by decide)
      have h43 : c ≠ 43 := by rintro rfl; exact absurd hc (by decide)
      rw [hdec] at hdigits
      rw [List.cons_append] at hdigits ⊢
      simp only [if_neg h45, if_neg h43, hdigits, ← hdec, digitsValue_decimal]

theorem signedDigits_negative (n : Nat) {rest : Bytes}
    (hrest : ∀ b ∈ rest.head?, isDigit b = false) :
    signedDigits (45 :: decimal n ++ rest) = (true, n) := by
  have hdigits := (takeWhile_append_stop
    (fun b hb => isDigit_of_mem_decimal (n := n) hb) hrest).1
  have hspace : (45 :: decimal n ++ rest).dropWhile isSpace = 45 :: (decimal n ++ rest) := rfl
  rw [signedDigits, hspace]
  simp only [if_true, hdigits, digitsValue_decimal]

/-! ## Any decimal integer -/

/-- The text begins with a decimal integer: white space, a sign, digits, and no digit
behind them. -/
def StartsWithInt (text : Bytes) (n : Int) : Prop :=
  ∃ blanks sign digits rest, text = blanks ++ (sign ++ (digits ++ rest)) ∧
    (∀ b ∈ blanks, isSpace b = true) ∧ (sign = [] ∨ sign = [43] ∨ sign = [45]) ∧
    digits ≠ [] ∧ (∀ b ∈ digits, isDigit b = true) ∧ (∀ b ∈ rest.head?, isDigit b = false) ∧
    n = if sign = [45] then -(digitsValue digits : Int) else digitsValue digits

/-- `strtoul` and `strtol` read all of it. -/
theorem signedDigits_of_startsWithInt {text : Bytes} {n : Int} (h : StartsWithInt text n) :
    ∃ negative d, signedDigits text = (negative, d) ∧
      n = if negative then -(d : Int) else d := by
  obtain ⟨blanks, sign, digits, rest, rfl, hblanks, hsign, hne, hdigits, hrest, rfl⟩ := h
  have htake := (takeWhile_append_stop hdigits hrest).1
  obtain ⟨d, ds, rfl⟩ := List.exists_cons_of_ne_nil hne
  have hd : isDigit d = true := hdigits d List.mem_cons_self
  have hdrop : (blanks ++ (sign ++ (d :: ds ++ rest))).dropWhile isSpace =
      sign ++ (d :: ds ++ rest) := by
    refine (takeWhile_append_stop hblanks ?_).2
    rcases hsign with rfl | rfl | rfl
    · rintro b ⟨⟩
      exact isSpace_of_isDigit hd
    · rintro b ⟨⟩
      rfl
    · rintro b ⟨⟩
      rfl
  rw [signedDigits, hdrop]
  rcases hsign with rfl | rfl | rfl
  · have h45 : d ≠ 45 := by rintro rfl; exact absurd hd (by decide)
    have h43 : d ≠ 43 := by rintro rfl; exact absurd hd (by decide)
    refine ⟨false, digitsValue (d :: ds), ?_, rfl⟩
    simp only [List.nil_append, List.cons_append, if_neg h45, if_neg h43]
    rw [← List.cons_append, htake]
  · exact ⟨false, digitsValue (d :: ds), congrArg (fun r => (false, digitsValue r)) htake, rfl⟩
  · exact ⟨true, digitsValue (d :: ds), congrArg (fun r => (true, digitsValue r)) htake, rfl⟩

/-! ## A region that holds a text -/

/-- The region begins with the text and its terminator. -/
def Holds (m text : Bytes) : Prop := 0 ∉ text ∧ ∃ rest, m = text ++ 0 :: rest

/-- A region with a terminator holds the text before the first one. -/
theorem holds_cString {m : Bytes} (h : 0 ∈ m) : Holds m (cString m) := by
  refine ⟨nul_not_mem_cString m, ?_⟩
  induction m with
  | nil => cases h
  | cons b m ih =>
      by_cases hb : b = 0
      · subst hb
        exact ⟨m, rfl⟩
      · obtain ⟨rest, hrest⟩ := ih ((List.mem_cons.mp h).resolve_left (Ne.symm hb))
        refine ⟨rest, ?_⟩
        have hstep : cString (b :: m) = b :: cString m := by simp [cString, hb]
        rw [hstep, List.cons_append, ← hrest]

/-- A buffer behind whose text a terminator stands holds the text as a string. -/
theorem holds_terminated (text rest : Bytes) : Holds (text ++ 0 :: rest) (cString text) := by
  have hmem : (0 : UInt8) ∈ text ++ 0 :: rest := List.mem_append_right _ List.mem_cons_self
  have hholds := holds_cString hmem
  rwa [cString_append_nul] at hholds

section

variable {m text : Bytes}

theorem stringAt_of_holds (h : Holds m text) {i : Nat} (hi : i ≤ text.length) :
    stringAt m i = some (text.drop i) := by
  obtain ⟨hnul, rest, rfl⟩ := h
  have hdrop : (text ++ 0 :: rest).drop i = text.drop i ++ 0 :: rest :=
    List.drop_append_of_le_length hi
  have hnul' : (0 : UInt8) ∉ text.drop i := fun hmem => hnul (List.mem_of_mem_drop hmem)
  rw [stringAt, hdrop, if_pos (by simp)]
  refine congrArg some (takeWhile_append_stop (fun b hb => ?_) ?_).1
  · simp only [bne_iff_ne]
    rintro rfl
    exact hnul' hb
  · rintro b ⟨⟩
    rfl

theorem strstr_of_holds (h : Holds m text) {i : Nat} (hi : i ≤ text.length) (pat : Bytes) :
    strstr m i pat = some ((indexOf pat (text.drop i)).map (i + ·)) := by
  rw [strstr, stringAt_of_holds h hi, Option.map_some]

theorem strchr_of_holds (h : Holds m text) {i : Nat} (hi : i ≤ text.length) (c : UInt8) :
    strchr m i c = some (((text.drop i).idxOf? c).map (i + ·)) := by
  rw [strchr, stringAt_of_holds h hi, Option.map_some]

theorem strtoul_of_holds (h : Holds m text) {i n : Nat} {rest : Bytes} (hi : i ≤ text.length)
    (hread : text.drop i = decimal n ++ rest) (hrest : ∀ b ∈ rest.head?, isDigit b = false)
    (hn : n < 2 ^ 32) : strtoul m i = some n.toUInt32 := by
  rw [strtoul, stringAt_of_holds h hi, hread, Option.map_some, signedDigits_decimal n hrest]
  simp only [if_neg (Nat.not_le.mpr hn), Bool.false_eq_true, if_false]

/-- `strtol` reads back a number that was printed. -/
theorem strtol_of_holds (h : Holds m text) {i : Nat} {n : Int32} {rest : Bytes}
    (hi : i ≤ text.length) (hread : text.drop i = decimalInt n.toInt ++ rest)
    (hrest : ∀ b ∈ rest.head?, isDigit b = false) : strtol m i = some n := by
  have hlow := n.le_toInt
  have hhigh := n.toInt_lt
  rw [strtol, stringAt_of_holds h hi, hread, Option.map_some]
  refine congrArg some (Eq.trans ?_ (Int32.ofInt_toInt (x := n)))
  cases hint : n.toInt with
  | ofNat k =>
      rw [hint] at hhigh
      rw [show decimalInt (Int.ofNat k) = decimal k from rfl, signedDigits_decimal k hrest]
      simp only [Int.ofNat_eq_natCast] at hhigh ⊢
      rw [min_eq_left (by omega)]
  | negSucc k =>
      rw [hint] at hlow
      rw [show decimalInt (Int.negSucc k) = 45 :: decimal (k + 1) from rfl,
        signedDigits_negative (k + 1) hrest]
      simp only [Int.negSucc_eq] at hlow ⊢
      rw [max_eq_left (by push_cast; omega)]
      push_cast
      rfl

/-- What `strtoul` makes of a decimal integer of any size. -/
theorem strtoul_of_startsWithInt (h : Holds m text) {i : Nat} {n : Int} (hi : i ≤ text.length)
    (hint : StartsWithInt (text.drop i) n) :
    strtoul m i = some (if 2 ^ 32 ≤ n.natAbs then 0xFFFFFFFF else UInt32.ofInt n) := by
  obtain ⟨negative, d, hread, hn⟩ := signedDigits_of_startsWithInt hint
  have hcast : d.toUInt32 = UInt32.ofInt d := by
    refine UInt32.toNat_inj.mp ?_
    have hword := uint32_toNat_ofInt d
    rw [Nat.toUInt32_eq, UInt32.toNat_ofNat']
    omega
  rw [strtoul, stringAt_of_holds h hi, Option.map_some, hread]
  cases negative with
  | false =>
      rw [if_neg Bool.false_ne_true] at hn
      simp only [hn, Int.natAbs_natCast, Bool.false_eq_true, if_false, hcast]
  | true =>
      rw [if_pos rfl] at hn
      simp only [hn, Int.natAbs_neg, Int.natAbs_natCast, if_true, hcast, UInt32.ofInt_neg]

/-- What `strtol` makes of a decimal integer of any size. -/
theorem strtol_of_startsWithInt (h : Holds m text) {i : Nat} {n : Int} (hi : i ≤ text.length)
    (hint : StartsWithInt (text.drop i) n) :
    strtol m i = some (Int32.ofInt (max (min n (2 ^ 31 - 1)) (-2 ^ 31))) := by
  obtain ⟨negative, d, hread, hn⟩ := signedDigits_of_startsWithInt hint
  rw [strtol, stringAt_of_holds h hi, Option.map_some, hread]
  cases negative with
  | false =>
      rw [if_neg Bool.false_ne_true] at hn
      rw [hn, max_eq_left (by omega)]
  | true =>
      rw [if_pos rfl] at hn
      rw [hn, min_eq_left (by omega)]

/-- A part of the text that fits is copied. -/
theorem copyString_of_holds (h : Holds m text) {cap i n : Nat} (hin : i + n ≤ text.length)
    (hn : n < cap) : ∃ s : CStr cap, copyString cap m i n = some s ∧
      s.bytes = (text.drop i).take n := by
  obtain ⟨hnul, rest, rfl⟩ := h
  have htake : ((text ++ 0 :: rest).drop i).take n = (text.drop i).take n := by
    rw [List.drop_append_of_le_length (by omega), List.take_append_of_le_length]
    rw [List.length_drop]
    omega
  have hnul' : (0 : UInt8) ∉ (text.drop i).take n := fun hmem =>
    hnul (List.mem_of_mem_drop (List.mem_of_mem_take hmem))
  have hfit : i + n ≤ (text ++ 0 :: rest).length := by
    rw [List.length_append]
    omega
  refine ⟨_, dif_pos ⟨hfit, hn, htake ▸ hnul'⟩, htake⟩

end

end Esp32Deskflow.Libc
