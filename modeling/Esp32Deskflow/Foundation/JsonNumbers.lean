/-
  Foundation/JsonNumbers.lean --- printed numbers in JSON, and arrays of natural numbers.

  An array is written without spaces.  The reader is strict: a number has no zero in front,
  and one comma stands between two numbers.
-/
import Esp32Deskflow.Foundation.CompactJson
import Esp32Deskflow.Libc.Format

set_option autoImplicit false

namespace Esp32Deskflow.Foundation

open Esp32Deskflow.Libc

/-! ## Numbers -/

/-- A printed natural number has no zero in front. -/
theorem isNatural_decimal (n : Nat) : IsNatural (decimal n) := by
  have hdigit : ∀ b ∈ decimal n, 48 ≤ b ∧ b ≤ 57 := by
    intro b hb
    have hb := isDigit_of_mem_decimal hb
    simpa only [isDigit, Bool.and_eq_true, decide_eq_true_eq] using hb
  by_cases hn : n = 0
  · have hzero : decimal 0 = [48] := rfl
    rw [hn, hzero]
    exact ⟨by decide, by simp, fun _ => rfl⟩
  · have hne : Nat.digits 10 n ≠ [] := Nat.digits_ne_nil_iff_ne_zero.mpr hn
    have hlast := Nat.getLast_digit_ne_zero 10 hn
    have hlt : (Nat.digits 10 n).getLast hne < 10 :=
      Nat.digits_lt_base (by decide) (List.getLast_mem hne)
    have hreverse : (Nat.digits 10 n).reverse =
        (Nat.digits 10 n).getLast hne :: (Nat.digits 10 n).dropLast.reverse := by
      rw [← List.reverse_concat, List.dropLast_append_getLast]
    have hdecimal : decimal n = (48 + (Nat.digits 10 n).getLast hne).toUInt8 ::
        (Nat.digits 10 n).dropLast.reverse.map fun d => (48 + d).toUInt8 := by
      rw [decimal, if_neg hn, hreverse]
      rfl
    have hsmall : ∀ d < 10, (48 + d).toUInt8 = 48 → d = 0 := by decide
    rw [hdecimal] at hdigit ⊢
    exact ⟨hdigit _ List.mem_cons_self, fun b hb => hdigit b (List.mem_cons_of_mem _ hb),
      fun h48 => absurd (hsmall _ hlt h48) hlast⟩

theorem isInteger_decimalInt (n : Int) : IsInteger (decimalInt n) := by
  cases n with
  | negSucc k => exact isNatural_decimal (k + 1)
  | ofNat k =>
      have hnatural := isNatural_decimal k
      show IsInteger (decimal k)
      unfold IsInteger
      split
      · rename_i ds heq
        rw [heq] at hnatural
        exact absurd hnatural.1 (by decide)
      · exact hnatural

/-- A natural number at the start of a text. -/
def readNatural (s : Bytes) : Option (Nat × Bytes) :=
  (readNumber s).bind fun (digits, rest) =>
    if IsNatural digits then some (digitsValue digits, rest) else none

theorem readNatural_decimal (n : Nat) {rest : Bytes} (hrest : ∀ b ∈ rest.head?, ¬ NumberByte b) :
    readNatural (decimal n ++ rest) = some (n, rest) := by
  have hinteger : IsInteger (decimal n) := isInteger_decimalInt n
  rw [readNatural, readNumber_integer hinteger hrest, Option.bind_some]
  simp only [if_pos (isNatural_decimal n), digitsValue_decimal]

/-! ## Arrays -/

/-- The numbers behind the first one. -/
def laterNumbers : List Nat → Bytes
  | [] => []
  | n :: ns => 44 :: (decimal n ++ laterNumbers ns)

/-- The numbers of an array, with commas between them. -/
def numbersBytes : List Nat → Bytes
  | [] => []
  | n :: ns => decimal n ++ laterNumbers ns

/-- An array of numbers. -/
def arrayBytes (ns : List Nat) : Bytes := 91 :: (numbersBytes ns ++ [93])

theorem laterNumbers_concat (ns : List Nat) (n : Nat) :
    laterNumbers (ns ++ [n]) = laterNumbers ns ++ 44 :: decimal n := by
  induction ns with
  | nil => exact congrArg (44 :: ·) (List.append_nil _)
  | cons m ns ih =>
      rw [List.cons_append, laterNumbers, ih, laterNumbers, List.cons_append, List.append_assoc]

/-- One number more, behind a comma unless it is the first. -/
theorem numbersBytes_concat (ns : List Nat) (n : Nat) :
    numbersBytes (ns ++ [n]) =
      numbersBytes ns ++ ((if ns = [] then [] else [44]) ++ decimal n) := by
  cases ns with
  | nil => exact List.append_nil _
  | cons m ns =>
      rw [List.cons_append, numbersBytes, laterNumbers_concat, numbersBytes, List.append_assoc,
        if_neg (List.cons_ne_nil m ns), List.singleton_append]

/-- Numbers of at most `k` digits and their commas. -/
theorem length_laterNumbers_le {k : Nat} {ns : List Nat} (h : ∀ n ∈ ns, (decimal n).length ≤ k) :
    (laterNumbers ns).length ≤ (k + 1) * ns.length := by
  induction ns with
  | nil => exact Nat.zero_le _
  | cons n ns ih =>
      obtain ⟨hn, hns⟩ := List.forall_mem_cons.mp h
      have hrest := ih hns
      rw [laterNumbers, List.length_cons, List.length_append, List.length_cons, Nat.mul_succ]
      omega

theorem length_numbersBytes_le {k : Nat} {ns : List Nat} (h : ∀ n ∈ ns, (decimal n).length ≤ k) :
    (numbersBytes ns).length ≤ (k + 1) * ns.length := by
  cases ns with
  | nil => exact Nat.zero_le _
  | cons n ns =>
      have hlater := length_laterNumbers_le h
      rw [laterNumbers, List.length_cons] at hlater
      exact Nat.le_of_succ_le hlater

/-! ## Reading an array -/

/-- The numbers up to the closing bracket, at most `k` of them. -/
def readNumbers : Nat → Bytes → Option (List Nat × Bytes)
  | 0, _ => none
  | k + 1, s =>
      (readNatural s).bind fun
        | (n, 44 :: s) => (readNumbers k s).map fun (ns, rest) => (n :: ns, rest)
        | (n, 93 :: rest) => some ([n], rest)
        | _ => none

/-- Read an array of numbers; what is left of the input is returned. -/
def readArray : Bytes → Option (List Nat × Bytes)
  | 91 :: 93 :: rest => some ([], rest)
  | 91 :: s => readNumbers s.length s
  | _ => none

theorem readNumbers_numbers {k : Nat} {ns : List Nat} (n : Nat) (hk : ns.length < k)
    (rest : Bytes) :
    readNumbers k (decimal n ++ (laterNumbers ns ++ 93 :: rest)) = some (n :: ns, rest) := by
  induction ns generalizing n k with
  | nil =>
      obtain ⟨k, rfl⟩ : ∃ j, k = j + 1 := ⟨k - 1, by simp only [List.length_nil] at hk; omega⟩
      have hread : readNatural (decimal n ++ 93 :: rest) = some (n, 93 :: rest) := by
        refine readNatural_decimal n ?_
        rintro b ⟨⟩
        decide
      rw [laterNumbers, List.nil_append, readNumbers, hread]
      rfl
  | cons m ns ih =>
      obtain ⟨k, rfl⟩ : ∃ j, k = j + 1 := ⟨k - 1, by omega⟩
      have hread : readNatural (decimal n ++ 44 :: (decimal m ++ (laterNumbers ns ++ 93 :: rest))) =
          some (n, 44 :: (decimal m ++ (laterNumbers ns ++ 93 :: rest))) := by
        refine readNatural_decimal n ?_
        rintro b ⟨⟩
        decide
      rw [laterNumbers, List.cons_append, List.append_assoc, readNumbers, hread, Option.bind_some]
      simp only
      rw [ih m (Nat.lt_of_succ_lt_succ hk), Option.map_some]

theorem length_le_laterNumbers (ns : List Nat) : ns.length ≤ (laterNumbers ns).length := by
  induction ns with
  | nil => exact Nat.le_refl _
  | cons n ns ih =>
      rw [laterNumbers, List.length_cons, List.length_cons, List.length_append]
      omega

/-- An array is read back. -/
theorem readArray_arrayBytes (ns : List Nat) (rest : Bytes) :
    readArray (arrayBytes ns ++ rest) = some (ns, rest) := by
  cases ns with
  | nil => rfl
  | cons n ns =>
      have htext : arrayBytes (n :: ns) ++ rest =
          91 :: (decimal n ++ (laterNumbers ns ++ 93 :: rest)) := by
        rw [arrayBytes, numbersBytes, List.cons_append]
        simp only [List.append_assoc, List.singleton_append]
      have hlen : ns.length < (decimal n ++ (laterNumbers ns ++ 93 :: rest)).length := by
        have hle := length_le_laterNumbers ns
        simp only [List.length_append, List.length_cons]
        omega
      rw [htext, readArray]
      · exact readNumbers_numbers n hlen rest
      · intro rest' heq
        have hfirst := (isNatural_decimal n)
        cases hdecimal : decimal n with
        | nil => exact decimal_ne_nil n hdecimal
        | cons d ds =>
            rw [hdecimal] at heq hfirst
            rw [(List.cons.inj heq).1] at hfirst
            exact absurd hfirst.1 (by decide)

end Esp32Deskflow.Foundation
