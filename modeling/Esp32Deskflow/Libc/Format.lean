/-
  Libc/Format.lean --- formatted input and output of the C standard library.

  `parsePrintf` and `parseScanf` read a format string into a list of directives,
  `printf` and `scanf` interpret the directives.  Only the conversions that the
  firmware uses are covered (`%s`, `%u`, `%d` and `%N[^...]`); any other one makes
  the format unreadable, which is `none`.

  `scanf` returns the values of the conversions that were assigned, so the length
  of its result is what the C function returns, except that C reports an input
  that ends before the first conversion as `EOF`.  A number is assigned
  as an unbounded integer: C leaves a value outside of the target type undefined.
-/
import Esp32Deskflow.Foundation.Bytes
import Mathlib.Data.List.TakeWhile
import Mathlib.Data.Nat.Digits.Lemmas

set_option autoImplicit false

namespace Esp32Deskflow.Libc

open Esp32Deskflow.Foundation

/-! ## Characters -/

/-- `isspace` in the C locale. -/
def isSpace (b : UInt8) : Bool := b == 32 || (9 ≤ b && b ≤ 13)

/-- `isdigit`. -/
def isDigit (b : UInt8) : Bool := 48 ≤ b && b ≤ 57

/-- The value of a run of decimal digits. -/
def digitsValue (ds : Bytes) : Nat := ds.foldl (fun acc b => acc * 10 + (b.toNat - 48)) 0

/-- The shortest decimal representation of a natural number. -/
def decimal (n : Nat) : Bytes :=
  if n = 0 then [48] else (Nat.digits 10 n).reverse.map fun d => (48 + d).toUInt8

/-- The decimal representation of an integer, with a minus sign if it is negative. -/
def decimalInt : Int → Bytes
  | .ofNat n => decimal n
  | .negSucc n => 45 :: decimal (n + 1)

/-! ## `fprintf` -/

/-- A directive of an output format. -/
inductive PrintDirective where
  | lit (b : UInt8)
  /-- `%s` -/
  | str
  /-- `%u` -/
  | unsigned
  /-- `%d` -/
  | signed
  deriving DecidableEq, Repr

/-- An argument of `fprintf`: a string without its terminator, or a number. -/
inductive PrintArg where
  | str (s : Bytes)
  | num (n : Int)
  deriving DecidableEq, Repr

/-- Read an output format. -/
def parsePrintf : Bytes → Option (List PrintDirective)
  | [] => some []
  | [c] => if c = 37 then none else some [.lit c]
  | 37 :: c :: cs =>
      if c = 115 then (parsePrintf cs).map (.str :: ·)
      else if c = 117 then (parsePrintf cs).map (.unsigned :: ·)
      else if c = 100 then (parsePrintf cs).map (.signed :: ·)
      else none
  | c :: cs => (parsePrintf cs).map (.lit c :: ·)

/-- The text printed for a list of directives.  Arguments that do not fit their
directive have no defined result. -/
def printf : List PrintDirective → List PrintArg → Option Bytes
  | [], _ => some []
  | .lit b :: ds, args => (printf ds args).map (b :: ·)
  | .str :: ds, .str s :: args => (printf ds args).map (s ++ ·)
  | .unsigned :: ds, .num n :: args => (printf ds args).map (decimalInt n ++ ·)
  | .signed :: ds, .num n :: args => (printf ds args).map (decimalInt n ++ ·)
  | _, _ => none

/-! ## `fscanf` -/

/-- A directive of an input format. -/
inductive ScanDirective where
  /-- white space: skips any amount of it -/
  | space
  | lit (b : UInt8)
  /-- `%d` -/
  | int
  /-- `%N[^...]` -/
  | scanset (width : Nat) (stop : List UInt8)
  deriving DecidableEq, Repr

/-- A value assigned by `fscanf`. -/
inductive ScanValue where
  | int (n : Int)
  | str (s : Bytes)
  deriving DecidableEq, Repr

/-- Where the reader of an input format stands. -/
inductive ScanFormatState where
  | plain
  /-- after `%` and the digits of a field width -/
  | percent (width : Nat)
  /-- after the opening bracket of a scan set -/
  | bracket (width : Nat)
  /-- inside of a complemented scan set -/
  | stopSet (width : Nat) (stop : List UInt8)

/-- Read an input format. -/
def parseScanf : ScanFormatState → Bytes → Option (List ScanDirective)
  | .plain, [] => some []
  | .plain, c :: cs =>
      if c = 37 then parseScanf (.percent 0) cs
      else if isSpace c then (parseScanf .plain cs).map (.space :: ·)
      else (parseScanf .plain cs).map (.lit c :: ·)
  | .percent w, c :: cs =>
      if isDigit c then parseScanf (.percent (10 * w + (c.toNat - 48))) cs
      else if c = 100 then (parseScanf .plain cs).map (.int :: ·)
      else if c = 91 then parseScanf (.bracket w) cs
      else none
  | .bracket w, c :: cs => if c = 94 then parseScanf (.stopSet w []) cs else none
  | .stopSet w stop, c :: cs =>
      if c = 93 then (parseScanf .plain cs).map (.scanset w stop :: ·)
      else parseScanf (.stopSet w (stop ++ [c])) cs
  | _, [] => none

/-- Unsigned decimal digits at the start of the input. -/
def scanDigits (inp : Bytes) : Option (Nat × Bytes) :=
  let ds := inp.takeWhile isDigit
  if ds = [] then none else some (digitsValue ds, inp.dropWhile isDigit)

/-- The conversion of `%d`, after white space has been skipped. -/
def scanInt : Bytes → Option (Int × Bytes)
  | [] => none
  | c :: rest =>
      if c = 45 then (scanDigits rest).map fun r => (-(r.1 : Int), r.2)
      else if c = 43 then (scanDigits rest).map fun r => ((r.1 : Int), r.2)
      else (scanDigits (c :: rest)).map fun r => ((r.1 : Int), r.2)

/-- The longest run of at most `width` bytes outside of the stop set. -/
def scanRun (width : Nat) (stop : List UInt8) (inp : Bytes) : Bytes :=
  (inp.take width).takeWhile fun b => !stop.contains b

/-- The values that `fscanf` assigns: it stops at the first directive that fails. -/
def scanf : List ScanDirective → Bytes → List ScanValue
  | [], _ => []
  | .space :: ds, inp => scanf ds (inp.dropWhile isSpace)
  | .lit b :: ds, inp =>
      match inp with
      | c :: rest => if c = b then scanf ds rest else []
      | [] => []
  | .int :: ds, inp =>
      match scanInt (inp.dropWhile isSpace) with
      | some (n, rest) => .int n :: scanf ds rest
      | none => []
  | .scanset width stop :: ds, inp =>
      let run := scanRun width stop inp
      if run = [] then [] else .str run :: scanf ds (inp.drop run.length)

/-! ## Decimal numbers read back -/

theorem isSpace_of_isDigit {b : UInt8} (h : isDigit b = true) : isSpace b = false := by
  simp only [isDigit, Bool.and_eq_true, decide_eq_true_eq] at h
  obtain ⟨hlow, -⟩ := h
  have h48 : 48 ≤ b.toNat := UInt8.le_iff_toNat_le.mp hlow
  have h32 : b ≠ 32 := by
    rintro rfl
    exact absurd h48 (by decide)
  have h13 : ¬ b ≤ 13 := by
    intro hle
    have hnat : b.toNat ≤ 13 := UInt8.le_iff_toNat_le.mp hle
    omega
  simp [isSpace, h32, h13]

theorem digitsValue_append (as bs : Bytes) :
    digitsValue (as ++ bs) =
      bs.foldl (fun acc b => acc * 10 + (b.toNat - 48)) (digitsValue as) := by
  simp only [digitsValue, List.foldl_append]

theorem digitsValue_map_digits (ds : List Nat) (h : ∀ d ∈ ds, d < 10) :
    digitsValue (ds.reverse.map fun d => (48 + d).toUInt8) = Nat.ofDigits 10 ds := by
  induction ds with
  | nil => rfl
  | cons d ds ih =>
      have hd : d < 10 := h d List.mem_cons_self
      have hbyte : (48 + d).toUInt8.toNat - 48 = d := by
        rw [Nat.toUInt8, UInt8.toNat_ofNat']
        omega
      have hrest := ih fun e he => h e (List.mem_cons_of_mem d he)
      rw [List.reverse_cons, List.map_append, digitsValue_append, hrest, Nat.ofDigits_cons]
      simp only [List.map_cons, List.map_nil, List.foldl_cons, List.foldl_nil, hbyte]
      omega

theorem decimal_ne_nil (n : Nat) : decimal n ≠ [] := by
  unfold decimal
  split
  · simp
  · rename_i hn
    simpa [Nat.digits_ne_nil_iff_ne_zero] using hn

theorem isDigit_of_mem_decimal {n : Nat} {b : UInt8} (h : b ∈ decimal n) : isDigit b = true := by
  unfold decimal at h
  split at h
  · rw [List.mem_singleton.mp h]
    rfl
  · obtain ⟨d, hd, rfl⟩ := List.mem_map.mp h
    have hlt : d < 10 := Nat.digits_lt_base (by omega) (List.mem_reverse.mp hd)
    have hsmall : ∀ e < 10, isDigit (48 + e).toUInt8 = true := by decide
    exact hsmall d hlt

theorem digitsValue_decimal (n : Nat) : digitsValue (decimal n) = n := by
  unfold decimal
  split
  · rename_i hn
    rw [hn]
    rfl
  · rw [digitsValue_map_digits _ fun d hd => Nat.digits_lt_base (by omega) hd,
      Nat.ofDigits_digits]

/-- A number below a power of ten has no more digits than the power. -/
theorem decimal_length_le {n k : Nat} (hk : 0 < k) (h : n < 10 ^ k) : (decimal n).length ≤ k := by
  unfold decimal
  split
  · exact hk
  · rw [List.length_map, List.length_reverse]
    exact (Nat.digits_length_le_iff (by decide) n).mpr h

theorem decimalInt_length_le {n : Int} {k : Nat} (hk : 0 < k) (h : n.natAbs < 10 ^ k) :
    (decimalInt n).length ≤ k + 1 := by
  cases n with
  | ofNat n => exact Nat.le_succ_of_le (decimal_length_le hk h)
  | negSucc n => exact Nat.succ_le_succ (decimal_length_le hk h)

/-- A run of digits ends where the input stops being a digit. -/
theorem takeWhile_append_stop {p : UInt8 → Bool} {ds rest : Bytes} (hds : ∀ b ∈ ds, p b = true)
    (hrest : ∀ b ∈ rest.head?, p b = false) :
    (ds ++ rest).takeWhile p = ds ∧ (ds ++ rest).dropWhile p = rest := by
  induction ds with
  | nil =>
      cases rest with
      | nil => exact ⟨rfl, rfl⟩
      | cons b rest =>
          have hb : p b = false := hrest b rfl
          simp [hb]
  | cons d ds ih =>
      have hd : p d = true := hds d List.mem_cons_self
      obtain ⟨htake, hdrop⟩ := ih fun b hb => hds b (List.mem_cons_of_mem d hb)
      simp [hd, htake, hdrop]

theorem scanDigits_decimal (n : Nat) {rest : Bytes} (hrest : ∀ b ∈ rest.head?, isDigit b = false) :
    scanDigits (decimal n ++ rest) = some (n, rest) := by
  obtain ⟨htake, hdrop⟩ :=
    takeWhile_append_stop (fun b hb => isDigit_of_mem_decimal (n := n) hb) hrest
  unfold scanDigits
  rw [htake, hdrop]
  simp only [decimal_ne_nil, if_false, digitsValue_decimal]

/-- `%d` reads back what `%d` printed, up to the next byte that is no digit. -/
theorem scanInt_decimalInt (n : Int) {rest : Bytes}
    (hrest : ∀ b ∈ rest.head?, isDigit b = false) :
    scanInt (decimalInt n ++ rest) = some (n, rest) := by
  cases n with
  | ofNat n =>
      have hread := scanDigits_decimal n hrest
      have hne := decimal_ne_nil n
      have hint : decimalInt (Int.ofNat n) = decimal n := rfl
      rw [hint]
      cases hdec : decimal n with
      | nil => exact absurd hdec hne
      | cons c cs =>
          have hc : isDigit c = true := isDigit_of_mem_decimal (hdec ▸ List.mem_cons_self)
          have h45 : c ≠ 45 := by rintro rfl; exact absurd hc (by decide)
          have h43 : c ≠ 43 := by rintro rfl; exact absurd hc (by decide)
          rw [hdec] at hread
          simp only [List.cons_append] at hread ⊢
          simp only [scanInt, if_neg h45, if_neg h43, hread, Option.map_some]
          rfl
  | negSucc n =>
      have hread := scanDigits_decimal (n + 1) hrest
      simp only [decimalInt, List.cons_append, scanInt, if_true, hread, Option.map_some]
      rfl

/-- A printed number does not begin with white space. -/
theorem decimalInt_head_not_space (n : Int) (rest : Bytes) :
    (decimalInt n ++ rest).dropWhile isSpace = decimalInt n ++ rest := by
  have hhead : ∀ (m : Nat) (rest : Bytes),
      (decimal m ++ rest).dropWhile isSpace = decimal m ++ rest := by
    intro m rest
    cases hdec : decimal m with
    | nil => exact absurd hdec (decimal_ne_nil m)
    | cons c cs =>
        have hc : isDigit c = true := isDigit_of_mem_decimal (hdec ▸ List.mem_cons_self)
        simp [isSpace_of_isDigit hc]
  cases n with
  | ofNat m => exact hhead m rest
  | negSucc m => rfl

/-! ## One directive at a time -/

theorem printf_lits (text : Bytes) (ds : List PrintDirective) (args : List PrintArg) :
    printf (text.map .lit ++ ds) args = (printf ds args).map (text ++ ·) := by
  induction text with
  | nil => simp
  | cons b text ih =>
      simp only [List.map_cons, List.cons_append, printf, ih, Option.map_map]
      rfl

theorem scanf_lits (key : Bytes) (ds : List ScanDirective) (rest : Bytes) :
    scanf (key.map .lit ++ ds) (key ++ rest) = scanf ds rest := by
  induction key with
  | nil => rfl
  | cons k key ih => simp only [List.map_cons, List.cons_append, scanf, if_true, ih]

theorem scanf_int (n : Int) (ds : List ScanDirective) {rest : Bytes}
    (hrest : ∀ b ∈ rest.head?, isDigit b = false) :
    scanf (.int :: ds) (decimalInt n ++ rest) = .int n :: scanf ds rest := by
  simp only [scanf, decimalInt_head_not_space, scanInt_decimalInt n hrest]

/-- A scan set assigns a run that fits the width and is followed by a stop byte. -/
theorem scanf_scanset {width : Nat} {stop : List UInt8} {s : Bytes} {b : UInt8} {rest : Bytes}
    (ds : List ScanDirective) (hne : s ≠ []) (hwidth : s.length ≤ width)
    (hs : ∀ c ∈ s, stop.contains c = false) (hb : stop.contains b = true) :
    scanf (.scanset width stop :: ds) (s ++ b :: rest) = .str s :: scanf ds (b :: rest) := by
  have hrun : scanRun width stop (s ++ b :: rest) = s := by
    unfold scanRun
    rw [List.take_append, List.take_of_length_le hwidth]
    refine (takeWhile_append_stop (fun c hc => by rw [hs c hc]; rfl) ?_).1
    intro c hc
    have hcb : c = b := by
      cases hk : width - s.length with
      | zero => rw [hk] at hc; simp at hc
      | succ k =>
          rw [hk] at hc
          exact (Option.some.inj hc).symm
    rw [hcb, hb]
    rfl
  simp only [scanf, hrun, hne, if_false, List.drop_left]

/-- A scan set that meets a stop byte at once assigns nothing, and the scan ends. -/
theorem scanf_scanset_stop {width : Nat} {stop : List UInt8} {b : UInt8} (rest : Bytes)
    (ds : List ScanDirective) (hb : stop.contains b = true) :
    scanf (.scanset width stop :: ds) (b :: rest) = [] := by
  have hrun : scanRun width stop (b :: rest) = [] := by
    unfold scanRun
    cases width with
    | zero => rfl
    | succ k => simp [List.contains_iff_mem.mp hb]
  simp only [scanf, hrun, if_true]

/-! ## What is assigned -/

/-- The directives that assign a value. -/
def ScanDirective.isConversion : ScanDirective → Bool
  | .int | .scanset _ _ => true
  | .space | .lit _ => false

/-- A value that a conversion can assign. -/
def ScanDirective.Assigns : ScanDirective → ScanValue → Prop
  | .int, .int _ => True
  | .scanset width stop, .str s => s.length ≤ width ∧ ∀ c ∈ s, stop.contains c = false
  | _, _ => False

theorem assigns_scanRun (width : Nat) (stop : List UInt8) (inp : Bytes) :
    (ScanDirective.scanset width stop).Assigns (.str (scanRun width stop inp)) := by
  constructor
  · exact le_trans (List.takeWhile_prefix _).length_le (List.length_take_le _ _)
  · intro c hc
    simpa using List.mem_takeWhile_imp hc

/-- The values are those of the first conversions, in order. -/
theorem scanf_assigns (ds : List ScanDirective) (inp : Bytes) :
    List.Forall₂ ScanDirective.Assigns
      ((ds.filter ScanDirective.isConversion).take (scanf ds inp).length) (scanf ds inp) := by
  induction ds generalizing inp with
  | nil => exact .nil
  | cons d ds ih =>
      cases d with
      | space => exact ih _
      | lit b =>
          cases inp with
          | nil => exact .nil
          | cons c rest =>
              simp only [scanf]
              split
              · exact ih rest
              · exact .nil
      | int =>
          simp only [scanf]
          split
          · exact .cons trivial (ih _)
          · exact .nil
      | scanset width stop =>
          simp only [scanf]
          split
          · exact .nil
          · exact .cons (assigns_scanRun width stop inp) (ih _)

/-! ## Where the values go -/

section Arguments

variable {σ : Type} {args : List (ScanValue → σ → Option σ)} {ds : List ScanDirective}
  {values : List ScanValue}

/-- Store the values that `fscanf` assigns through its arguments, in order; `none` if one
of them does not fit the variable that its argument points to. -/
def storeScan : List (ScanValue → σ → Option σ) → List ScanValue → σ → Option σ
  | _, [], v => some v
  | arg :: args, x :: xs, v => (arg x v).bind (storeScan args xs)
  | [], _ :: _, _ => none

/-- Arguments that take whatever their conversion can assign take the values of every
scan, wherever it stops. -/
theorem storeScan_defined
    (hargs : List.Forall₂ (fun d (arg : ScanValue → σ → Option σ) =>
      ∀ x, d.Assigns x → ∀ v, ∃ v', arg x v = some v') ds args)
    (hvalues : List.Forall₂ ScanDirective.Assigns (ds.take values.length) values) (v : σ) :
    ∃ v', storeScan args values v = some v' := by
  induction hargs generalizing values v with
  | nil =>
      rw [List.take_nil] at hvalues
      cases hvalues
      exact ⟨v, rfl⟩
  | cons harg _ ih =>
      cases values with
      | nil => exact ⟨v, rfl⟩
      | cons x xs =>
          rw [List.length_cons, List.take_succ_cons] at hvalues
          cases hvalues with
          | cons hx hxs =>
              obtain ⟨v', hv'⟩ := harg x hx v
              obtain ⟨v'', hv''⟩ := ih hxs v'
              exact ⟨v'', by simp only [storeScan, hv', Option.bind_some, hv'']⟩

end Arguments

end Esp32Deskflow.Libc
