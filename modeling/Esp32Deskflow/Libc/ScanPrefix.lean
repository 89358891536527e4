/-
  Libc/ScanPrefix.lean --- `fscanf` on an input that was cut short.

  `scanf` says what is assigned.  `scanRest` says what is left of the input when every
  directive has matched, so that a format can be read in two parts.  On the first bytes
  of an input a directive fails or stops where it did before, or at the cut: no byte of
  the format can be matched behind the cut.
-/
import Esp32Deskflow.Libc.Format

set_option autoImplicit false

namespace Esp32Deskflow.Libc

open Esp32Deskflow.Foundation

/-! ## What is left of the input -/

/-- What is left after a directive, if it matches. -/
def ScanDirective.rest : ScanDirective → Bytes → Option Bytes
  | .space, inp => some (inp.dropWhile isSpace)
  | .lit b, c :: rest => if c = b then some rest else none
  | .lit _, [] => none
  | .int, inp => (scanInt (inp.dropWhile isSpace)).map Prod.snd
  | .scanset width stop, inp =>
      if scanRun width stop inp = [] then none
      else some (inp.drop (scanRun width stop inp).length)

/-- What is left after all directives, if they match. -/
def scanRest : List ScanDirective → Bytes → Option Bytes
  | [], inp => some inp
  | d :: ds, inp => (d.rest inp).bind (scanRest ds)

theorem scanRest_append (ds es : List ScanDirective) (inp : Bytes) :
    scanRest (ds ++ es) inp = (scanRest ds inp).bind (scanRest es) := by
  induction ds generalizing inp with
  | nil => rfl
  | cons d ds ih =>
      simp only [List.cons_append, scanRest, Option.bind_assoc]
      exact congrArg _ (funext ih)

/-- The second part of a format reads what the first one left, if the first one matched. -/
theorem scanf_append (ds es : List ScanDirective) (inp : Bytes) :
    scanf (ds ++ es) inp = scanf ds inp ++ ((scanRest ds inp).map (scanf es)).getD [] := by
  induction ds generalizing inp with
  | nil => rfl
  | cons d ds ih =>
      cases d with
      | space => exact ih _
      | lit b =>
          cases inp with
          | nil => rfl
          | cons c rest =>
              simp only [List.cons_append, scanf, scanRest, ScanDirective.rest]
              split
              · exact ih rest
              · rfl
      | int =>
          simp only [List.cons_append, scanf, scanRest, ScanDirective.rest]
          cases scanInt (inp.dropWhile isSpace) with
          | none => rfl
          | some r => simp [ih]
      | scanset width stop =>
          simp only [List.cons_append, scanf, scanRest, ScanDirective.rest]
          split
          · rfl
          · simp [ih]

/-- A scan set that nothing stops assigns all that is left. -/
theorem scanf_probe {k : Nat} {bs : Bytes} (hk : bs.length ≤ k) :
    scanf [.scanset k []] bs = if bs = [] then [] else [.str bs] := by
  have hrun : scanRun k [] bs = bs := by
    unfold scanRun
    rw [List.take_of_length_le hk, List.takeWhile_eq_self_iff]
    intro b _
    rfl
  simp only [scanf, hrun]

/-- What is left can be told from what any second part would read. -/
theorem scanRest_of_scanf {ds : List ScanDirective} {inp r : Bytes} {vs : List ScanValue}
    (hne : r ≠ []) (h : ∀ es, scanf (ds ++ es) inp = vs ++ scanf es r) :
    scanRest ds inp = some r := by
  have hvalues : scanf ds inp = vs := by
    have hnil := h []
    rwa [List.append_nil, scanf, List.append_nil] at hnil
  have hsecond : ∀ es, ((scanRest ds inp).map (scanf es)).getD [] = scanf es r := by
    intro es
    have happ := h es
    rwa [scanf_append, hvalues, List.append_cancel_left_eq] at happ
  cases hrest : scanRest ds inp with
  | none =>
      have hprobe := hsecond [.scanset r.length []]
      rw [hrest, Option.map_none, Option.getD_none, scanf_probe (Nat.le_refl _),
        if_neg hne] at hprobe
      cases hprobe
  | some m =>
      have hprobe := hsecond [.scanset (m.length + r.length) []]
      rw [hrest, Option.map_some, Option.getD_some, scanf_probe (Nat.le_add_right _ _),
        scanf_probe (Nat.le_add_left _ _), if_neg hne] at hprobe
      split at hprobe
      · cases hprobe
      · cases hprobe
        rfl

/-- Where the first part fails, it decides how many values there are at most. -/
theorem scanf_append_length_le {ds : List ScanDirective} {inp : Bytes}
    (es : List ScanDirective) (h : scanRest ds inp = none) :
    (scanf (ds ++ es) inp).length ≤ (ds.filter ScanDirective.isConversion).length := by
  rw [scanf_append, h, Option.map_none, Option.getD_none, List.append_nil]
  exact (scanf_assigns ds inp).length_eq ▸ List.length_take_le' _ _

/-! ## The first bytes of an input -/

theorem dropWhile_take (p : UInt8 → Bool) (inp : Bytes) (n : Nat) :
    (inp.take n).dropWhile p =
      (inp.dropWhile p).take (n - (inp.length - (inp.dropWhile p).length)) := by
  induction inp generalizing n with
  | nil => simp
  | cons b inp ih =>
      have hle : (inp.dropWhile p).length ≤ inp.length := (List.dropWhile_suffix p).length_le
      cases n with
      | zero => simp
      | succ n =>
          by_cases hb : p b = true
          · have hcount : n + 1 - (inp.length + 1 - (inp.dropWhile p).length) =
              n - (inp.length - (inp.dropWhile p).length) := by omega
            simp only [List.take_succ_cons, List.dropWhile_cons_of_pos hb, List.length_cons,
              hcount, ih]
          · simp only [List.take_succ_cons, List.dropWhile_cons_of_neg hb, List.length_cons,
              Nat.sub_self, Nat.sub_zero]

theorem takeWhile_take (p : UInt8 → Bool) (inp : Bytes) (n : Nat) :
    (inp.take n).takeWhile p = (inp.takeWhile p).take n := by
  induction inp generalizing n with
  | nil => simp
  | cons b inp ih =>
      cases n with
      | zero => simp
      | succ n =>
          by_cases hb : p b = true
          · simp only [List.take_succ_cons, List.takeWhile_cons_of_pos hb, ih]
          · simp only [List.take_succ_cons, List.takeWhile_cons_of_neg hb, List.take_nil]

/-- What a step of the scan leaves of an input, and of its first bytes: nothing is matched, or
the first bytes of the same rest are left. -/
structure StopsAlike (f : Bytes → Option Bytes) (inp r : Bytes) : Prop where
  shorter : r.length ≤ inp.length
  cut : ∀ n, f (inp.take n) = none ∨ f (inp.take n) = some (r.take (n - (inp.length - r.length)))

theorem StopsAlike.bind {f g : Bytes → Option Bytes} {inp m r : Bytes}
    (hf : StopsAlike f inp m) (hg : StopsAlike g m r) :
    StopsAlike (fun bs => (f bs).bind g) inp r where
  shorter := Nat.le_trans hg.shorter hf.shorter
  cut := by
    intro n
    have hshorter := hf.shorter
    have hshorter' := hg.shorter
    obtain hnone | hsome := hf.cut n
    · exact .inl (by rw [hnone, Option.bind_none])
    · rw [hsome, Option.bind_some]
      have hcount : n - (inp.length - m.length) - (m.length - r.length) =
        n - (inp.length - r.length) := by omega
      exact hcount ▸ hg.cut (n - (inp.length - m.length))

theorem dropWhile_stopsAlike (p : UInt8 → Bool) (inp : Bytes) :
    StopsAlike (fun bs => some (bs.dropWhile p)) inp (inp.dropWhile p) where
  shorter := (List.dropWhile_suffix p).length_le
  cut := fun n => .inr (congrArg some (dropWhile_take p inp n))

theorem scanDigits_stopsAlike {inp r : Bytes}
    (h : (scanDigits inp).map Prod.snd = some r) :
    StopsAlike (fun bs => (scanDigits bs).map Prod.snd) inp r := by
  have hrest : ∀ bs, scanDigits bs = none ∨
      (scanDigits bs).map Prod.snd = some (bs.dropWhile isDigit) := by
    intro bs
    simp only [scanDigits]
    split
    · exact .inl rfl
    · exact .inr rfl
  have hr : r = inp.dropWhile isDigit := by
    obtain hnone | hsome := hrest inp
    · rw [hnone] at h
      cases h
    · rw [hsome] at h
      exact (Option.some.inj h).symm
  subst hr
  refine ⟨(List.dropWhile_suffix _).length_le, fun n => ?_⟩
  obtain hnone | hsome := hrest (inp.take n)
  · exact .inl (by rw [hnone, Option.map_none])
  · exact .inr (by rw [hsome, dropWhile_take])

/-- The input behind the sign of a number. -/
def afterSign : Bytes → Bytes
  | [] => []
  | c :: rest => if c = 45 ∨ c = 43 then rest else c :: rest

theorem afterSign_stopsAlike (inp : Bytes) :
    StopsAlike (fun bs => some (afterSign bs)) inp (afterSign inp) := by
  cases inp with
  | nil => exact ⟨Nat.le_refl _, fun n => .inr (by rw [List.take_nil, afterSign, List.take_nil])⟩
  | cons c inp =>
      by_cases hsign : c = 45 ∨ c = 43
      · refine ⟨?_, fun n => .inr ?_⟩
        · rw [afterSign, if_pos hsign]
          exact Nat.le_succ _
        · cases n with
          | zero => simp [afterSign]
          | succ n => simp [afterSign, hsign]
      · refine ⟨?_, fun n => .inr ?_⟩
        · rw [afterSign, if_neg hsign]
        · cases n with
          | zero => simp [afterSign]
          | succ n => simp [afterSign, hsign]

theorem scanInt_rest (inp : Bytes) :
    (scanInt inp).map Prod.snd = (scanDigits (afterSign inp)).map Prod.snd := by
  cases inp with
  | nil => rfl
  | cons c inp =>
      simp only [scanInt, afterSign]
      split_ifs with hminus hsign hplus hsign hsign
      · rw [Option.map_map]
        rfl
      · exact absurd (.inl hminus) hsign
      · rw [Option.map_map]
        rfl
      · exact absurd (.inr hplus) hsign
      · exact absurd hsign (by simp [hminus, hplus])
      · rw [Option.map_map]
        rfl

theorem scanRun_take (width : Nat) (stop : List UInt8) (inp : Bytes) (n : Nat) :
    scanRun width stop (inp.take n) = (scanRun width stop inp).take n := by
  unfold scanRun
  rw [← takeWhile_take, List.take_take, List.take_take, Nat.min_comm]

/-- On the first bytes of an input a directive fails or stops where it did, or at the cut. -/
theorem ScanDirective.rest_stopsAlike {d : ScanDirective} {inp r : Bytes}
    (h : d.rest inp = some r) : StopsAlike d.rest inp r := by
  cases d with
  | space =>
      cases h
      exact dropWhile_stopsAlike isSpace inp
  | lit b =>
      cases inp with
      | nil => cases h
      | cons c inp =>
          by_cases hc : c = b
          · simp only [ScanDirective.rest, if_pos hc, Option.some.injEq] at h
            subst h
            refine ⟨Nat.le_succ _, fun n => ?_⟩
            cases n with
            | zero => exact .inl rfl
            | succ n =>
                refine .inr ?_
                simp only [List.take_succ_cons, ScanDirective.rest, if_pos hc, List.length_cons]
                congr 2
                omega
          · simp only [ScanDirective.rest, if_neg hc] at h
            cases h
  | int =>
      have hrest : ScanDirective.int.rest = fun bs =>
          ((some (bs.dropWhile isSpace)).bind fun bs => some (afterSign bs)).bind fun bs =>
            (scanDigits bs).map Prod.snd := by
        funext bs
        exact scanInt_rest _
      rw [hrest] at h ⊢
      exact ((dropWhile_stopsAlike isSpace inp).bind (afterSign_stopsAlike _)).bind
        (scanDigits_stopsAlike h)
  | scanset width stop =>
      simp only [ScanDirective.rest] at h
      split at h
      · cases h
      · cases h
        have hrun : (scanRun width stop inp).length ≤ inp.length :=
          Nat.le_trans (List.takeWhile_prefix _).length_le (List.length_take_le' _ _)
        refine ⟨by rw [List.length_drop]; omega, fun n => ?_⟩
        simp only [ScanDirective.rest, scanRun_take]
        split
        · exact .inl rfl
        · refine .inr (congrArg some ?_)
          rw [List.length_take, List.length_drop, List.drop_take, Nat.sub_sub_self hrun]
          by_cases hlong : n ≤ (scanRun width stop inp).length
          · rw [Nat.min_eq_left hlong, Nat.sub_self, Nat.sub_eq_zero_of_le hlong,
              List.take_zero, List.take_zero]
          · rw [Nat.min_eq_right (by omega)]

theorem scanRest_stopsAlike {ds : List ScanDirective} :
    ∀ {inp r : Bytes}, scanRest ds inp = some r → StopsAlike (scanRest ds) inp r := by
  induction ds with
  | nil =>
      intro inp r h
      cases h
      exact ⟨Nat.le_refl _, fun n => .inr (by rw [Nat.sub_self, Nat.sub_zero]; rfl)⟩
  | cons d ds ih =>
      intro inp r h
      obtain ⟨m, hm, hr⟩ := Option.bind_eq_some_iff.mp h
      exact (ScanDirective.rest_stopsAlike hm).bind (ih hr)

/-- A format that ends with a character does not match an input that was cut before it. -/
theorem scanRest_take_eq_none {ds : List ScanDirective} {b : UInt8} {inp r : Bytes} {n : Nat}
    (h : scanRest (ds ++ [.lit b]) inp = some r) (hcut : n + r.length < inp.length) :
    scanRest (ds ++ [.lit b]) (inp.take n) = none := by
  rw [scanRest_append] at h ⊢
  obtain ⟨m, hm, hr⟩ := Option.bind_eq_some_iff.mp h
  have hlast : m = b :: r := by
    cases m with
    | nil => cases hr
    | cons c m =>
        simp only [scanRest, ScanDirective.rest] at hr
        split at hr
        · next hc =>
            cases hr
            rw [hc]
        · cases hr
  obtain ⟨hshorter, hstops⟩ := scanRest_stopsAlike hm
  rw [hlast, List.length_cons] at hshorter
  obtain hnone | hsome := hstops n
  · rw [hnone, Option.bind_none]
  · have hempty : n - (inp.length - m.length) = 0 := by
      rw [hlast, List.length_cons]
      omega
    rw [hsome, hempty, List.take_zero, Option.bind_some]
    rfl

end Esp32Deskflow.Libc
