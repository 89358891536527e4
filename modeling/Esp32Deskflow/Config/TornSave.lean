/-
  Config/TornSave.lean --- a save that did not reach the end of the file.

  `config_save` truncates the file, prints the settings and ignores what becomes of the
  text.  When the power is cut or the stick is full, only the first bytes of it are there.
  The format of `config_load` accepts such a file if the cut leaves a digit of the last
  value, the VLAN; it is then read with the digits that are left.
-/
import Esp32Deskflow.Config.RoundTrip
import Esp32Deskflow.Libc.ScanPrefix
import Mathlib.Data.Nat.Digits.Lemmas

set_option autoImplicit false

namespace Esp32Deskflow.Config

open Esp32Deskflow.Foundation Esp32Deskflow.Libc Esp32Deskflow.Tusb

/-! ## The first digits of a number -/

theorem decimal_of_pos {n : Nat} (hn : n ≠ 0) :
    decimal n = (Nat.digits 10 n).reverse.map fun d => (48 + d).toUInt8 := by
  rw [decimal, if_neg hn]

theorem digitsValue_take (n k : Nat) :
    digitsValue ((decimal n).take k) = n / 10 ^ ((decimal n).length - k) := by
  by_cases hn : n = 0
  · subst hn
    rw [Nat.zero_div]
    cases k with
    | zero => rfl
    | succ k =>
        rw [show decimal 0 = [48] from rfl, List.take_succ_cons, List.take_nil]
        rfl
  · have hdigits : ∀ d ∈ (Nat.digits 10 n).drop ((Nat.digits 10 n).length - k), d < 10 :=
      fun d hd => Nat.digits_lt_base (by decide) (List.mem_of_mem_drop hd)
    rw [decimal_of_pos hn, List.length_map, List.length_reverse, ← List.map_take,
      List.take_reverse, digitsValue_map_digits _ hdigits,
      Nat.self_div_pow_eq_ofDigits_drop _ _ (by decide)]

/-- The digits of a number that was cut, and a closing brace if it was not. -/
theorem scanDigits_take (n : Nat) {k : Nat} (hk : 0 < k) :
    (scanDigits ((decimal n ++ [125]).take k)).map Prod.fst =
      some (n / 10 ^ ((decimal n).length - k)) := by
  have hdigits : (decimal n ++ [125]).takeWhile isDigit = decimal n :=
    (takeWhile_append_stop (fun b hb => isDigit_of_mem_decimal hb)
      (by intro b hb; cases hb; rfl)).1
  have hne : (decimal n).take k ≠ [] := by
    rw [Ne, List.take_eq_nil_iff]
    rintro (hzero | hnil)
    · omega
    · exact decimal_ne_nil n hnil
  simp only [scanDigits, takeWhile_take, hdigits, if_neg hne, Option.map_some, digitsValue_take]

/-- The digits of an integer. -/
def digitCount (v : Int) : Nat := (decimal v.natAbs).length

theorem digitCount_pos (v : Int) : 0 < digitCount v :=
  List.length_pos_iff.mpr (decimal_ne_nil _)

theorem decimalInt_length_ofNat (n : Nat) :
    (decimalInt (.ofNat n)).length = digitCount (.ofNat n) := rfl

theorem decimalInt_length_negSucc (n : Nat) :
    (decimalInt (.negSucc n)).length = digitCount (.negSucc n) + 1 := rfl

/-- An integer that was cut is read up to the cut, if a digit is left. -/
theorem scanInt_take (v : Int) (k : Nat) :
    (scanInt ((decimalInt v ++ [125]).take k)).map Prod.fst =
      if (decimalInt v).length < k + digitCount v
      then some (v.tdiv ((10 ^ ((decimalInt v).length - k) : Nat) : Int)) else none := by
  cases v with
  | ofNat n =>
      cases k with
      | zero => rw [if_neg (by rw [decimalInt_length_ofNat]; omega), List.take_zero]; rfl
      | succ k =>
          have hread := scanDigits_take n (Nat.succ_pos k)
          rw [if_pos (by rw [decimalInt_length_ofNat]; omega)]
          change (scanInt ((decimal n ++ [125]).take (k + 1))).map Prod.fst = _
          cases hdigits : decimal n with
          | nil => exact absurd hdigits (decimal_ne_nil n)
          | cons c cs =>
              have hc : isDigit c = true := isDigit_of_mem_decimal (hdigits ▸ List.mem_cons_self)
              have h45 : c ≠ 45 := by rintro rfl; exact absurd hc (by decide)
              have h43 : c ≠ 43 := by rintro rfl; exact absurd hc (by decide)
              rw [hdigits, List.cons_append, List.take_succ_cons] at hread
              rw [List.cons_append, List.take_succ_cons, scanInt, if_neg h45, if_neg h43,
                Option.map_map]
              obtain ⟨r, hr, hvalue⟩ := Option.map_eq_some_iff.mp hread
              rw [hr, Option.map_some, Function.comp_apply, hvalue, ← hdigits]
              rfl
  | negSucc n =>
      rcases k with - | - | k
      · rw [if_neg (by rw [decimalInt_length_negSucc]; omega), List.take_zero]
        rfl
      · rw [if_neg (by rw [decimalInt_length_negSucc]; omega)]
        rfl
      · have hread := scanDigits_take (n + 1) (Nat.succ_pos k)
        rw [if_pos (by rw [decimalInt_length_negSucc]; omega)]
        change (scanInt (45 :: (decimal (n + 1) ++ [125]).take (k + 1))).map Prod.fst = _
        obtain ⟨r, hr, hvalue⟩ := Option.map_eq_some_iff.mp hread
        rw [scanInt, if_pos rfl, hr, Option.map_some, Option.map_some, hvalue,
          decimalInt_length_negSucc, Nat.add_sub_add_right]
        rfl

/-! ## The text in front of the VLAN -/

/-- What `config_load` expects up to the colon of the last field. -/
def frontDirectives : List ScanDirective :=
  (loadPieces.take 23).flatten ++
    ([.lit 44, .space, .space, .lit 34] ++ ((ascii "vlan_id").map .lit ++ [.lit 34]))

/-- The text up to and including that colon. -/
def frontText (cfg : DeskflowConfig) : Bytes :=
  ((settingsPieces cfg).take 21).flatten ++ ([44, 10, 32, 34] ++ (ascii "vlan_id" ++ [34, 58]))

/-- The values that are read there. -/
def frontValues (cfg : DeskflowConfig) : List ScanValue :=
  [.str cfg.server.bytes, .int cfg.port.toNat, .str cfg.deviceName.bytes,
    .int cfg.screenWidth.toNat, .int cfg.screenHeight.toNat, .int cfg.scaling.toNat,
    .int cfg.jiggleInterval.toNat, .str (keepAwakeText cfg.keepAwake),
    .int cfg.keyboardLayout.toNat]

theorem loadPieces_front :
    loadPieces.flatten = frontDirectives ++ [.lit 58] ++ [.space, .int, .lit 125] := by
  decide +kernel

theorem settingsPieces_front (cfg : DeskflowConfig) :
    (settingsPieces cfg).flatten =
      frontText cfg ++ 32 :: (decimalInt cfg.vlanId.toInt ++ [125]) := by
  simp only [frontText, settingsPieces, fieldStart, List.take_succ_cons, List.take_zero,
    List.flatten_cons, List.flatten_nil, List.append_assoc, List.cons_append, List.nil_append]

/-- Texts that the file can hold. -/
structure Storable (cfg : DeskflowConfig) : Prop where
  server : 34 ∉ cfg.server.bytes ∧ cfg.server.bytes ≠ []
  deviceName : 34 ∉ cfg.deviceName.bytes ∧ cfg.deviceName.bytes ≠ []

theorem scanf_front {cfg : DeskflowConfig} (h : Storable cfg) (ds : List ScanDirective)
    (rest : Bytes) :
    scanf (frontDirectives ++ [.lit 58] ++ ds) (frontText cfg ++ rest) =
      frontValues cfg ++ scanf ds rest := by
  have hserver : cfg.server.bytes.length ≤ 63 := Nat.le_of_lt_succ cfg.server.fits
  have hname : cfg.deviceName.bytes.length ≤ 31 := Nat.le_of_lt_succ cfg.deviceName.fits
  have hquote : ∀ bs : Bytes, (34 :: bs).dropWhile isSpace = 34 :: bs := fun bs => rfl
  have hnewline : ∀ bs : Bytes, (10 :: 32 :: 34 :: bs).dropWhile isSpace = 34 :: bs := fun bs => rfl
  have hcomma : ∀ bs : Bytes, ∀ b ∈ (44 :: bs).head?, isDigit b = false := by
    intro bs b hb
    cases hb
    rfl
  have hopening : ∀ (ds : List ScanDirective) (rest : Bytes),
      scanf (.lit 34 :: ds) (34 :: rest) = scanf ds rest := scanf_lits [34]
  have hhead : ∀ (ds : List ScanDirective) (rest : Bytes),
      scanf (.lit 123 :: .space :: ((ascii "\"server\":").map .lit ++ .space :: .lit 34 :: ds))
        (ascii "\x7b \"server\": \"" ++ rest) = scanf ds rest := scanf_head
  simp only [frontDirectives, frontText, frontValues, loadPieces, settingsPieces,
    List.take_succ_cons, List.take_zero, List.flatten_cons, List.flatten_nil, List.append_nil,
    List.append_assoc, List.cons_append, List.nil_append]
  rw [hhead, scanf_quoted _ _ h.server.2 hserver h.server.1,
    scanf_intField _ _ _ (fieldStart_not_digit _ _), scanf_fieldStart _ _ (hquote _), hopening,
    scanf_quoted _ _ h.deviceName.2 hname h.deviceName.1,
    scanf_intField _ _ _ (fieldStart_not_digit _ _),
    scanf_intField _ _ _ (fieldStart_not_digit _ _),
    scanf_intField _ _ _ (fieldStart_not_digit _ _),
    scanf_intField _ _ _ (fieldStart_not_digit _ _), scanf_keepAwake,
    scanf_intField _ _ _ (hcomma _)]
  simp only [scanf, if_true, hnewline, hquote, scanf_lits]

/-- The front is matched by itself, and not at all when it was cut. -/
theorem scanRest_front {cfg : DeskflowConfig} (h : Storable cfg) {rest : Bytes}
    (hne : rest ≠ []) :
    scanRest (frontDirectives ++ [.lit 58]) (frontText cfg ++ rest) = some rest :=
  scanRest_of_scanf hne fun es => scanf_front h es rest

/-! ## What is left of the settings -/

/-- The settings read from a file in which this many bytes are missing. -/
def tornConfig (cfg : DeskflowConfig) (lost : Nat) : DeskflowConfig :=
  if lost ≤ digitCount cfg.vlanId.toInt then
    { cfg with vlanId := Int16.ofInt (cfg.vlanId.toInt.tdiv ((10 ^ (lost - 1) : Nat) : Int)) }
  else configDefaults

/-- Too few values are the defaults. -/
theorem configOfScan_of_length {vs : List ScanValue} (h : vs.length ≤ 9) :
    configOfScan vs = configDefaults := by
  unfold configOfScan
  split
  · simp at h
  · rfl

theorem scanf_vlan (v : Int) (k : Nat) :
    scanf [.space, .int, .lit 125] ((32 :: (decimalInt v ++ [125])).take (k + 1)) =
      if (decimalInt v).length < k + digitCount v
      then [.int (v.tdiv ((10 ^ ((decimalInt v).length - k) : Nat) : Int))] else [] := by
  have hblank : ((32 :: (decimalInt v ++ [125])).take (k + 1)).dropWhile isSpace =
      (decimalInt v ++ [125]).take k := by
    rw [List.take_succ_cons, List.dropWhile_cons_of_pos rfl, dropWhile_take,
      decimalInt_head_not_space, Nat.sub_self, Nat.sub_zero]
  have hnumber : ((decimalInt v ++ [125]).take k).dropWhile isSpace =
      (decimalInt v ++ [125]).take k := by
    rw [dropWhile_take, decimalInt_head_not_space, Nat.sub_self, Nat.sub_zero]
  have hint : ∀ bs : Bytes, bs.dropWhile isSpace = bs →
      scanf [.int, .lit 125] bs = (((scanInt bs).map Prod.fst).map .int).toList := by
    intro bs hbs
    have hlast : ∀ rest, scanf [.lit 125] rest = [] := by
      intro rest
      cases rest with
      | nil => rfl
      | cons c cs =>
          simp only [scanf]
          split <;> rfl
    rw [scanf, hbs]
    cases scanInt bs with
    | none => rfl
    | some r => exact congrArg _ (hlast r.2)
  rw [scanf, hblank, hint _ hnumber, scanInt_take]
  split <;> rfl

/-- A file without its last bytes gives the settings up to the digits of the VLAN that are
missing, or the defaults. -/
theorem configOfScan_torn {cfg : DeskflowConfig} (h : Storable cfg) (n : Nat) :
    configOfScan (scanf loadPieces.flatten ((settingsPieces cfg).flatten.take n)) =
      tornConfig cfg ((settingsPieces cfg).flatten.length - n) := by
  have hlen : (settingsPieces cfg).flatten.length =
      (frontText cfg).length + ((decimalInt cfg.vlanId.toInt).length + 2) := by
    rw [settingsPieces_front, List.length_append, List.length_cons, List.length_append]
    rfl
  have hpos := digitCount_pos cfg.vlanId.toInt
  have hdigits : digitCount cfg.vlanId.toInt ≤ (decimalInt cfg.vlanId.toInt).length := by
    cases cfg.vlanId.toInt with
    | ofNat n => exact Nat.le_of_eq (decimalInt_length_ofNat n).symm
    | negSucc n => exact Nat.le_of_lt (Nat.lt_of_succ_le (decimalInt_length_negSucc n).ge)
  rw [hlen, tornConfig, loadPieces_front, settingsPieces_front]
  by_cases hfront : n < (frontText cfg).length
  · have hcut : scanRest (frontDirectives ++ [ScanDirective.lit 58])
        ((frontText cfg ++ 32 :: (decimalInt cfg.vlanId.toInt ++ [125])).take n) = none :=
      scanRest_take_eq_none (scanRest_front h (List.cons_ne_nil _ _)) (by
        rw [List.length_append]
        omega)
    have hfew := scanf_append_length_le [.space, .int, .lit 125] hcut
    have hnine : ((frontDirectives ++ [ScanDirective.lit 58]).filter
      ScanDirective.isConversion).length = 9 := by decide +kernel
    rw [configOfScan_of_length (hnine ▸ hfew), if_neg (by omega)]
  · obtain ⟨k, rfl⟩ : ∃ k, n = (frontText cfg).length + k :=
      ⟨n - (frontText cfg).length, by omega⟩
    rw [List.take_length_add_append, scanf_front h]
    cases k with
    | zero =>
        rw [configOfScan_of_length (by simp [frontValues, scanf, scanInt]), if_neg (by omega)]
    | succ k =>
        rw [scanf_vlan]
        by_cases hread : (decimalInt cfg.vlanId.toInt).length < k + digitCount cfg.vlanId.toInt
        · have hlost : (frontText cfg).length + ((decimalInt cfg.vlanId.toInt).length + 2) -
              ((frontText cfg).length + (k + 1)) - 1 =
                (decimalInt cfg.vlanId.toInt).length - k := by omega
          rw [if_pos hread, if_pos (by omega), hlost]
          simp only [frontValues, List.cons_append, List.nil_append, configOfScan, strncpy_bytes,
            uint16_ofInt_toNat, uint8_ofInt_toNat, keepAwake_of_text]
        · rw [if_neg hread, if_neg (by omega), List.append_nil,
            configOfScan_of_length (by simp [frontValues])]

/-! ## Which saves survive -/

theorem digitCount_le_one {v : Int} (h : v.natAbs < 10) : digitCount v ≤ 1 :=
  decimal_length_le (by decide) h

/-- A number of several digits is not the number without its last ones. -/
theorem ofInt_tdiv_ne {v : Int16} {k : Nat} (hk : k ≠ 0) (hv : 10 ≤ v.toInt.natAbs) :
    Int16.ofInt (v.toInt.tdiv ((10 ^ k : Nat) : Int)) ≠ v := by
  intro heq
  have hlow := v.le_toInt
  have hhigh := v.toInt_lt
  have hsmaller : (v.toInt.tdiv ((10 ^ k : Nat) : Int)).natAbs < v.toInt.natAbs := by
    rw [Int.natAbs_tdiv, Int.natAbs_natCast]
    exact Nat.div_lt_self (by omega) (Nat.one_lt_pow hk (by decide))
  have hvalue := congrArg Int16.toInt heq
  rw [Int16.toInt_ofInt_of_le (by omega) (by omega)] at hvalue
  rw [hvalue] at hsmaller
  exact Nat.lt_irrefl _ hsmaller

theorem tornConfig_of_le_one (cfg : DeskflowConfig) {lost : Nat} (h : lost ≤ 1) :
    tornConfig cfg lost = cfg := by
  have hpos := digitCount_pos cfg.vlanId.toInt
  rw [tornConfig, if_pos (Nat.le_trans h hpos), Nat.sub_eq_zero_of_le h]
  simp only [Nat.pow_zero, Int.natCast_one, Int.tdiv_one, Int16.ofInt_toInt]

theorem tornConfig_eq_iff (cfg : DeskflowConfig) (lost : Nat) :
    tornConfig cfg lost = cfg ↔ lost ≤ 1 ∨ cfg = configDefaults := by
  by_cases hbrace : lost ≤ 1
  · exact ⟨fun _ => .inl hbrace, fun _ => tornConfig_of_le_one cfg hbrace⟩
  · rw [or_iff_right hbrace, tornConfig]
    by_cases hdigit : lost ≤ digitCount cfg.vlanId.toInt
    · rw [if_pos hdigit]
      have hlarge : 10 ≤ cfg.vlanId.toInt.natAbs := by
        by_contra hsmall
        exact hbrace (Nat.le_trans hdigit (digitCount_le_one (Nat.lt_of_not_le hsmall)))
      constructor
      · intro heq
        exact absurd (congrArg DeskflowConfig.vlanId heq) (ofInt_tdiv_ne (by omega) hlarge)
      · rintro rfl
        exact absurd hlarge (by decide)
    · rw [if_neg hdigit]
      exact eq_comm

/-- A save that breaks off is reported as done, and the next boot finds the settings with the
digits of the VLAN that reached the stick, or else the defaults: never the settings that were
saved before, and the new ones only if no more than the closing brace is missing. -/
theorem configLoad_tornSave {cfg : DeskflowConfig} {io : SaveIo} {st : ConfigStore}
    (h : Storable cfg) (hmounted : st.mounted = true) (hopens : io.opens = true)
    (ram : DeskflowConfig) (boot : KeyboardLayout) :
    ∃ saved loaded text, settingsText cfg = some text ∧
      configSave cfg io st = some (.ok, saved) ∧ saved.sConfig = cfg ∧
      configLoad true { saved with sConfig := ram, layout := boot } = some (.ok, loaded) ∧
      loaded.sConfig = tornConfig cfg (text.length - io.written) ∧
      (loaded.sConfig = cfg ↔ text.length ≤ io.written + 1 ∨ cfg = configDefaults) := by
  have hsave : configSave cfg io st = some (.ok, { st with
      settings := some ((settingsPieces cfg).flatten.take io.written)
      sConfig := cfg
      layout := keycodesSetLayout st.layout cfg.keyboardLayout }) := by
    unfold configSave
    rw [if_neg (by simp [hmounted]), if_neg (by simp [hopens]), settingsText_eq, Option.map_some]
  refine ⟨_, _, _, settingsText_eq cfg, hsave, rfl, configLoad_settings hmounted rfl,
    configOfScan_torn h io.written, ?_⟩
  rw [configOfScan_torn h, tornConfig_eq_iff, Nat.sub_le_iff_le_add']

/-- Settings with a VLAN of four digits. -/
def vlanConfig : DeskflowConfig := { configDefaults with vlanId := 4094 }

/-- The stick is full after the third digit: the save is reported as done, and the next boot
joins VLAN 409. -/
theorem configLoad_tornSave_vlan :
    ∃ saved loaded, configSave vlanConfig ⟨true, 227⟩ emptyStick = some (.ok, saved) ∧
      configLoad true { saved with sConfig := configDefaults, layout := .us } =
        some (.ok, loaded) ∧
      loaded.sConfig = { vlanConfig with vlanId := 409 } := by
  obtain ⟨saved, loaded, text, htext, hsave, -, hload, htorn, -⟩ :=
    @configLoad_tornSave vlanConfig ⟨true, 227⟩ emptyStick ⟨by decide, by decide⟩ rfl rfl
      configDefaults .us
  have hlength : (settingsText vlanConfig).map List.length = some 229 := by decide +kernel
  rw [htext, Option.map_some] at hlength
  rw [Option.some.inj hlength] at htorn
  exact ⟨saved, loaded, hsave, hload, htorn.trans (by decide +kernel)⟩

end Esp32Deskflow.Config
