/-
  Config/RoundTrip.lean --- what `config_load` reads back from the file that
  `config_save` wrote.

  Both format strings are a head, nine times the start of a field with its value, and
  a closing brace.  The reader is taken through the text one field at a time.
-/
import Esp32Deskflow.Config.Config

set_option autoImplicit false

namespace Esp32Deskflow.Config

open Esp32Deskflow.Foundation Esp32Deskflow.Libc Esp32Deskflow.Tusb

/-! ## The layout of the file -/

/-- The text from the comma before a field up to its value. -/
def fieldStart (key : Bytes) : Bytes := [44, 10, 32, 34] ++ (key ++ [34, 58, 32])

/-- What the reader expects there. -/
def fieldStartDirectives (key : Bytes) : List ScanDirective :=
  [.lit 44, .space, .space, .lit 34] ++ (key.map .lit ++ [.lit 34, .lit 58, .space])

/-- The text of the value of `keep_awake`. -/
def keepAwakeText (keepAwake : Bool) : Bytes :=
  if keepAwake then ascii "true" else ascii "false"

/-- The text of the settings, piece by piece. -/
def settingsPieces (cfg : DeskflowConfig) : List Bytes :=
  [ascii "\x7b \"server\": \"", cfg.server.bytes, [34],
    fieldStart (ascii "port"), decimalInt cfg.port.toNat,
    fieldStart (ascii "device_name"), [34], cfg.deviceName.bytes, [34],
    fieldStart (ascii "screen_width"), decimalInt cfg.screenWidth.toNat,
    fieldStart (ascii "screen_height"), decimalInt cfg.screenHeight.toNat,
    fieldStart (ascii "scaling"), decimalInt cfg.scaling.toNat,
    fieldStart (ascii "jiggle_interval"), decimalInt cfg.jiggleInterval.toNat,
    fieldStart (ascii "keep_awake"), keepAwakeText cfg.keepAwake,
    fieldStart (ascii "keyboard_layout"), decimalInt cfg.keyboardLayout.toNat,
    fieldStart (ascii "vlan_id"), decimalInt cfg.vlanId.toInt, [125]]

/-- The directives of `config_save`, piece by piece. -/
def savePieces : List (List PrintDirective) :=
  [(ascii "\x7b \"server\": \"").map .lit, [.str], [34].map .lit,
    (fieldStart (ascii "port")).map .lit, [.unsigned],
    (fieldStart (ascii "device_name")).map .lit, [34].map .lit, [.str], [34].map .lit,
    (fieldStart (ascii "screen_width")).map .lit, [.unsigned],
    (fieldStart (ascii "screen_height")).map .lit, [.unsigned],
    (fieldStart (ascii "scaling")).map .lit, [.unsigned],
    (fieldStart (ascii "jiggle_interval")).map .lit, [.unsigned],
    (fieldStart (ascii "keep_awake")).map .lit, [.str],
    (fieldStart (ascii "keyboard_layout")).map .lit, [.unsigned],
    (fieldStart (ascii "vlan_id")).map .lit, [.signed], [125].map .lit]

/-- The directives of `config_load`, piece by piece. -/
def loadPieces : List (List ScanDirective) :=
  [[.lit 123, .space], (ascii "\"server\":").map .lit, [.space, .lit 34],
    [.scanset 63 [34]], [.lit 34],
    fieldStartDirectives (ascii "port"), [.int],
    fieldStartDirectives (ascii "device_name"), [.lit 34], [.scanset 31 [34]], [.lit 34],
    fieldStartDirectives (ascii "screen_width"), [.int],
    fieldStartDirectives (ascii "screen_height"), [.int],
    fieldStartDirectives (ascii "scaling"), [.int],
    fieldStartDirectives (ascii "jiggle_interval"), [.int],
    fieldStartDirectives (ascii "keep_awake"), [.scanset 7 [44, 10]],
    fieldStartDirectives (ascii "keyboard_layout"), [.int],
    fieldStartDirectives (ascii "vlan_id"), [.int], [.lit 125]]

theorem parsePrintf_saveFormat : parsePrintf saveFormat = some savePieces.flatten := by
  decide +kernel

theorem parseScanf_loadFormat : parseScanf .plain loadFormat = some loadPieces.flatten := by
  decide +kernel

theorem settingsText_eq (cfg : DeskflowConfig) :
    settingsText cfg = some (settingsPieces cfg).flatten := by
  have hbrace : printf ([(125 : UInt8)].map .lit) [] = some [125] := rfl
  unfold settingsText
  rw [parsePrintf_saveFormat]
  simp only [savePieces, settingsPieces, keepAwakeText, List.flatten_cons, List.flatten_nil,
    Option.bind_some, printf_lits, List.cons_append, List.nil_append, printf, Option.map_some,
    List.append_nil, hbrace]

/-- Every save has a result. -/
theorem configSave_defined (cfg : DeskflowConfig) (io : SaveIo) (st : ConfigStore) :
    ∃ err st', configSave cfg io st = some (err, st') := by
  unfold configSave
  rw [settingsText_eq, Option.map_some]
  split_ifs <;> exact ⟨_, _, rfl⟩

/-! ## One field at a time -/

/-- The start of a field is read over, up to its value. -/
theorem scanf_fieldStart (key : Bytes) (ds : List ScanDirective) {rest : Bytes}
    (hrest : rest.dropWhile isSpace = rest) :
    scanf (fieldStartDirectives key ++ ds) (fieldStart key ++ rest) = scanf ds rest := by
  have hquote : ∀ bs : Bytes, (34 :: bs).dropWhile isSpace = 34 :: bs := fun bs => rfl
  have hnewline : ∀ bs : Bytes, (10 :: 32 :: 34 :: bs).dropWhile isSpace = 34 :: bs := fun bs => rfl
  have hblank : ∀ bs : Bytes, (32 :: bs).dropWhile isSpace = bs.dropWhile isSpace := fun bs => rfl
  simp only [fieldStartDirectives, fieldStart, List.cons_append, List.nil_append, scanf, if_true,
    hnewline, hquote, List.append_assoc, scanf_lits, hblank, hrest]

/-- An integer field is read back if no digit follows it. -/
theorem scanf_intField (key : Bytes) (n : Int) (ds : List ScanDirective) {rest : Bytes}
    (hrest : ∀ b ∈ rest.head?, isDigit b = false) :
    scanf (fieldStartDirectives key ++ .int :: ds) (fieldStart key ++ (decimalInt n ++ rest)) =
      .int n :: scanf ds rest := by
  rw [scanf_fieldStart key _ (decimalInt_head_not_space n rest), scanf_int n ds hrest]

/-- A quoted string in a field without quotes is read back if it is not empty. -/
theorem scanf_quoted {width : Nat} {s : Bytes} (ds : List ScanDirective) (rest : Bytes)
    (hne : s ≠ []) (hwidth : s.length ≤ width) (hquote : 34 ∉ s) :
    scanf (.scanset width [34] :: .lit 34 :: ds) (s ++ 34 :: rest) = .str s :: scanf ds rest := by
  have hs : ∀ c ∈ s, [(34 : UInt8)].contains c = false := by
    intro c hc
    have hne34 : c ≠ 34 := fun h => hquote (h ▸ hc)
    simp [hne34]
  rw [scanf_scanset _ hne hwidth hs (by decide)]
  simp only [scanf, if_true]

/-- An empty quoted string ends the scan. -/
theorem scanf_quoted_empty (width : Nat) (ds : List ScanDirective) (rest : Bytes) :
    scanf (.scanset width [34] :: ds) (34 :: rest) = [] :=
  scanf_scanset_stop rest ds (by decide)

/-- The field `keep_awake` is read up to the comma of the next field. -/
theorem scanf_keepAwake (b : Bool) (ds : List ScanDirective) (key rest : Bytes) :
    scanf (fieldStartDirectives (ascii "keep_awake") ++ .scanset 7 [44, 10] :: ds)
        (fieldStart (ascii "keep_awake") ++ (keepAwakeText b ++ (fieldStart key ++ rest))) =
      .str (keepAwakeText b) :: scanf ds (fieldStart key ++ rest) := by
  have hne : keepAwakeText b ≠ [] := by cases b <;> decide
  have hwidth : (keepAwakeText b).length ≤ 7 := by cases b <;> decide
  have hs : ∀ c ∈ keepAwakeText b, [(44 : UInt8), 10].contains c = false := by
    intro c hc
    have hno : (keepAwakeText b).all (fun c => !([(44 : UInt8), 10].contains c)) = true := by
      cases b <;> rfl
    exact (Bool.not_eq_true' _).mp (List.all_eq_true.mp hno c hc)
  have hcomma : fieldStart key ++ rest =
      44 :: ([10, 32, 34] ++ (key ++ [34, 58, 32]) ++ rest) := rfl
  have hblank : (keepAwakeText b ++ (fieldStart key ++ rest)).dropWhile isSpace =
      keepAwakeText b ++ (fieldStart key ++ rest) := by cases b <;> rfl
  rw [scanf_fieldStart _ _ hblank, hcomma]
  exact scanf_scanset ds hne hwidth hs (by decide)

/-! ## The whole file -/

/-- The text before the first value is read over. -/
theorem scanf_head (ds : List ScanDirective) (rest : Bytes) :
    scanf ([ScanDirective.lit 123, .space] ++ ((ascii "\"server\":").map .lit ++
        ([ScanDirective.space, .lit 34] ++ ds)))
      (ascii "\x7b \"server\": \"" ++ rest) = scanf ds rest := by
  have htext : ascii "\x7b \"server\": \"" = 123 :: 32 :: (ascii "\"server\":" ++ [32, 34]) := by
    decide
  have hblank : ∀ bs : Bytes, (32 :: (ascii "\"server\":" ++ bs)).dropWhile isSpace =
      ascii "\"server\":" ++ bs := fun bs => rfl
  have hquote : ∀ bs : Bytes, (32 :: 34 :: bs).dropWhile isSpace = 34 :: bs := fun bs => rfl
  simp only [htext, List.cons_append, List.nil_append, List.append_assoc, scanf, if_true, hblank,
    scanf_lits, hquote]

theorem fieldStart_not_digit (key rest : Bytes) :
    ∀ b ∈ (fieldStart key ++ rest).head?, isDigit b = false := by
  intro b hb
  have h44 : b = 44 := (Option.some.inj hb).symm
  rw [h44]
  rfl

/-- Reading the text of the settings as far as the value of `server`. -/
theorem scanf_settings_server (cfg : DeskflowConfig) :
    scanf loadPieces.flatten (settingsPieces cfg).flatten =
      scanf (loadPieces.drop 3).flatten ((settingsPieces cfg).drop 1).flatten :=
  scanf_head _ _

/-- Reading the text of the settings from the value of `server` as far as the value of
`device_name`. -/
theorem scanf_settings_deviceName {cfg : DeskflowConfig} (hserver : 34 ∉ cfg.server.bytes)
    (hne : cfg.server.bytes ≠ []) :
    scanf (loadPieces.drop 3).flatten ((settingsPieces cfg).drop 1).flatten =
      .str cfg.server.bytes :: .int cfg.port.toNat ::
        scanf (loadPieces.drop 9).flatten ((settingsPieces cfg).drop 7).flatten := by
  have hfits : cfg.server.bytes.length ≤ 63 := Nat.le_of_lt_succ cfg.server.fits
  have hquote : ∀ bs : Bytes, (34 :: bs).dropWhile isSpace = 34 :: bs := fun bs => rfl
  simp only [loadPieces, settingsPieces, List.drop_succ_cons, List.drop_zero, List.flatten_cons,
    List.cons_append, List.nil_append]
  rw [scanf_quoted _ _ hne hfits hserver, scanf_intField _ _ _ (fieldStart_not_digit _ _),
    scanf_fieldStart _ _ (hquote _)]
  simp only [scanf, if_true]

/-- Reading the rest of the text, from the value of `device_name` on. -/
theorem scanf_settings_rest {cfg : DeskflowConfig} (hname : 34 ∉ cfg.deviceName.bytes)
    (hne : cfg.deviceName.bytes ≠ []) :
    scanf (loadPieces.drop 9).flatten ((settingsPieces cfg).drop 7).flatten =
      [.str cfg.deviceName.bytes, .int cfg.screenWidth.toNat, .int cfg.screenHeight.toNat,
        .int cfg.scaling.toNat, .int cfg.jiggleInterval.toNat,
        .str (keepAwakeText cfg.keepAwake), .int cfg.keyboardLayout.toNat,
        .int cfg.vlanId.toInt] := by
  have hfits : cfg.deviceName.bytes.length ≤ 31 := Nat.le_of_lt_succ cfg.deviceName.fits
  have hbrace : ∀ b ∈ ([125] : Bytes).head?, isDigit b = false := by
    intro b hb
    rw [← Option.some.inj hb]
    rfl
  simp only [loadPieces, settingsPieces, List.drop_succ_cons, List.drop_zero, List.flatten_cons,
    List.flatten_nil, List.append_nil, List.cons_append, List.nil_append]
  rw [scanf_quoted _ _ hne hfits hname, scanf_intField _ _ _ (fieldStart_not_digit _ _),
    scanf_intField _ _ _ (fieldStart_not_digit _ _),
    scanf_intField _ _ _ (fieldStart_not_digit _ _),
    scanf_intField _ _ _ (fieldStart_not_digit _ _), scanf_keepAwake,
    scanf_intField _ _ _ (fieldStart_not_digit _ _), scanf_intField _ _ _ hbrace]
  rfl

theorem uint16_ofInt_toNat (v : UInt16) : UInt16.ofInt (v.toNat : Int) = v := by
  have hlt := v.toNat_lt
  have hmod : ((v.toNat : Int) % 2 ^ 16).toNat = v.toNat := by omega
  rw [UInt16.ofInt, hmod, UInt16.ofNat_toNat]

theorem uint8_ofInt_toNat (v : UInt8) : UInt8.ofInt (v.toNat : Int) = v := by
  have hlt := v.toNat_lt
  have hmod : ((v.toNat : Int) % 2 ^ 8).toNat = v.toNat := by omega
  rw [UInt8.ofInt, hmod, UInt8.ofNat_toNat]

theorem keepAwake_of_text (b : Bool) : (cString (keepAwakeText b) == ascii "true") = b := by
  cases b <;> decide

/-- The settings are those of the file if neither string is empty, and the defaults
otherwise. -/
theorem configOfScan_settings {cfg : DeskflowConfig} (hserver : 34 ∉ cfg.server.bytes)
    (hname : 34 ∉ cfg.deviceName.bytes) :
    configOfScan (scanf loadPieces.flatten (settingsPieces cfg).flatten) =
      if cfg.server.bytes ≠ [] ∧ cfg.deviceName.bytes ≠ [] then cfg else configDefaults := by
  rw [scanf_settings_server]
  by_cases hserverNe : cfg.server.bytes = []
  · have hstop : scanf (loadPieces.drop 3).flatten ((settingsPieces cfg).drop 1).flatten = [] := by
      simp only [loadPieces, settingsPieces, List.drop_succ_cons, List.drop_zero,
        List.flatten_cons, List.cons_append, List.nil_append, hserverNe]
      exact scanf_quoted_empty _ _ _
    rw [hstop, if_neg fun h => h.1 hserverNe]
    rfl
  · rw [scanf_settings_deviceName hserver hserverNe]
    by_cases hnameNe : cfg.deviceName.bytes = []
    · have hstop :
          scanf (loadPieces.drop 9).flatten ((settingsPieces cfg).drop 7).flatten = [] := by
        simp only [loadPieces, settingsPieces, List.drop_succ_cons, List.drop_zero,
          List.flatten_cons, List.cons_append, List.nil_append, hnameNe]
        exact scanf_quoted_empty _ _ _
      rw [hstop, if_neg fun h => h.2 hnameNe]
      rfl
    · rw [scanf_settings_rest hname hnameNe, if_pos ⟨hserverNe, hnameNe⟩]
      simp only [configOfScan, strncpy_bytes, uint16_ofInt_toNat, uint8_ofInt_toNat,
        Int16.ofInt_toInt, keepAwake_of_text]

/-- The USB stick after a save whose whole text reached the file. -/
theorem configSave_of_io {cfg : DeskflowConfig} {io : SaveIo} {st : ConfigStore}
    (hmounted : st.mounted = true) (hopens : io.opens = true)
    (hwritten : ∀ text, settingsText cfg = some text → text.length ≤ io.written) :
    configSave cfg io st = some (.ok, { st with
      settings := some (settingsPieces cfg).flatten
      sConfig := cfg
      layout := keycodesSetLayout st.layout cfg.keyboardLayout }) := by
  have hall := hwritten _ (settingsText_eq cfg)
  unfold configSave
  rw [if_neg (by rw [hmounted]; decide), if_neg (by rw [hopens]; decide), settingsText_eq,
    Option.map_some, List.take_of_length_le hall]

/-- Loading the text of the settings. -/
theorem configLoad_settings {st : ConfigStore} {text : Bytes} (hmounted : st.mounted = true)
    (hsettings : st.settings = some text) :
    configLoad true st = some (.ok, { st with
      sConfig := configOfScan (scanf loadPieces.flatten text)
      layout := keycodesSetLayout st.layout
        (configOfScan (scanf loadPieces.flatten text)).keyboardLayout }) := by
  unfold configLoad
  rw [if_neg (by rw [hmounted]; decide), hsettings]
  simp only [parseScanf_loadFormat, Option.map_some]

/-- A save that succeeds, followed by a reboot (which leaves nothing of the variables
`ram` and `boot`) and a load, restores the settings exactly if neither the server nor the
device name is empty. -/
theorem configLoad_configSave_iff {cfg : DeskflowConfig} {io : SaveIo} {st : ConfigStore}
    (hserver : 34 ∉ cfg.server.bytes) (hname : 34 ∉ cfg.deviceName.bytes)
    (hmounted : st.mounted = true) (hopens : io.opens = true)
    (hwritten : ∀ text, settingsText cfg = some text → text.length ≤ io.written)
    (ram : DeskflowConfig) (boot : KeyboardLayout) :
    ∃ saved loaded, configSave cfg io st = some (.ok, saved) ∧
      configLoad true { saved with sConfig := ram, layout := boot } = some (.ok, loaded) ∧
      (loaded.sConfig = cfg ↔ cfg.server.bytes ≠ [] ∧ cfg.deviceName.bytes ≠ []) := by
  refine ⟨_, _, configSave_of_io hmounted hopens hwritten, configLoad_settings hmounted rfl, ?_⟩
  simp only [configOfScan_settings hserver hname]
  constructor
  · intro heq
    by_contra hempty
    rw [if_neg hempty] at heq
    rw [← heq] at hempty
    exact hempty (by decide)
  · intro hne
    rw [if_pos hne]

/-- A mounted stick without a settings file. -/
def emptyStick : ConfigStore where
  mounted := true
  settings := none
  sConfig := configDefaults
  layout := .us

theorem configLoad_configSave_iff_defaults :
    ∃ saved loaded, configSave configDefaults ⟨true, 1000⟩ emptyStick = some (.ok, saved) ∧
      configLoad true { saved with sConfig := configDefaults, layout := .us } =
        some (.ok, loaded) ∧
      (loaded.sConfig = configDefaults ↔
        configDefaults.server.bytes ≠ [] ∧ configDefaults.deviceName.bytes ≠ []) := by
  have hlen : ∀ text, settingsText configDefaults = some text → text.length ≤ 1000 := by
    decide +kernel
  exact configLoad_configSave_iff (by decide) (by decide) rfl rfl hlen configDefaults .us

/-- Settings with a server but without a device name. -/
def unnamedConfig : DeskflowConfig :=
  { configDefaults with
    server := strncpy 64 serverSize_pos (ascii "10.0.0.5")
    deviceName := strncpy 32 deviceNameSize_pos [] }

/-- After an empty device name was saved, the next load falls back to the defaults: the
server is lost as well. -/
theorem configLoad_configSave_unnamed :
    34 ∉ unnamedConfig.server.bytes ∧ 34 ∉ unnamedConfig.deviceName.bytes ∧
    ∃ saved loaded, configSave unnamedConfig ⟨true, 1000⟩ emptyStick = some (.ok, saved) ∧
      saved.settings = settingsText unnamedConfig ∧
      configLoad true { saved with sConfig := configDefaults, layout := .us } =
        some (.ok, loaded) ∧
      loaded.sConfig = configDefaults ∧ loaded.sConfig ≠ unnamedConfig := by
  have hlen : ∀ text, settingsText unnamedConfig = some text → text.length ≤ 1000 := by
    decide +kernel
  have hdefaults : configOfScan (scanf loadPieces.flatten (settingsPieces unnamedConfig).flatten) =
      configDefaults := by
    decide +kernel
  refine ⟨by decide, by decide, _, _, configSave_of_io rfl rfl hlen, (settingsText_eq _).symm,
    configLoad_settings rfl rfl, hdefaults, ?_⟩
  rw [show _ = configDefaults from hdefaults]
  decide

end Esp32Deskflow.Config
