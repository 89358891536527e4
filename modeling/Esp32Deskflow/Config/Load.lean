/-
  Config/Load.lean --- `config_load` on the arrays of `s_config`.

  The settings are filled in place: the defaults over whatever was there, then the
  file's values over the defaults, through local variables that a scan may fill only
  in part.  A write outside of an array, a string without an end and the use of a
  variable that was never set have no result here, and no load needs one of them.
-/
import Esp32Deskflow.Config.RoundTrip

set_option autoImplicit false

namespace Esp32Deskflow.Config

open Esp32Deskflow.Foundation Esp32Deskflow.Libc Esp32Deskflow.Tusb

/-! ## The variables -/

/-- `s_config`, with all bytes of its two arrays. -/
structure RawConfig where
  server : Buffer 64
  port : UInt16
  deviceName : Buffer 32
  keepAwake : Bool
  jiggleInterval : UInt16
  screenWidth : UInt16
  screenHeight : UInt16
  scaling : UInt16
  keyboardLayout : UInt8
  vlanId : Int16
  deriving DecidableEq, Repr

/-- The arrays that hold the settings and are zero behind the strings. -/
def RawConfig.of (cfg : DeskflowConfig) : RawConfig where
  server := cfg.server.array
  port := cfg.port
  deviceName := cfg.deviceName.array
  keepAwake := cfg.keepAwake
  jiggleInterval := cfg.jiggleInterval
  screenWidth := cfg.screenWidth
  screenHeight := cfg.screenHeight
  scaling := cfg.scaling
  keyboardLayout := cfg.keyboardLayout
  vlanId := cfg.vlanId

/-- The local variables of `config_load`; an integer is `none` until it is assigned. -/
structure LoadLocals where
  server : Buffer 64
  deviceName : Buffer 32
  keepStr : Buffer 8
  port : Option Int
  sw : Option Int
  sh : Option Int
  sc : Option Int
  ji : Option Int
  kl : Option Int
  vid : Option Int
  deriving DecidableEq, Repr

/-- The local variables before the scan: only the arrays are initialised. -/
def LoadLocals.declared : LoadLocals where
  server := Buffer.zeroed 64
  deviceName := Buffer.zeroed 32
  keepStr := Buffer.zeroed 8
  port := none
  sw := none
  sh := none
  sc := none
  ji := none
  kl := none
  vid := none

/-! ## Loading in place -/

/-- `config_load_defaults` on the arrays. -/
def loadDefaultsRaw (c : RawConfig) : Option RawConfig := do
  let server ← strncpyInto c.server (ascii "192.168.1.10" ++ [0]) 63
  let server ← server.write 63 [0]
  let deviceName ← strncpyInto c.deviceName (ascii "deskflow-client" ++ [0]) 31
  let deviceName ← deviceName.write 31 [0]
  some {
    server := server
    port := 24800
    deviceName := deviceName
    keepAwake := false
    jiggleInterval := 30
    screenWidth := 1920
    screenHeight := 1080
    scaling := 100
    keyboardLayout := 0
    vlanId := -1 }

/-- What `fscanf` does with an argument of `%[`: the string and its terminator are stored. -/
def storeStr {cap : Nat} (set : Buffer cap → LoadLocals) (old : Buffer cap) :
    ScanValue → Option LoadLocals
  | .str s => (old.write 0 (s ++ [0])).map set
  | .int _ => none

/-- What `fscanf` does with an argument of `%d`. -/
def storeInt (set : Option Int → LoadLocals) : ScanValue → Option LoadLocals
  | .int n => some (set (some n))
  | .str _ => none

/-- The arguments of the `fscanf` call. -/
def loadArgs : List (ScanValue → LoadLocals → Option LoadLocals) :=
  [fun x v => storeStr (fun b => { v with server := b }) v.server x,
    fun x v => storeInt (fun n => { v with port := n }) x,
    fun x v => storeStr (fun b => { v with deviceName := b }) v.deviceName x,
    fun x v => storeInt (fun n => { v with sw := n }) x,
    fun x v => storeInt (fun n => { v with sh := n }) x,
    fun x v => storeInt (fun n => { v with sc := n }) x,
    fun x v => storeInt (fun n => { v with ji := n }) x,
    fun x v => storeStr (fun b => { v with keepStr := b }) v.keepStr x,
    fun x v => storeInt (fun n => { v with kl := n }) x,
    fun x v => storeInt (fun n => { v with vid := n }) x]

/-- The assignments to `s_config` after a scan that returned ten. -/
def applyLocals (v : LoadLocals) (c : RawConfig) : Option RawConfig := do
  let server ← strncpyInto c.server v.server.bytes 63
  let port ← v.port
  let deviceName ← strncpyInto c.deviceName v.deviceName.bytes 31
  let sw ← v.sw
  let sh ← v.sh
  let sc ← v.sc
  let ji ← v.ji
  let kl ← v.kl
  let vid ← v.vid
  some {
    server := server
    port := UInt16.ofInt port
    deviceName := deviceName
    screenWidth := UInt16.ofInt sw
    screenHeight := UInt16.ofInt sh
    scaling := UInt16.ofInt sc
    jiggleInterval := UInt16.ofInt ji
    keepAwake := cString v.keepStr.bytes == ascii "true"
    keyboardLayout := UInt8.ofInt kl
    vlanId := Int16.ofInt vid }

/-- `config_load` on the arrays, with the state of the stick that it finds. -/
def configLoadRaw (mounted opens : Bool) (settings : Option Bytes) (c : RawConfig) :
    Option RawConfig := do
  let c ← loadDefaultsRaw c
  if mounted = false then some c
  else
    match opens, settings with
    | true, some text => do
        let directives ← parseScanf .plain loadFormat
        let values := scanf directives text
        let v ← storeScan loadArgs values .declared
        if values.length = 10 then applyLocals v c else some c
    | _, _ => some c

/-! ## What the scan leaves in the local variables -/

/-- The conversions of the input format. -/
def loadConversions : List ScanDirective :=
  [.scanset 63 [34], .int, .scanset 31 [34], .int, .int, .int, .int, .scanset 7 [44, 10],
    .int, .int]

theorem loadPieces_conversions :
    loadPieces.flatten.filter ScanDirective.isConversion = loadConversions := by
  decide +kernel

/-- What a string variable holds after its conversion. -/
theorem write_terminated {cap : Nat} (old : Buffer cap) {s : Bytes} (hs : s.length < cap) :
    ∃ b, old.write 0 (s ++ [0]) = some b ∧ 0 ∈ b.bytes ∧ cString b.bytes = cString s := by
  obtain ⟨b, hb⟩ : ∃ b, old.write 0 (s ++ [0]) = some b := by
    refine old.exists_write ?_
    rw [List.length_append, List.length_singleton]
    omega
  have hbytes := Buffer.write_eq_some hb
  rw [List.take_zero, List.nil_append, List.append_assoc, List.singleton_append] at hbytes
  refine ⟨b, hb, ?_, ?_⟩
  · rw [hbytes]
    exact List.mem_append_right _ List.mem_cons_self
  · rw [hbytes, cString_append_nul]

/-- A string that its scan set can match fits its array, with the terminator. -/
theorem storeStr_defined {cap width : Nat} {stop : List UInt8} (hwidth : width < cap)
    (set : Buffer cap → LoadLocals) (old : Buffer cap) {x : ScanValue}
    (hx : (ScanDirective.scanset width stop).Assigns x) :
    ∃ v, storeStr set old x = some v := by
  cases x with
  | int n => exact hx.elim
  | str s =>
      obtain ⟨hlen, -⟩ := hx
      obtain ⟨b, hb, -⟩ := write_terminated old (Nat.lt_of_le_of_lt hlen hwidth)
      exact ⟨set b, by rw [storeStr, hb, Option.map_some]⟩

theorem storeInt_defined (set : Option Int → LoadLocals) {x : ScanValue}
    (hx : ScanDirective.int.Assigns x) : ∃ v, storeInt set x = some v := by
  cases x with
  | int n => exact ⟨_, rfl⟩
  | str s => exact hx.elim

/-- Every argument takes what its conversion assigns. -/
theorem loadArgs_take : List.Forall₂ (fun d (arg : ScanValue → LoadLocals → Option LoadLocals) =>
    ∀ x, d.Assigns x → ∀ v, ∃ v', arg x v = some v') loadConversions loadArgs := by
  refine .cons ?server (.cons ?port (.cons ?name (.cons ?sw (.cons ?sh (.cons ?sc (.cons ?ji
    (.cons ?keep (.cons ?kl (.cons ?vid .nil)))))))))
  case server | name | keep => exact fun x hx v => storeStr_defined (by decide) _ _ hx
  case port | sw | sh | sc | ji | kl | vid => exact fun x hx v => storeInt_defined _ hx

/-- Wherever the scan stops, its values were stored inside of the local variables. -/
theorem storeScan_load (text : Bytes) :
    ∃ v, storeScan loadArgs (scanf loadPieces.flatten text) .declared = some v := by
  have hvalues := scanf_assigns loadPieces.flatten text
  rw [loadPieces_conversions] at hvalues
  exact storeScan_defined loadArgs_take hvalues _

/-- A scan of ten values is one of three strings that fit and seven integers. -/
theorem scan_complete {text : Bytes} (h : (scanf loadPieces.flatten text).length = 10) :
    ∃ server port deviceName sw sh sc ji keepStr kl vid,
      scanf loadPieces.flatten text = [.str server, .int port, .str deviceName, .int sw, .int sh,
        .int sc, .int ji, .str keepStr, .int kl, .int vid] ∧
      server.length ≤ 63 ∧ deviceName.length ≤ 31 ∧ keepStr.length ≤ 7 := by
  have hvalues := scanf_assigns loadPieces.flatten text
  rw [h, loadPieces_conversions] at hvalues
  have hint {x : ScanValue} (hx : ScanDirective.int.Assigns x) : ∃ n, x = .int n := by
    cases x with
    | int n => exact ⟨n, rfl⟩
    | str s => exact hx.elim
  have hstr {width : Nat} {stop : List UInt8} {x : ScanValue}
      (hx : (ScanDirective.scanset width stop).Assigns x) :
      ∃ s, x = .str s ∧ s.length ≤ width := by
    cases x with
    | int n => exact hx.elim
    | str s => exact ⟨s, rfl, hx.1⟩
  generalize scanf loadPieces.flatten text = values at hvalues
  rcases hvalues with _ | ⟨hserver, _ | ⟨hport, _ | ⟨hname, _ | ⟨hsw, _ | ⟨hsh, _ | ⟨hsc,
    _ | ⟨hji, _ | ⟨hkeep, _ | ⟨hkl, _ | ⟨hvid, _ | _⟩⟩⟩⟩⟩⟩⟩⟩⟩⟩
  obtain ⟨server, rfl, hserverLen⟩ := hstr hserver
  obtain ⟨port, rfl⟩ := hint hport
  obtain ⟨deviceName, rfl, hnameLen⟩ := hstr hname
  obtain ⟨sw, rfl⟩ := hint hsw
  obtain ⟨sh, rfl⟩ := hint hsh
  obtain ⟨sc, rfl⟩ := hint hsc
  obtain ⟨ji, rfl⟩ := hint hji
  obtain ⟨keepStr, rfl, hkeepLen⟩ := hstr hkeep
  obtain ⟨kl, rfl⟩ := hint hkl
  obtain ⟨vid, rfl⟩ := hint hvid
  exact ⟨server, port, deviceName, sw, sh, sc, ji, keepStr, kl, vid, rfl, hserverLen, hnameLen,
    hkeepLen⟩

/-! ## What the load leaves in `s_config` -/

/-- The defaults replace every byte of the settings that were there before. -/
theorem loadDefaultsRaw_eq (c : RawConfig) :
    loadDefaultsRaw c = some (RawConfig.of configDefaults) := by
  have hserver : ((strncpyInto c.server (ascii "192.168.1.10" ++ [0]) 63).bind
      fun dst => dst.write 63 [0]) = some (RawConfig.of configDefaults).server := by
    rw [strncpyInto_terminated c.server (.inl (by decide))]
    rfl
  have hname : ((strncpyInto c.deviceName (ascii "deskflow-client" ++ [0]) 31).bind
      fun dst => dst.write 31 [0]) = some (RawConfig.of configDefaults).deviceName := by
    rw [strncpyInto_terminated c.deviceName (.inl (by decide))]
    rfl
  obtain ⟨server, hcopyServer, hserver⟩ := Option.bind_eq_some_iff.mp hserver
  obtain ⟨deviceName, hcopyName, hname⟩ := Option.bind_eq_some_iff.mp hname
  simp only [loadDefaultsRaw, bind, hcopyServer, hcopyName, Option.bind_some, hserver, hname]
  rfl

/-- All ten values reach `s_config`. -/
theorem applyLocals_scan {server deviceName keepStr : Bytes} (port sw sh sc ji kl vid : Int)
    (hserver : server.length ≤ 63) (hname : deviceName.length ≤ 31) (hkeep : keepStr.length ≤ 7) :
    ∃ v, storeScan loadArgs [.str server, .int port, .str deviceName, .int sw, .int sh, .int sc,
        .int ji, .str keepStr, .int kl, .int vid] .declared = some v ∧
      applyLocals v (RawConfig.of configDefaults) =
        some (RawConfig.of (configOfScan [.str server, .int port, .str deviceName, .int sw,
          .int sh, .int sc, .int ji, .str keepStr, .int kl, .int vid])) := by
  obtain ⟨bs, hbs, hbs0, hbsStr⟩ :=
    write_terminated LoadLocals.declared.server (Nat.lt_succ_of_le hserver)
  obtain ⟨bn, hbn, hbn0, hbnStr⟩ :=
    write_terminated LoadLocals.declared.deviceName (Nat.lt_succ_of_le hname)
  obtain ⟨bk, hbk, -, hbkStr⟩ :=
    write_terminated LoadLocals.declared.keepStr (Nat.lt_succ_of_le hkeep)
  refine ⟨⟨bs, bn, bk, some port, some sw, some sh, some sc, some ji, some kl, some vid⟩, ?_, ?_⟩
  · simp only [storeScan, loadArgs, storeStr, storeInt, hbs, hbn, hbk, Option.map_some,
      Option.bind_some]
  · have hcopyServer : strncpyInto (RawConfig.of configDefaults).server bs.bytes 63 =
        some (strncpy 64 (by decide) server).array := by
      rw [strncpyInto_eq (by decide) (.inl hbs0)]
      refine congrArg (fun s => some (CStr.array s)) (CStr.ext_bytes ?_)
      exact congrArg (List.take 63) hbsStr
    have hcopyName : strncpyInto (RawConfig.of configDefaults).deviceName bn.bytes 31 =
        some (strncpy 32 (by decide) deviceName).array := by
      rw [strncpyInto_eq (by decide) (.inl hbn0)]
      refine congrArg (fun s => some (CStr.array s)) (CStr.ext_bytes ?_)
      exact congrArg (List.take 31) hbnStr
    simp only [applyLocals, hcopyServer, hcopyName, hbkStr, configOfScan]
    rfl

/-- A scan that stops early leaves the defaults. -/
theorem configOfScan_incomplete {values : List ScanValue} (h : values.length ≠ 10) :
    configOfScan values = configDefaults := by
  unfold configOfScan
  split
  · exact absurd rfl h
  · rfl

/-- The file's part of the load, over the defaults. -/
theorem storeScan_applyLocals (text : Bytes) :
    ((storeScan loadArgs (scanf loadPieces.flatten text) .declared).bind fun v =>
      if (scanf loadPieces.flatten text).length = 10 then
        applyLocals v (RawConfig.of configDefaults)
      else some (RawConfig.of configDefaults)) =
      some (RawConfig.of (configOfScan (scanf loadPieces.flatten text))) := by
  by_cases hten : (scanf loadPieces.flatten text).length = 10
  · obtain ⟨server, port, deviceName, sw, sh, sc, ji, keepStr, kl, vid, hscan, hserver, hname,
      hkeep⟩ := scan_complete hten
    obtain ⟨v, hv, happly⟩ := applyLocals_scan port sw sh sc ji kl vid hserver hname hkeep
    simp only [hscan, hv, Option.bind_some, happly]
    exact if_pos rfl
  · obtain ⟨v, hv⟩ := storeScan_load text
    simp only [if_neg hten, hv, Option.bind_some, configOfScan_incomplete hten]

/-- A load takes the settings of an open file, or it leaves the keyboard layout alone and
takes the defaults. -/
theorem configLoad_cases (opens : Bool) (st : ConfigStore) :
    (∃ text, st.mounted = true ∧ opens = true ∧ st.settings = some text ∧
      configLoad opens st = some (.ok, { st with
        sConfig := configOfScan (scanf loadPieces.flatten text)
        layout := keycodesSetLayout st.layout
          (configOfScan (scanf loadPieces.flatten text)).keyboardLayout })) ∨
    ((st.mounted = false ∨ opens = false ∨ st.settings = none) ∧
      configLoad opens st = some (.ok, { st with sConfig := configDefaults })) := by
  obtain ⟨mounted, settings, cfg, layout⟩ := st
  cases mounted with
  | false => exact .inr ⟨.inl rfl, rfl⟩
  | true =>
      cases opens with
      | false => exact .inr ⟨.inr (.inl rfl), rfl⟩
      | true =>
          cases settings with
          | none => exact .inr ⟨.inr (.inr rfl), rfl⟩
          | some text => exact .inl ⟨text, rfl, rfl, rfl, configLoad_settings rfl rfl⟩

/-- The load in place leaves the settings that `configLoad` computes. -/
theorem configLoadRaw_refines {opens : Bool} {st st' : ConfigStore} {err : EspErr}
    (h : configLoad opens st = some (err, st')) (c : RawConfig) :
    configLoadRaw st.mounted opens st.settings c = some (RawConfig.of st'.sConfig) := by
  unfold configLoadRaw
  simp only [bind, loadDefaultsRaw_eq, Option.bind_some]
  rcases configLoad_cases opens st with ⟨text, hmounted, rfl, hsettings, hload⟩ | ⟨hnone, hload⟩
  · rw [hload] at h
    cases h
    rw [if_neg (by rw [hmounted]; decide), hsettings]
    simp only [parseScanf_loadFormat, Option.bind_some]
    exact storeScan_applyLocals text
  · rw [hload] at h
    cases h
    split
    · rfl
    · rename_i hmounted
      split
      · rename_i hsettings
        rcases hnone with hfalse | hfalse | hfalse
        · exact absurd hfalse hmounted
        · cases hfalse
        · cases hsettings.symm.trans hfalse
      · rfl

/-! ## All or nothing -/

/-- The ten fields are the values that a scan assigned, narrowed to their types. -/
def RawConfig.HoldsScan (c : RawConfig) (values : List ScanValue) : Prop :=
  ∃ server port deviceName sw sh sc ji keepStr kl vid,
    values = [.str server, .int port, .str deviceName, .int sw, .int sh, .int sc, .int ji,
      .str keepStr, .int kl, .int vid] ∧
    cString c.server.bytes = cString server ∧ c.port = UInt16.ofInt port ∧
    cString c.deviceName.bytes = cString deviceName ∧
    c.screenWidth = UInt16.ofInt sw ∧ c.screenHeight = UInt16.ofInt sh ∧
    c.scaling = UInt16.ofInt sc ∧ c.jiggleInterval = UInt16.ofInt ji ∧
    c.keepAwake = (cString keepStr == ascii "true") ∧
    c.keyboardLayout = UInt8.ofInt kl ∧ c.vlanId = Int16.ofInt vid

/-- The arrays of `s_config` after a scan of the format either hold what was read or the
defaults. -/
theorem configOfScan_holds (text : Bytes) :
    configOfScan (scanf loadPieces.flatten text) = configDefaults ∨
      (RawConfig.of (configOfScan (scanf loadPieces.flatten text))).HoldsScan
        (scanf loadPieces.flatten text) := by
  by_cases hten : (scanf loadPieces.flatten text).length = 10
  · obtain ⟨server, port, deviceName, sw, sh, sc, ji, keepStr, kl, vid, hscan, hserver, hname,
      -⟩ := scan_complete hten
    rw [hscan]
    refine .inr ⟨server, port, deviceName, sw, sh, sc, ji, keepStr, kl, vid, rfl, ?_, rfl, ?_, rfl,
      rfl, rfl, rfl, rfl, rfl, rfl⟩
    · refine (CStr.array_terminated _).2.trans (List.take_of_length_le ?_)
      exact le_trans (List.takeWhile_prefix _).length_le hserver
    · refine (CStr.array_terminated _).2.trans (List.take_of_length_le ?_)
      exact le_trans (List.takeWhile_prefix _).length_le hname
  · exact .inl (configOfScan_incomplete hten)

/-- Whatever the file holds and whatever `s_config` held before, a load leaves the defaults
in all fields or the values of the file in all fields, and both strings end inside of their
arrays. -/
theorem configLoadRaw_all_or_nothing (mounted opens : Bool) (settings : Option Bytes)
    (c : RawConfig) :
    ∃ c', configLoadRaw mounted opens settings c = some c' ∧
      0 ∈ c'.server.bytes ∧ 0 ∈ c'.deviceName.bytes ∧
      (c' = RawConfig.of configDefaults ∨
        ∃ text directives, mounted = true ∧ opens = true ∧ settings = some text ∧
          parseScanf .plain loadFormat = some directives ∧
          c'.HoldsScan (scanf directives text)) := by
  rcases configLoad_cases opens ⟨mounted, settings, configDefaults, .us⟩ with
    ⟨text, hmounted, hopens, hsettings, hload⟩ | ⟨-, hload⟩
  · refine ⟨_, configLoadRaw_refines hload c, (CStr.array_terminated _).1,
      (CStr.array_terminated _).1, ?_⟩
    rcases configOfScan_holds text with hdefaults | hholds
    · exact .inl (congrArg RawConfig.of hdefaults)
    · exact .inr ⟨text, _, hmounted, hopens, hsettings, parseScanf_loadFormat, hholds⟩
  · exact ⟨_, configLoadRaw_refines hload c, (CStr.array_terminated _).1,
      (CStr.array_terminated _).1, .inl rfl⟩

end Esp32Deskflow.Config
