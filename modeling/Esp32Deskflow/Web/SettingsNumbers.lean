/-
  Web/SettingsNumbers.lean --- the integers of a settings request.

  Each numeric field goes through `strtoul` or `strtol` and a cast to its type, and only
  then through a check, if there is one.  The conversion takes an integer of any size to
  32 bits and the cast to the remainder, so the field may receive another number.
-/
import Esp32Deskflow.Network.EthNetwork
import Esp32Deskflow.Web.SettingsPost

set_option autoImplicit false

namespace Esp32Deskflow.Web

open Esp32Deskflow.Foundation Esp32Deskflow.Libc Esp32Deskflow.Config Esp32Deskflow.Network

/-! ## The fields -/

/-- The fields of the settings that hold a number. -/
inductive NumericField where
  | port
  | screenWidth
  | screenHeight
  | scaling
  | jiggleInterval
  | keyboardLayout
  | vlanId
  deriving DecidableEq, Repr

/-- What the handler searches for. -/
def NumericField.key : NumericField → Bytes
  | .port => portKey
  | .screenWidth => screenWidthKey
  | .screenHeight => screenHeightKey
  | .scaling => scalingKey
  | .jiggleInterval => jiggleIntervalKey
  | .keyboardLayout => keyboardLayoutKey
  | .vlanId => vlanIdKey

/-- The number in the settings. -/
def NumericField.value (cfg : DeskflowConfig) : NumericField → Int
  | .port => cfg.port.toNat
  | .screenWidth => cfg.screenWidth.toNat
  | .screenHeight => cfg.screenHeight.toNat
  | .scaling => cfg.scaling.toNat
  | .jiggleInterval => cfg.jiggleInterval.toNat
  | .keyboardLayout => cfg.keyboardLayout.toNat
  | .vlanId => cfg.vlanId.toInt

/-! ## Conversion and cast in the integers -/

/-- What is left of an integer after `strtoul` and a cast to `w` bits. -/
def reducedUnsigned (w : Nat) (n : Int) : Int :=
  if 2 ^ 32 ≤ n.natAbs then 2 ^ w - 1 else n % 2 ^ w

/-- What is left of an integer after `strtol` and a cast to `int16_t`. -/
def reducedVlan (n : Int) : Int := (max (min n (2 ^ 31 - 1)) (-2 ^ 31)).bmod (2 ^ 16)

/-- A VLAN, or -1 for none. -/
def VlanNumber (n : Int) : Prop := n = -1 ∨ 1 ≤ n ∧ n ≤ 4094

instance (n : Int) : Decidable (VlanNumber n) := inferInstanceAs (Decidable (_ ∨ _))

theorem isVlan_iff (vid : Int16) : IsVlan vid ↔ VlanNumber vid.toInt := by
  rw [IsVlan, VlanNumber, ← Int16.toInt_inj, Int16.le_iff_toInt_le, Int16.le_iff_toInt_le]
  rfl

theorem reducedVlan_of_vlanNumber {n : Int} (h : VlanNumber n) : reducedVlan n = n := by
  unfold VlanNumber at h
  rw [reducedVlan, min_eq_left (by omega), max_eq_left (by omega)]
  exact Int.bmod_eq_of_le (by omega) (by omega)

theorem reducedUnsigned_uint16 (n : Int) :
    ((if 2 ^ 32 ≤ n.natAbs then 0xFFFFFFFF else UInt32.ofInt n : UInt32).toUInt16.toNat : Int) =
      reducedUnsigned 16 n := by
  have hword := uint32_toNat_ofInt n
  unfold reducedUnsigned
  split
  · rfl
  · rw [UInt32.toNat_toUInt16]
    omega

theorem reducedUnsigned_uint8 (n : Int) :
    ((if 2 ^ 32 ≤ n.natAbs then 0xFFFFFFFF else UInt32.ofInt n : UInt32).toUInt8.toNat : Int) =
      reducedUnsigned 8 n := by
  have hword := uint32_toNat_ofInt n
  unfold reducedUnsigned
  split
  · rfl
  · rw [UInt32.toNat_toUInt8]
    omega

theorem reducedVlan_int16 (n : Int) :
    (Int32.ofInt (max (min n (2 ^ 31 - 1)) (-2 ^ 31))).toInt16.toInt = reducedVlan n := by
  rw [Int32.toInt_toInt16, Int32.toInt_ofInt_of_le (by omega) (by omega)]
  rfl

/-- A reduced integer is the integer exactly if that is in the range of the type. -/
theorem reducedUnsigned_eq_iff {w : Nat} (hw : w ≤ 16) (n : Int) :
    reducedUnsigned w n = n ↔ 0 ≤ n ∧ n < 2 ^ w := by
  have hpow : (2 : Int) ^ w ≤ 2 ^ 16 := pow_le_pow_right₀ (by decide) hw
  have hpos : (0 : Int) < 2 ^ w := pow_pos (by decide) w
  unfold reducedUnsigned
  split
  · constructor
    · intro heq
      omega
    · intro hrange
      omega
  · constructor
    · intro heq
      exact ⟨heq ▸ Int.emod_nonneg n hpos.ne', heq ▸ Int.emod_lt_of_pos n hpos⟩
    · rintro ⟨hlow, hhigh⟩
      exact Int.emod_eq_of_lt hlow hhigh

/-! ## One field -/

section

variable {buf text key rest : Bytes} {n : Int}

theorem numberField_of_int {β : Type} (h : Holds buf text) (hafter : after key text = some rest)
    (hint : StartsWithInt rest n) (old : β) (cast : UInt32 → β) :
    numberField buf key old cast =
      some (cast (if 2 ^ 32 ≤ n.natAbs then 0xFFFFFFFF else UInt32.ofInt n)) := by
  obtain ⟨s, hs, hdrop, hfield⟩ := keyedField_found h hafter old fun s => (strtoul buf s).map cast
  rw [numberField, hfield, strtoul_of_startsWithInt h hs (hdrop ▸ hint), Option.map_some]

/-- A 16-bit field receives the remainder. -/
theorem numberField_uint16 (h : Holds buf text) (hafter : after key text = some rest)
    (hint : StartsWithInt rest n) {old new : UInt16}
    (hfield : numberField buf key old UInt32.toUInt16 = some new) :
    (new.toNat : Int) = reducedUnsigned 16 n := by
  rw [numberField_of_int h hafter hint] at hfield
  rw [← Option.some.inj hfield, reducedUnsigned_uint16]

theorem numberField_uint8 (h : Holds buf text) (hafter : after key text = some rest)
    (hint : StartsWithInt rest n) {old new : UInt8}
    (hfield : numberField buf key old UInt32.toUInt8 = some new) :
    (new.toNat : Int) = reducedUnsigned 8 n := by
  rw [numberField_of_int h hafter hint] at hfield
  rw [← Option.some.inj hfield, reducedUnsigned_uint8]

/-- The VLAN is checked after the cast. -/
theorem vlanField_of_int (h : Holds buf text) (hafter : after key text = some rest)
    (hint : StartsWithInt rest n) {old new : Int16} (hfield : vlanField buf key old = some new) :
    new.toInt = if VlanNumber (reducedVlan n) then reducedVlan n else old.toInt := by
  obtain ⟨s, hs, hdrop, hread⟩ := keyedField_found h hafter old _
  rw [vlanField, hread, strtol_of_startsWithInt h hs (hdrop ▸ hint), Option.map_some] at hfield
  have hvid := reducedVlan_int16 n
  have hvlan := isVlan_iff (Int32.ofInt (max (min n (2 ^ 31 - 1)) (-2 ^ 31))).toInt16
  rw [hvid] at hvlan
  rw [← Option.some.inj hfield]
  by_cases hnumber : VlanNumber (reducedVlan n)
  · rw [if_pos hnumber]
    exact (congrArg Int16.toInt (if_pos (hvlan.mpr hnumber))).trans hvid
  · rw [if_neg hnumber]
    exact congrArg Int16.toInt (if_neg (mt hvlan.mp hnumber))

end

/-- Where each number of the settings comes from. -/
theorem settingsOfBody_numbers {buf : Bytes} {old cfg : DeskflowConfig}
    (h : settingsOfBody buf old = some cfg) :
    numberField buf portKey old.port UInt32.toUInt16 = some cfg.port ∧
    numberField buf screenWidthKey old.screenWidth UInt32.toUInt16 = some cfg.screenWidth ∧
    numberField buf screenHeightKey old.screenHeight UInt32.toUInt16 = some cfg.screenHeight ∧
    numberField buf scalingKey old.scaling UInt32.toUInt16 = some cfg.scaling ∧
    numberField buf jiggleIntervalKey old.jiggleInterval UInt32.toUInt16 =
      some cfg.jiggleInterval ∧
    numberField buf keyboardLayoutKey old.keyboardLayout UInt32.toUInt8 =
      some cfg.keyboardLayout ∧
    vlanField buf vlanIdKey old.vlanId = some cfg.vlanId := by
  simp only [settingsOfBody, Option.bind_eq_bind, Option.pure_def, Option.bind_eq_some_iff] at h
  obtain ⟨server, -, deviceName, -, port, hport, sw, hsw, sh, hsh, sc, hsc, ji, hji, ka, -, kl, hkl,
    vid, hvid, hcfg⟩ := h
  cases hcfg
  exact ⟨hport, hsw, hsh, hsc, hji, hkl, hvid⟩

/-! ## Stored exactly or not at all -/

/-- The field holds the integer or is unchanged; a changed VLAN is one, and the registers
take it as it is. -/
structure StoredExactly (f : NumericField) (n : Int) (old new : DeskflowConfig) : Prop where
  exact : f.value new = n ∨ f.value new = f.value old
  vlan : f = .vlanId → f.value new ≠ f.value old →
    VlanNumber n ∧ ∀ emacEtv regs, ethSetVlan emacEtv new.vlanId regs =
      if n = -1 then ⟨0, 0⟩ else vlanRegs emacEtv (UInt32.ofInt n)

/-- The integer is in the range of the field, or what the conversion and the cast leave of
it is the number that is there already, or no VLAN. -/
def NumericField.Takes (f : NumericField) (n : Int) (old : DeskflowConfig) : Prop :=
  match f with
  | .port | .screenWidth | .screenHeight | .scaling | .jiggleInterval =>
      0 ≤ n ∧ n < 2 ^ 16 ∨ reducedUnsigned 16 n = f.value old
  | .keyboardLayout => 0 ≤ n ∧ n < 2 ^ 8 ∨ reducedUnsigned 8 n = f.value old
  | .vlanId =>
      VlanNumber n ∨ ¬ VlanNumber (reducedVlan n) ∨ reducedVlan n = f.value old

/-- A field other than the VLAN that receives the reduced integer. -/
theorem storedExactly_unsigned_iff {f : NumericField} {n : Int} {old new : DeskflowConfig}
    {w : Nat} (hw : w ≤ 16) (hf : f ≠ .vlanId) (hnew : f.value new = reducedUnsigned w n) :
    StoredExactly f n old new ↔ 0 ≤ n ∧ n < 2 ^ w ∨ reducedUnsigned w n = f.value old := by
  rw [← reducedUnsigned_eq_iff hw, ← hnew]
  exact ⟨StoredExactly.exact, fun h => ⟨h, fun hvlan => absurd hvlan hf⟩⟩

/-- What `eth_set_vlan` writes for a VLAN number. -/
theorem ethSetVlan_vlanNumber {vid : Int16} (h : VlanNumber vid.toInt) (emacEtv : UInt32)
    (regs : VlanRegs) : ethSetVlan emacEtv vid regs =
      if vid.toInt = -1 then ⟨0, 0⟩ else vlanRegs emacEtv (UInt32.ofInt vid.toInt) := by
  rcases h with hnone | ⟨hlow, hhigh⟩
  · have hvid : vid = -1 := Int16.toInt_inj.mp hnone
    rw [if_pos hnone, ethSetVlan, if_pos hvid]
  · rw [ethSetVlan_vlan emacEtv hlow hhigh, if_neg (by omega)]

theorem storedExactly_vlan_iff {n : Int} {old new : DeskflowConfig}
    (hnew : new.vlanId.toInt =
      if VlanNumber (reducedVlan n) then reducedVlan n else old.vlanId.toInt) :
    StoredExactly .vlanId n old new ↔ NumericField.Takes .vlanId n old := by
  have hset := fun h => @ethSetVlan_vlanNumber new.vlanId h
  constructor
  · rintro ⟨hexact, hvlan⟩
    by_cases hnumber : VlanNumber (reducedVlan n)
    · rw [if_pos hnumber] at hnew
      by_cases hold : reducedVlan n = NumericField.value old .vlanId
      · exact .inr (.inr hold)
      · have hchanged : NumericField.value new .vlanId ≠ NumericField.value old .vlanId :=
          fun heq => hold (hnew.symm.trans heq)
        exact .inl (hvlan rfl hchanged).1
    · exact .inr (.inl hnumber)
  · intro htakes
    by_cases hsame : NumericField.value new .vlanId = NumericField.value old .vlanId
    · exact ⟨.inr hsame, fun _ hne => absurd hsame hne⟩
    · have hn : VlanNumber n ∧ new.vlanId.toInt = n := by
        rcases htakes with hvlan | hnone | hold
        · rw [reducedVlan_of_vlanNumber hvlan, if_pos hvlan] at hnew
          exact ⟨hvlan, hnew⟩
        · rw [if_neg hnone] at hnew
          exact absurd hnew hsame
        · rw [hold] at hnew
          exact absurd (hnew.trans (ite_self _)) hsame
      obtain ⟨hvlan, hvalue⟩ := hn
      rw [hvalue] at hset
      exact ⟨.inl hvalue, fun _ _ => ⟨hvlan, hset hvlan⟩⟩

/-- An integer of any size behind the first occurrence of a field's key is stored exactly or
not at all if and only if the field takes it. -/
theorem storedExactly_iff (f : NumericField) {buf text rest : Bytes} {n : Int}
    {old new : DeskflowConfig} (h : Holds buf text) (hafter : after f.key text = some rest)
    (hint : StartsWithInt rest n) (hnew : settingsOfBody buf old = some new) :
    StoredExactly f n old new ↔ f.Takes n old := by
  obtain ⟨hport, hsw, hsh, hsc, hji, hkl, hvid⟩ := settingsOfBody_numbers hnew
  cases f with
  | port =>
      exact storedExactly_unsigned_iff (Nat.le_refl _) nofun
        (numberField_uint16 h hafter hint hport)
  | screenWidth =>
      exact storedExactly_unsigned_iff (Nat.le_refl _) nofun (numberField_uint16 h hafter hint hsw)
  | screenHeight =>
      exact storedExactly_unsigned_iff (Nat.le_refl _) nofun (numberField_uint16 h hafter hint hsh)
  | scaling =>
      exact storedExactly_unsigned_iff (Nat.le_refl _) nofun (numberField_uint16 h hafter hint hsc)
  | jiggleInterval =>
      exact storedExactly_unsigned_iff (Nat.le_refl _) nofun (numberField_uint16 h hafter hint hji)
  | keyboardLayout =>
      exact storedExactly_unsigned_iff (by decide) nofun (numberField_uint8 h hafter hint hkl)
  | vlanId => exact storedExactly_vlan_iff (vlanField_of_int h hafter hint hvid)

/-! ## The handler -/

/-- For every request whose body is read, and an integer of any size behind the first
occurrence of the key of a numeric field: the settings that the handler passes on hold
exactly that integer, or the field unchanged, if and only if the field takes it. -/
theorem settingsPost_storedExactly_iff (peers : WebPeers) (io : SaveIo) (st : ConfigStore)
    {req : HttpRequest} {body rest : Bytes} (hlen : req.contentLen ≤ 1023)
    (hreceived : req.received = some body) (hne : body ≠ []) (f : NumericField) {n : Int}
    (hafter : after f.key (cString body) = some rest) (hint : StartsWithInt rest n) :
    ∃ out cfg, settingsPostHandler peers io req st = some out ∧ out.passed = some cfg ∧
      (StoredExactly f n st.sConfig cfg ↔ f.Takes n st.sConfig) := by
  have hfits := req.received_le body hreceived
  obtain ⟨buf, hbuf, hholds⟩ := write_zeroed (show body.length < 1024 by omega)
  obtain ⟨cfg, hcfg, -⟩ := settingsOfBody_safe hholds (List.infix_refl _) st.sConfig
  obtain ⟨out, hout, hpassed⟩ :=
    settingsPostHandler_of_body peers io st hlen hreceived hne hbuf hcfg
  exact ⟨out, cfg, hout, hpassed, storedExactly_iff f hholds hafter hint hcfg⟩

/-- A port and a VLAN whose remainders are a port and a VLAN. -/
def largeNumbers : Bytes := ascii "\x7b\"port\":70000,\"vlan_id\":65537\x7d"

theorem largeNumbers_port : after portKey (cString largeNumbers) =
    some (ascii "70000,\"vlan_id\":65537\x7d") := by decide +kernel

theorem startsWithInt_port : StartsWithInt (ascii "70000,\"vlan_id\":65537\x7d") 70000 := by
  refine ⟨[], [], ascii "70000", ascii ",\"vlan_id\":65537\x7d", by decide +kernel, nofun, .inl rfl,
    by decide +kernel, by decide +kernel, ?_, rfl⟩
  rintro b ⟨⟩
  rfl

theorem settingsPost_storedExactly_iff_port :
    ∃ out cfg, settingsPostHandler ⟨true, true⟩ ⟨true, 1000⟩ (.whole largeNumbers)
        ⟨true, none, configDefaults, .us⟩ = some out ∧ out.passed = some cfg ∧
      (StoredExactly .port 70000 configDefaults cfg ↔
        NumericField.Takes .port 70000 configDefaults) :=
  settingsPost_storedExactly_iff ⟨true, true⟩ ⟨true, 1000⟩ ⟨true, none, configDefaults, .us⟩
    (show largeNumbers.length ≤ 1023 by decide +kernel) rfl (by decide +kernel) .port
    largeNumbers_port startsWithInt_port

/-- Port 70000 becomes 4464, and 65537, which is no VLAN, becomes VLAN 1. -/
theorem not_storedExactly_largeNumbers :
    ∃ out cfg, settingsPostHandler ⟨true, true⟩ ⟨true, 1000⟩ (.whole largeNumbers)
        ⟨true, none, configDefaults, .us⟩ = some out ∧ out.passed = some cfg ∧
      cfg.port = 4464 ∧ cfg.vlanId = 1 ∧ ¬ StoredExactly .port 70000 configDefaults cfg ∧
      ¬ StoredExactly .vlanId 65537 configDefaults cfg := by
  have hview : (settingsPostHandler ⟨true, true⟩ ⟨true, 1000⟩ (.whole largeNumbers)
      ⟨true, none, configDefaults, .us⟩).bind (fun out =>
        out.passed.map fun cfg => (cfg.port, cfg.vlanId)) = some (4464, 1) := by decide +kernel
  obtain ⟨out, hout, hpassed⟩ := Option.bind_eq_some_iff.mp hview
  obtain ⟨cfg, hcfg, hfields⟩ := Option.map_eq_some_iff.mp hpassed
  obtain ⟨hport, hvlan⟩ := Prod.mk.inj hfields
  refine ⟨out, cfg, hout, hcfg, hport, hvlan, ?_, ?_⟩
  · rintro ⟨hexact, -⟩
    simp only [NumericField.value, hport] at hexact
    exact absurd hexact (by decide)
  · rintro ⟨hexact, -⟩
    simp only [NumericField.value, hvlan] at hexact
    exact absurd hexact (by decide)

end Esp32Deskflow.Web
