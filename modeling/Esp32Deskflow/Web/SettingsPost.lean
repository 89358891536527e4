/-
  Web/SettingsPost.lean --- `settings_post_handler`: the settings sent by the settings page.

  The handler does not parse the body.  It searches it once for each field, and reads
  the field behind its name.
-/
import Esp32Deskflow.Config.RoundTrip
import Esp32Deskflow.Foundation.CompactJson
import Esp32Deskflow.Web.HttpRequest
import Mathlib.Algebra.Order.BigOperators.Group.List

set_option autoImplicit false

namespace Esp32Deskflow.Web

open Esp32Deskflow.Foundation Esp32Deskflow.Libc Esp32Deskflow.Config

/-! ## One field -/

/-- A text ends at the next quote; it is kept out if there is none or if it is too long. -/
def textField {cap : Nat} (buf key : Bytes) (old : CStr cap) : Option (CStr cap) :=
  keyedField buf key old fun s =>
    (strchr buf s 34).bind fun
      | none => some old
      | some e => if e - s < cap then copyString cap buf s (e - s) else some old

/-- A number that is converted by `strtoul` and a cast. -/
def numberField {β : Type} (buf key : Bytes) (old : β) (cast : UInt32 → β) : Option β :=
  keyedField buf key old fun s => (strtoul buf s).map cast

/-- `vlan_id`: a value that is no VLAN is not taken over. -/
def vlanField (buf key : Bytes) (old : Int16) : Option Int16 :=
  keyedField buf key old fun s =>
    (strtol buf s).map fun n =>
      let vid := n.toInt16
      if vid = -1 ∨ 1 ≤ vid ∧ vid ≤ 4094 then vid else old

/-! ## The handler -/

/-- The name of the field `server`, with quotes, colon and opening quote. -/
def serverKey : Bytes := ascii "\"server\":\""

/-- The same of `device_name`. -/
def deviceNameKey : Bytes := ascii "\"device_name\":\""

/-- The name of the field `port`, with quotes and colon. -/
def portKey : Bytes := ascii "\"port\":"

/-- The same of `screen_width`. -/
def screenWidthKey : Bytes := ascii "\"screen_width\":"

/-- The same of `screen_height`. -/
def screenHeightKey : Bytes := ascii "\"screen_height\":"

/-- The same of `scaling`. -/
def scalingKey : Bytes := ascii "\"scaling\":"

/-- The same of `jiggle_interval`. -/
def jiggleIntervalKey : Bytes := ascii "\"jiggle_interval\":"

/-- The same of `keep_awake`. -/
def keepAwakeKey : Bytes := ascii "\"keep_awake\":"

/-- The same of `keyboard_layout`. -/
def keyboardLayoutKey : Bytes := ascii "\"keyboard_layout\":"

/-- The same of `vlan_id`. -/
def vlanIdKey : Bytes := ascii "\"vlan_id\":"

/-- The settings that the handler makes of its buffer and of the settings in force. -/
def settingsOfBody (buf : Bytes) (old : DeskflowConfig) : Option DeskflowConfig := do
  let server ← textField buf serverKey old.server
  let deviceName ← textField buf deviceNameKey old.deviceName
  let port ← numberField buf portKey old.port UInt32.toUInt16
  let screenWidth ← numberField buf screenWidthKey old.screenWidth UInt32.toUInt16
  let screenHeight ← numberField buf screenHeightKey old.screenHeight UInt32.toUInt16
  let scaling ← numberField buf scalingKey old.scaling UInt32.toUInt16
  let jiggleInterval ← numberField buf jiggleIntervalKey old.jiggleInterval UInt32.toUInt16
  let keepAwake ← numberField buf keepAwakeKey old.keepAwake (· != 0)
  let keyboardLayout ← numberField buf keyboardLayoutKey old.keyboardLayout UInt32.toUInt8
  let vlanId ← vlanField buf vlanIdKey old.vlanId
  return { server, port, deviceName, keepAwake, jiggleInterval, screenWidth, screenHeight,
           scaling, keyboardLayout, vlanId }

/-- What a call of the handler returns, what it passed to `config_save`, what it left in the
store, and what it did. -/
structure SettingsPosted where
  ret : EspErr
  passed : Option DeskflowConfig
  store : ConfigStore
  actions : List WebAction
  deriving DecidableEq, Repr

/-- `settings_post_handler`. -/
def settingsPostHandler (peers : WebPeers) (io : SaveIo) (req : HttpRequest) (st : ConfigStore) :
    Option SettingsPosted :=
  if 1024 - 1 < req.contentLen then
    some ⟨.ok, none, st, [.respond .contentTooLarge (ascii "Payload too large")]⟩
  else
    match req.received with
    | none | some [] => some ⟨.ok, none, st, [.respond .badRequest (ascii "Bad request")]⟩
    | some body => do
        let buf ← (Buffer.zeroed 1024).write 0 body
        let cfg ← settingsOfBody buf.bytes st.sConfig
        let (err, st') ← configSave cfg io st
        if err ≠ .ok then
          return ⟨.fail, some cfg, st', [.respond .internalServerError (ascii "Save failed")]⟩
        else
          let changed :=
            if st.sConfig.vlanId ≠ cfg.vlanId then [.ethReconfigOneShot] else peers.setReconnect
          return ⟨.ok, some cfg, st',
            changed ++ (peers.notifyClient ++ [.respond .ok (ascii "\"saved\"")])⟩

/-! ## One field, on a buffer that holds a text -/

section

variable {buf text key rest : Bytes}

theorem textField_safe {cap : Nat} (h : Holds buf text) (key : Bytes) (old : CStr cap) :
    ∃ v, textField buf key old = some v ∧ (¬ key <:+: text → v = old) := by
  refine keyedField_safe h key old fun s hs => ?_
  rw [strchr_of_holds h hs, Option.bind_some]
  cases hquote : (text.drop s).idxOf? 34 with
  | none => exact ⟨old, rfl⟩
  | some n =>
      obtain ⟨hn, _⟩ := List.idxOf?_eq_some_iff.mp hquote
      rw [List.length_drop] at hn
      simp only [Option.map_some, Nat.add_sub_cancel_left]
      split
      · rename_i hfits
        obtain ⟨v, hv, _⟩ := copyString_of_holds h (i := s) (n := n) (by omega) hfits
        exact ⟨v, hv⟩
      · exact ⟨old, rfl⟩

theorem numberField_safe {β : Type} (h : Holds buf text) (key : Bytes) (old : β)
    (cast : UInt32 → β) :
    ∃ v, numberField buf key old cast = some v ∧ (¬ key <:+: text → v = old) := by
  refine keyedField_safe h key old fun s hs => ?_
  rw [strtoul, stringAt_of_holds h hs]
  exact ⟨_, rfl⟩

theorem vlanField_safe (h : Holds buf text) (key : Bytes) (old : Int16) :
    ∃ v, vlanField buf key old = some v ∧ (¬ key <:+: text → v = old) := by
  refine keyedField_safe h key old fun s hs => ?_
  rw [strtol, stringAt_of_holds h hs]
  exact ⟨_, rfl⟩

/-- A text behind its key is taken over if it fits. -/
theorem textField_reads {cap : Nat} (h : Holds buf text) (v : CStr cap)
    (hafter : after key text = some (v.bytes ++ 34 :: rest)) (hquote : 34 ∉ v.bytes)
    (old : CStr cap) : textField buf key old = some v := by
  obtain ⟨s, hs, hdrop, hfield⟩ := keyedField_found h hafter old _
  have hlen := congrArg List.length hdrop
  simp only [List.length_drop, List.length_append, List.length_cons] at hlen
  obtain ⟨t, ht, hbytes⟩ := copyString_of_holds h (i := s) (n := v.bytes.length) (by omega) v.fits
  have htv : t = v := by
    refine CStr.ext_bytes ?_
    rw [hbytes, hdrop]
    exact List.take_left
  rw [textField, hfield, strchr_of_holds h hs, Option.bind_some, hdrop,
    idxOf_append_mark hquote, Option.map_some]
  simp only [Nat.add_sub_cancel_left]
  rw [if_pos v.fits, ht, htv]

/-- A number ends where its value ends. -/
theorem not_digit_of_endsValue {sep : UInt8} (hsep : EndsValue sep) (rest : Bytes) :
    ∀ b ∈ (sep :: rest).head?, isDigit b = false := by
  rintro b ⟨⟩
  obtain rfl | rfl := hsep <;> rfl

theorem numberField_reads {β : Type} (h : Holds buf text) {n : Nat} (hn : n < 2 ^ 32) {sep : UInt8}
    (hsep : EndsValue sep) (hafter : after key text = some (decimal n ++ sep :: rest)) (old : β)
    (cast : UInt32 → β) : numberField buf key old cast = some (cast n.toUInt32) := by
  obtain ⟨s, hs, hdrop, hfield⟩ := keyedField_found h hafter old fun s => (strtoul buf s).map cast
  rw [numberField, hfield, strtoul_of_holds h hs hdrop (not_digit_of_endsValue hsep rest) hn,
    Option.map_some]

/-- What the handler accepts as a VLAN. -/
def IsVlan (vid : Int16) : Prop := vid = -1 ∨ 1 ≤ vid ∧ vid ≤ 4094

instance (vid : Int16) : Decidable (IsVlan vid) := inferInstanceAs (Decidable (_ ∨ _))

theorem vlanField_reads (h : Holds buf text) {vid : Int16} (hvid : IsVlan vid) {sep : UInt8}
    (hsep : EndsValue sep) (hafter : after key text = some (decimalInt vid.toInt ++ sep :: rest))
    (old : Int16) : vlanField buf key old = some vid := by
  obtain ⟨s, hs, hdrop, hfield⟩ := keyedField_found h hafter old _
  have hint : text.drop s = decimalInt vid.toInt32.toInt ++ sep :: rest := by
    rw [hdrop, Int16.toInt_toInt32]
  rw [vlanField, hfield, strtol_of_holds h hs hint (not_digit_of_endsValue hsep rest),
    Option.map_some]
  simp only [Int16.toInt16_toInt32]
  exact congrArg some (if_pos hvid)

end

/-! ## The object of the settings page -/

/-- The members of the page's object, with the values of these settings. -/
def settingsMembers (cfg : DeskflowConfig) : List JsonMember :=
  [⟨ascii "server", .text cfg.server.bytes⟩,
   ⟨ascii "port", .number (decimal cfg.port.toNat)⟩,
   ⟨ascii "device_name", .text cfg.deviceName.bytes⟩,
   ⟨ascii "screen_width", .number (decimal cfg.screenWidth.toNat)⟩,
   ⟨ascii "screen_height", .number (decimal cfg.screenHeight.toNat)⟩,
   ⟨ascii "scaling", .number (decimal cfg.scaling.toNat)⟩,
   ⟨ascii "jiggle_interval", .number (decimal cfg.jiggleInterval.toNat)⟩,
   ⟨ascii "keep_awake", .number (decimal cfg.keepAwake.toNat)⟩,
   ⟨ascii "keyboard_layout", .number (decimal cfg.keyboardLayout.toNat)⟩,
   ⟨ascii "vlan_id", .number (decimalInt cfg.vlanId.toInt)⟩]

/-- Settings that the page sends: texts without quotes, backslashes and control characters,
and a VLAN or none. -/
structure Sendable (cfg : DeskflowConfig) : Prop where
  server : ∀ b ∈ cfg.server.bytes, PlainByte b
  deviceName : ∀ b ∈ cfg.deviceName.bytes, PlainByte b
  vlan : IsVlan cfg.vlanId

/-- The names of the members. -/
def settingsNames : List Bytes := (settingsMembers configDefaults).map JsonMember.name

theorem settingsMembers_names (cfg : DeskflowConfig) :
    (settingsMembers cfg).map JsonMember.name = settingsNames := rfl

theorem settingsMember (cfg : DeskflowConfig) (i : Nat) (hi : i < 10) :
    (settingsMembers cfg).get ⟨i, hi⟩ ∈ settingsMembers cfg :=
  List.get_mem _ _

theorem settingsNames_nodup : settingsNames.Nodup := by decide +kernel

theorem settingsNames_plain :
    ∀ name ∈ settingsNames, IsName name ∧ 0 ∉ name ∧ name.length ≤ 15 := by
  decide +kernel

/-- A printed number consists of digits and a sign. -/
theorem plain_of_mem_decimalInt {n : Int} {b : UInt8} (h : b ∈ decimalInt n) : PlainByte b := by
  have hdigit {k : Nat} (hb : b ∈ decimal k) : PlainByte b := by
    have hd := isDigit_of_mem_decimal hb
    simp only [isDigit, Bool.and_eq_true, decide_eq_true_eq] at hd
    refine ⟨?_, ?_, ?_⟩ <;> grind
  cases n with
  | ofNat k => exact hdigit h
  | negSucc k =>
      obtain rfl | hb := List.mem_cons.mp h
      · decide
      · exact hdigit hb

section

variable {cfg : DeskflowConfig} {m : JsonMember} {ms : List JsonMember}

theorem name_mem_settingsNames (hm : m ∈ settingsMembers cfg) : m.name ∈ settingsNames :=
  settingsMembers_names cfg ▸ List.mem_map_of_mem hm

/-- The values of the page's object are short plain texts and short numbers. -/
theorem Sendable.value (h : Sendable cfg) (hm : m ∈ settingsMembers cfg) :
    (∃ s, m.value = .text s ∧ (∀ b ∈ s, PlainByte b) ∧ s.length < 64) ∨
      ∃ n, m.value = .number (decimalInt n) ∧ n.natAbs < 10 ^ 5 := by
  have hnumber {n : Nat} (hn : n < 2 ^ 16) : ∃ k : Int,
      JsonValue.number (decimal n) = .number (decimalInt k) ∧ k.natAbs < 10 ^ 5 :=
    ⟨n, rfl, by omega⟩
  simp only [settingsMembers, List.mem_cons, List.not_mem_nil, or_false] at hm
  rcases hm with rfl | rfl | rfl | rfl | rfl | rfl | rfl | rfl | rfl | rfl
  · exact .inl ⟨_, rfl, h.server, cfg.server.fits⟩
  · exact .inr (hnumber cfg.port.toNat_lt)
  · exact .inl ⟨_, rfl, h.deviceName, lt_trans cfg.deviceName.fits (by decide)⟩
  · exact .inr (hnumber cfg.screenWidth.toNat_lt)
  · exact .inr (hnumber cfg.screenHeight.toNat_lt)
  · exact .inr (hnumber cfg.scaling.toNat_lt)
  · exact .inr (hnumber cfg.jiggleInterval.toNat_lt)
  · exact .inr (hnumber (lt_of_le_of_lt (Bool.toNat_le _) (by decide)))
  · exact .inr (hnumber (lt_trans cfg.keyboardLayout.toNat_lt (by decide)))
  · have hlow := cfg.vlanId.le_toInt
    have hhigh := cfg.vlanId.toInt_lt
    exact .inr ⟨_, rfl, by omega⟩

theorem Sendable.quoteless (h : Sendable cfg) (hm : m ∈ settingsMembers cfg) :
    m.value.Quoteless := by
  obtain ⟨s, hvalue, hplain, _⟩ | ⟨n, hvalue, _⟩ := h.value hm
  · rw [hvalue]
    exact fun hquote => (hplain 34 hquote).2.1 rfl
  · rw [hvalue]
    exact fun hquote => (plain_of_mem_decimalInt hquote).2.1 rfl

theorem Sendable.nul_not_mem_value (h : Sendable cfg) (hm : m ∈ settingsMembers cfg) :
    0 ∉ m.value.bytes := by
  have hplain : ¬ PlainByte 0 := by decide
  intro hmem
  obtain ⟨s, hvalue, hs, _⟩ | ⟨n, hvalue, _⟩ := h.value hm
  · rw [hvalue, JsonValue.mem_text_bytes, escape_of_plain hs] at hmem
    obtain hquote | hmem := hmem
    · exact absurd hquote (by decide)
    · exact hplain (hs 0 hmem)
  · rw [hvalue] at hmem
    exact hplain (plain_of_mem_decimalInt hmem)

theorem Sendable.length_value (h : Sendable cfg) (hm : m ∈ settingsMembers cfg) :
    m.value.bytes.length ≤ 65 := by
  obtain ⟨s, hvalue, hs, hlen⟩ | ⟨n, hvalue, hn⟩ := h.value hm
  · rw [hvalue, JsonValue.bytes, escape_of_plain hs]
    simp only [List.length_cons, List.length_append, List.length_nil]
    omega
  · have hlen := decimalInt_length_le (by decide) hn
    rw [hvalue]
    exact le_trans hlen (by decide)

/-- The page's object contains no NUL. -/
theorem Sendable.nul_not_mem (h : Sendable cfg) (hperm : ms.Perm (settingsMembers cfg)) :
    0 ∉ objectBytes ms := by
  intro hmem
  obtain hpunct | ⟨m, hm, hname | hvalue⟩ := mem_objectBytes hmem
  · exact absurd hpunct (by decide)
  · exact (settingsNames_plain _ (name_mem_settingsNames (hperm.subset hm))).2.1 hname
  · exact h.nul_not_mem_value (hperm.subset hm) hvalue

/-- The page's object fits into the handler's buffer. -/
theorem Sendable.length_le (h : Sendable cfg) (hperm : ms.Perm (settingsMembers cfg)) :
    (objectBytes ms).length ≤ 1023 := by
  have hcount : ms.length = 10 := hperm.length_eq
  have hne : ms ≠ [] := by
    rintro rfl
    cases hcount
  have hmember : ∀ k ∈ ms.map (fun m => m.bytes.length + 1), k ≤ 84 := by
    intro k hk
    obtain ⟨m, hm, rfl⟩ := List.mem_map.mp hk
    have hname := (settingsNames_plain _ (name_mem_settingsNames (hperm.subset hm))).2.2
    have hvalue := h.length_value (hperm.subset hm)
    simp only [JsonMember.bytes, List.length_cons, List.length_append]
    omega
  have hsum := List.sum_le_card_nsmul _ _ hmember
  rw [List.length_map, hcount, Nat.nsmul_eq_mul] at hsum
  rw [length_objectBytes hne]
  omega

/-- A search of the page's object for one of its members finds the member's value. -/
theorem Sendable.after_name (h : Sendable cfg) (hperm : ms.Perm (settingsMembers cfg))
    (hm : m ∈ settingsMembers cfg) {opening v : Bytes} (hv : m.value.bytes = opening ++ v) :
    ∃ sep rest, EndsValue sep ∧
      after (memberPattern m.name opening) (objectBytes ms) = some (v ++ sep :: rest) := by
  have hnodup : (ms.map JsonMember.name).Nodup :=
    ((hperm.map JsonMember.name).nodup_iff).mpr settingsNames_nodup
  have hnames (x : JsonMember) (hx : x ∈ ms) : IsName x.name :=
    (settingsNames_plain _ (name_mem_settingsNames (hperm.subset hx))).1
  have hms := hperm.symm.subset hm
  obtain ⟨front, back, rfl⟩ := List.append_of_mem hms
  obtain ⟨sep, rest, hback, hsep⟩ := laterMembers_eq_cons back
  refine ⟨sep, rest, hsep, ?_⟩
  rw [← hback]
  refine after_objectBytes (hnames m hms) (fun x hx => ⟨hnames x (List.mem_append_left _ hx), ?_,
    h.quoteless (hperm.subset (List.mem_append_left _ hx))⟩) hv
  rw [List.map_append, List.map_cons] at hnodup
  exact fun heq => (List.disjoint_of_nodup_append hnodup) (heq ▸ List.mem_map_of_mem hx)
    List.mem_cons_self

end

/-! ## The settings read from a body -/

/-- Each field whose key does not occur in the body keeps its value. -/
structure KeepsUnnamed (body : Bytes) (old cfg : DeskflowConfig) : Prop where
  server : ¬ serverKey <:+: body → cfg.server = old.server
  deviceName : ¬ deviceNameKey <:+: body → cfg.deviceName = old.deviceName
  port : ¬ portKey <:+: body → cfg.port = old.port
  screenWidth : ¬ screenWidthKey <:+: body → cfg.screenWidth = old.screenWidth
  screenHeight : ¬ screenHeightKey <:+: body → cfg.screenHeight = old.screenHeight
  scaling : ¬ scalingKey <:+: body → cfg.scaling = old.scaling
  jiggleInterval : ¬ jiggleIntervalKey <:+: body → cfg.jiggleInterval = old.jiggleInterval
  keepAwake : ¬ keepAwakeKey <:+: body → cfg.keepAwake = old.keepAwake
  keyboardLayout : ¬ keyboardLayoutKey <:+: body → cfg.keyboardLayout = old.keyboardLayout
  vlanId : ¬ vlanIdKey <:+: body → cfg.vlanId = old.vlanId

/-- A buffer that holds a string is read to the end without leaving the string. -/
theorem settingsOfBody_safe {buf text body : Bytes} (h : Holds buf text) (hbody : text <:+: body)
    (old : DeskflowConfig) :
    ∃ cfg, settingsOfBody buf old = some cfg ∧ KeepsUnnamed body old cfg := by
  have habsent {key : Bytes} (hkey : ¬ key <:+: body) : ¬ key <:+: text := fun hin =>
    hkey (hin.trans hbody)
  obtain ⟨server, hserver, ksv⟩ := textField_safe h serverKey old.server
  obtain ⟨deviceName, hname, kdn⟩ := textField_safe h deviceNameKey old.deviceName
  obtain ⟨port, hport, kp⟩ := numberField_safe h portKey old.port UInt32.toUInt16
  obtain ⟨screenWidth, hsw, ksw⟩ :=
    numberField_safe h screenWidthKey old.screenWidth UInt32.toUInt16
  obtain ⟨screenHeight, hsh, ksh⟩ :=
    numberField_safe h screenHeightKey old.screenHeight UInt32.toUInt16
  obtain ⟨scaling, hsc, ksc⟩ := numberField_safe h scalingKey old.scaling UInt32.toUInt16
  obtain ⟨jiggleInterval, hji, kji⟩ :=
    numberField_safe h jiggleIntervalKey old.jiggleInterval UInt32.toUInt16
  obtain ⟨keepAwake, hka, kka⟩ := numberField_safe h keepAwakeKey old.keepAwake (· != 0)
  obtain ⟨keyboardLayout, hkl, kkl⟩ :=
    numberField_safe h keyboardLayoutKey old.keyboardLayout UInt32.toUInt8
  obtain ⟨vlanId, hvl, kvl⟩ := vlanField_safe h vlanIdKey old.vlanId
  refine ⟨{ server, port, deviceName, keepAwake, jiggleInterval, screenWidth, screenHeight,
            scaling, keyboardLayout, vlanId }, ?_, ?_⟩
  · simp only [settingsOfBody, hserver, hname, hport, hsw, hsh, hsc, hji, hka, hkl, hvl,
      Option.bind_eq_bind, Option.bind_some, Option.pure_def]
  · exact ⟨ksv ∘ habsent, kdn ∘ habsent, kp ∘ habsent, ksw ∘ habsent, ksh ∘ habsent,
      ksc ∘ habsent, kji ∘ habsent, kka ∘ habsent, kkl ∘ habsent, kvl ∘ habsent⟩

section

variable {cfg : DeskflowConfig} {ms : List JsonMember} {buf : Bytes}

/-- A text member of the page's object is taken over. -/
theorem Sendable.textField_eq (h : Sendable cfg) (hperm : ms.Perm (settingsMembers cfg))
    (hbuf : Holds buf (objectBytes ms)) (name : Bytes) {cap : Nat} {v : CStr cap}
    (hm : ⟨name, .text v.bytes⟩ ∈ settingsMembers cfg) (hv : ∀ b ∈ v.bytes, PlainByte b)
    (old : CStr cap) : textField buf (memberPattern name [34]) old = some v := by
  have hvalue : (JsonValue.text v.bytes).bytes = [34] ++ (v.bytes ++ [34]) := by
    rw [JsonValue.bytes, escape_of_plain hv]
    rfl
  obtain ⟨sep, rest, _, hafter⟩ := h.after_name hperm hm hvalue
  rw [List.append_assoc, List.singleton_append] at hafter
  exact textField_reads hbuf v hafter (fun hquote => (hv 34 hquote).2.1 rfl) old

/-- A number member of the page's object is converted. -/
theorem Sendable.numberField_eq (h : Sendable cfg) (hperm : ms.Perm (settingsMembers cfg))
    (hbuf : Holds buf (objectBytes ms)) (name : Bytes) {n : Nat}
    (hm : ⟨name, .number (decimal n)⟩ ∈ settingsMembers cfg) (hn : n < 2 ^ 32) {β : Type}
    (old : β) (cast : UInt32 → β) :
    numberField buf (memberPattern name []) old cast = some (cast n.toUInt32) := by
  obtain ⟨sep, rest, hsep, hafter⟩ := h.after_name hperm hm (List.nil_append _).symm
  exact numberField_reads hbuf hn hsep hafter old cast

theorem Sendable.numberField_uint16 (h : Sendable cfg) (hperm : ms.Perm (settingsMembers cfg))
    (hbuf : Holds buf (objectBytes ms)) (name : Bytes) {v : UInt16}
    (hm : ⟨name, .number (decimal v.toNat)⟩ ∈ settingsMembers cfg) (old : UInt16) :
    numberField buf (memberPattern name []) old UInt32.toUInt16 = some v := by
  have hread := h.numberField_eq hperm hbuf name hm (lt_trans v.toNat_lt (by decide)) old
    UInt32.toUInt16
  have hcast : v.toNat.toUInt32.toUInt16 = v := by
    have hv := v.toNat_lt
    refine UInt16.toNat_inj.mp ?_
    simp only [UInt32.toNat_toUInt16, Nat.toUInt32_eq, UInt32.toNat_ofNat']
    omega
  rw [hread, hcast]

/-- The page's object gives the settings that it was made of. -/
theorem settingsOfBody_reads (h : Sendable cfg) (hperm : ms.Perm (settingsMembers cfg))
    (hbuf : Holds buf (objectBytes ms)) (old : DeskflowConfig) :
    settingsOfBody buf old = some cfg := by
  have hserver : textField buf serverKey old.server = some cfg.server :=
    h.textField_eq hperm hbuf (ascii "server") (settingsMember cfg 0 (by decide)) h.server _
  have hport : numberField buf portKey old.port UInt32.toUInt16 = some cfg.port :=
    h.numberField_uint16 hperm hbuf (ascii "port") (settingsMember cfg 1 (by decide)) _
  have hname : textField buf deviceNameKey old.deviceName = some cfg.deviceName :=
    h.textField_eq hperm hbuf (ascii "device_name") (settingsMember cfg 2 (by decide))
      h.deviceName _
  have hwidth : numberField buf screenWidthKey old.screenWidth UInt32.toUInt16 =
      some cfg.screenWidth :=
    h.numberField_uint16 hperm hbuf (ascii "screen_width") (settingsMember cfg 3 (by decide)) _
  have hheight : numberField buf screenHeightKey old.screenHeight UInt32.toUInt16 =
      some cfg.screenHeight :=
    h.numberField_uint16 hperm hbuf (ascii "screen_height") (settingsMember cfg 4 (by decide)) _
  have hscaling : numberField buf scalingKey old.scaling UInt32.toUInt16 = some cfg.scaling :=
    h.numberField_uint16 hperm hbuf (ascii "scaling") (settingsMember cfg 5 (by decide)) _
  have hjiggle : numberField buf jiggleIntervalKey old.jiggleInterval UInt32.toUInt16 =
      some cfg.jiggleInterval :=
    h.numberField_uint16 hperm hbuf (ascii "jiggle_interval") (settingsMember cfg 6 (by decide)) _
  have hawake : numberField buf keepAwakeKey old.keepAwake (· != 0) = some cfg.keepAwake := by
    have hread := h.numberField_eq hperm hbuf (ascii "keep_awake")
      (settingsMember cfg 7 (by decide)) (lt_of_le_of_lt (Bool.toNat_le _) (by decide))
      old.keepAwake (· != 0)
    have hcast : (cfg.keepAwake.toNat.toUInt32 != 0) = cfg.keepAwake := by
      cases cfg.keepAwake <;> rfl
    rwa [hcast] at hread
  have hlayout : numberField buf keyboardLayoutKey old.keyboardLayout UInt32.toUInt8 =
      some cfg.keyboardLayout := by
    have hread := h.numberField_eq hperm hbuf (ascii "keyboard_layout")
      (settingsMember cfg 8 (by decide)) (lt_trans cfg.keyboardLayout.toNat_lt (by decide))
      old.keyboardLayout UInt32.toUInt8
    have hcast : cfg.keyboardLayout.toNat.toUInt32.toUInt8 = cfg.keyboardLayout := by
      have hv := cfg.keyboardLayout.toNat_lt
      refine UInt8.toNat_inj.mp ?_
      simp only [UInt32.toNat_toUInt8, Nat.toUInt32_eq, UInt32.toNat_ofNat']
      omega
    rwa [hcast] at hread
  have hvlan : vlanField buf vlanIdKey old.vlanId = some cfg.vlanId := by
    obtain ⟨sep, rest, hsep, hafter⟩ := h.after_name hperm (settingsMember cfg 9 (by decide))
      (List.nil_append _).symm
    exact vlanField_reads hbuf h.vlan hsep hafter old.vlanId
  simp only [settingsOfBody, hserver, hport, hname, hwidth, hheight, hscaling, hjiggle, hawake,
    hlayout, hvlan, Option.bind_eq_bind, Option.bind_some, Option.pure_def]

end

/-! ## The handler -/

section

variable (peers : WebPeers) (io : SaveIo) (st : ConfigStore) {req : HttpRequest} {body : Bytes}

/-- A body that is read passes the settings read from it to `config_save`. -/
theorem settingsPostHandler_of_body (hlen : req.contentLen ≤ 1023)
    (hreceived : req.received = some body) (hne : body ≠ []) {buf : Buffer 1024}
    (hbuf : (Buffer.zeroed 1024).write 0 body = some buf) {cfg : DeskflowConfig}
    (hcfg : settingsOfBody buf.bytes st.sConfig = some cfg) :
    ∃ out, settingsPostHandler peers io req st = some out ∧ out.passed = some cfg := by
  obtain ⟨err, st', hsave⟩ := configSave_defined cfg io st
  obtain ⟨b, bs, rfl⟩ := List.exists_cons_of_ne_nil hne
  rw [settingsPostHandler, if_neg (Nat.not_lt.mpr hlen), hreceived]
  simp only [hbuf, hcfg, hsave, Option.bind_eq_bind, Option.bind_some, Option.pure_def]
  split
  · exact ⟨_, rfl, rfl⟩
  · exact ⟨_, rfl, rfl⟩

/-- A body that is read changes only fields whose key occurs in it. -/
theorem settingsPostHandler_keeps (hlen : req.contentLen ≤ 1023)
    (hreceived : req.received = some body) (hne : body ≠ []) :
    ∃ out cfg, settingsPostHandler peers io req st = some out ∧ out.passed = some cfg ∧
      KeepsUnnamed body st.sConfig cfg := by
  have hfits := req.received_le body hreceived
  obtain ⟨buf, hbuf, hholds⟩ := write_zeroed (show body.length < 1024 by omega)
  have hsub : cString body <:+: body := (List.takeWhile_prefix _).isInfix
  obtain ⟨cfg, hcfg, hkeeps⟩ := settingsOfBody_safe hholds hsub st.sConfig
  obtain ⟨out, hout, hpassed⟩ :=
    settingsPostHandler_of_body peers io st hlen hreceived hne hbuf hcfg
  exact ⟨out, cfg, hout, hpassed, hkeeps⟩

/-- No request makes the handler leave its buffer. -/
theorem settingsPostHandler_defined (req : HttpRequest) :
    ∃ out, settingsPostHandler peers io req st = some out := by
  by_cases hlen : req.contentLen ≤ 1023
  · rcases req.received_cases with hfailed | hnothing | ⟨b, bs, hreceived, -⟩
    · exact ⟨_, by rw [settingsPostHandler, if_neg (Nat.not_lt.mpr hlen), hfailed]⟩
    · exact ⟨_, by rw [settingsPostHandler, if_neg (Nat.not_lt.mpr hlen), hnothing]⟩
    · obtain ⟨out, _, hout, _⟩ :=
        settingsPostHandler_keeps peers io st hlen hreceived (List.cons_ne_nil b bs)
      exact ⟨out, hout⟩
  · exact ⟨_, by rw [settingsPostHandler, if_pos (Nat.lt_of_not_le hlen)]⟩

/-- The page's object, with its members in any order, passes its settings to `config_save`. -/
theorem settingsPostHandler_reads {cfg : DeskflowConfig} (h : Sendable cfg)
    {ms : List JsonMember} (hperm : ms.Perm (settingsMembers cfg)) :
    ∃ out, settingsPostHandler peers io (.whole (objectBytes ms)) st = some out ∧
      out.passed = some cfg := by
  have hlen := h.length_le hperm
  have hne : objectBytes ms ≠ [] := by cases ms <;> exact List.cons_ne_nil _ _
  obtain ⟨buf, hbuf, hholds⟩ := write_zeroed (show (objectBytes ms).length < 1024 by omega)
  rw [cString_eq_self (h.nul_not_mem hperm)] at hholds
  exact settingsPostHandler_of_body peers io st hlen rfl hne hbuf
    (settingsOfBody_reads h hperm hholds st.sConfig)

/-- Any request is read inside the buffer, a body changes only the fields that it names, and
the object of the settings page, with its members in any order, gives exactly its values.  The
texts of the settings end inside their arrays by their type. -/
theorem settingsPost_exact :
    (∀ req, ∃ out, settingsPostHandler peers io req st = some out) ∧
      (∀ req : HttpRequest, ∀ body, req.received = some body → body ≠ [] → req.contentLen ≤ 1023 →
        ∃ out cfg, settingsPostHandler peers io req st = some out ∧ out.passed = some cfg ∧
          KeepsUnnamed body st.sConfig cfg) ∧
      ∀ cfg, Sendable cfg → ∀ ms : List JsonMember, ms.Perm (settingsMembers cfg) →
        (objectBytes ms).length ≤ 1023 ∧
          ∃ out, settingsPostHandler peers io (.whole (objectBytes ms)) st = some out ∧
            out.passed = some cfg := by
  refine ⟨settingsPostHandler_defined peers io st, ?_, ?_⟩
  · intro req body hreceived hne hlen
    exact settingsPostHandler_keeps peers io st hlen hreceived hne
  · intro cfg hcfg ms hperm
    exact ⟨hcfg.length_le hperm, settingsPostHandler_reads peers io st hcfg hperm⟩

end

/-- A server named like a key, and the members in the opposite order. -/
def misleadingConfig : DeskflowConfig :=
  { configDefaults with
    server := strncpy 64 serverSize_pos (ascii "device_name")
    deviceName := strncpy 32 deviceNameSize_pos []
    vlanId := 4094 }

theorem settingsPost_exact_misleading :
    ∃ out, settingsPostHandler ⟨true, true⟩ ⟨true, 1000⟩
      (.whole (objectBytes (settingsMembers misleadingConfig).reverse))
      ⟨true, none, configDefaults, .us⟩ = some out ∧ out.passed = some misleadingConfig :=
  ((settingsPost_exact ⟨true, true⟩ ⟨true, 1000⟩ ⟨true, none, configDefaults, .us⟩).2.2
    misleadingConfig ⟨by decide +kernel, by decide +kernel, .inr (by decide)⟩ _
    (List.reverse_perm _)).2

end Esp32Deskflow.Web
