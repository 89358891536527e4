/-
  Web/SettingsGet.lean --- `settings_get_handler`: the settings as the settings page reads
  them.

  The text is printed into an array of 256 bytes, and as many bytes of the array are sent
  as the whole text has.  Texts are printed as they are, so that a control character in
  one of them, or a byte that is no UTF-8, makes the object unreadable.
-/
import Esp32Deskflow.Foundation.JsonNumbers
import Esp32Deskflow.Web.SettingsPost

set_option autoImplicit false

namespace Esp32Deskflow.Web

open Esp32Deskflow.Foundation Esp32Deskflow.Libc Esp32Deskflow.Config

/-! ## The handler -/

/-- The format string of `settings_get_handler`. -/
def settingsGetFormat : Bytes :=
  ascii "\x7b\"server\":\"%s\"," ++
  ascii "\"port\":%u," ++
  ascii "\"device_name\":\"%s\"," ++
  ascii "\"screen_width\":%u," ++
  ascii "\"screen_height\":%u," ++
  ascii "\"scaling\":%u," ++
  ascii "\"jiggle_interval\":%u," ++
  ascii "\"keep_awake\":%d," ++
  ascii "\"keyboard_layout\":%d," ++
  ascii "\"vlan_id\":%d\x7d"

/-- The text that the format asks for. -/
def settingsJson (cfg : DeskflowConfig) : Option Bytes :=
  (parsePrintf settingsGetFormat).bind fun directives =>
    printf directives
      [.str cfg.server.bytes, .num cfg.port.toNat, .str cfg.deviceName.bytes,
        .num cfg.screenWidth.toNat, .num cfg.screenHeight.toNat, .num cfg.scaling.toNat,
        .num cfg.jiggleInterval.toNat, .num cfg.keepAwake.toNat, .num cfg.keyboardLayout.toNat,
        .num cfg.vlanId.toInt]

/-- A call of `httpd_resp_send` on an array: the length passed, how many bytes of the array
were initialised, and the bytes sent; `none` if there are not that many in the array. -/
structure RespSend where
  count : Nat
  initialised : Nat
  sent : Option Bytes
  deriving DecidableEq, Repr

/-- `settings_get_handler`; `stack` is what the array holds before. -/
def settingsGetHandler (stack : Buffer 256) (cfg : DeskflowConfig) : Option RespSend :=
  (settingsJson cfg).bind fun text =>
    (snprintf stack text).map fun buf =>
      let n := text.length
      { count := n
        initialised := (text.take 255).length + 1
        sent := if n ≤ 256 then some (buf.bytes.take n) else none }

/-! ## The text printed -/

/-- What stands in front of the value of a member that is not the first. -/
def memberStart (key : Bytes) : Bytes := 44 :: 34 :: (key ++ [34, 58])

/-- The directives of the format, piece by piece. -/
def settingsGetPieces : List (List PrintDirective) :=
  [(123 :: 34 :: (ascii "server" ++ [34, 58, 34])).map .lit, [.str], [34].map .lit,
    (memberStart (ascii "port")).map .lit, [.unsigned],
    (memberStart (ascii "device_name")).map .lit, [34].map .lit, [.str], [34].map .lit,
    (memberStart (ascii "screen_width")).map .lit, [.unsigned],
    (memberStart (ascii "screen_height")).map .lit, [.unsigned],
    (memberStart (ascii "scaling")).map .lit, [.unsigned],
    (memberStart (ascii "jiggle_interval")).map .lit, [.unsigned],
    (memberStart (ascii "keep_awake")).map .lit, [.signed],
    (memberStart (ascii "keyboard_layout")).map .lit, [.signed],
    (memberStart (ascii "vlan_id")).map .lit, [.signed], [125].map .lit]

theorem parsePrintf_settingsGetFormat :
    parsePrintf settingsGetFormat = some settingsGetPieces.flatten := by
  decide +kernel

/-- The text is the page's object, with the texts as they are. -/
theorem settingsJson_eq (cfg : DeskflowConfig) :
    settingsJson cfg = some (objectUnescaped (settingsMembers cfg)) := by
  have hbrace : printf ([(125 : UInt8)].map .lit) [] = some [125] := rfl
  have hdecimal (n : Nat) : decimalInt (n : Int) = decimal n := rfl
  unfold settingsJson
  rw [parsePrintf_settingsGetFormat]
  simp only [settingsGetPieces, List.flatten_cons, List.flatten_nil, Option.bind_some, printf_lits,
    List.cons_append, List.nil_append, printf, Option.map_some, List.append_nil, hbrace,
    settingsMembers, objectBy, laterMembersBy, JsonMember.unescaped, JsonValue.unescaped,
    memberStart, List.append_assoc, hdecimal]

/-! ## Reading the settings back -/

/-- The text of a member, as a string that fits its array. -/
def textMember (cap : Nat) (ms : List JsonMember) (name : Bytes) : Option (CStr cap) :=
  (ms.find? fun m => m.name == name).bind fun m =>
    match m.value with
    | .text s => if h : s.length < cap ∧ 0 ∉ s then some ⟨s, h.1, h.2⟩ else none
    | .number _ => none

/-- The number of a member, if it is in the range. -/
def numberMember (low high : Int) (ms : List JsonMember) (name : Bytes) : Option Int :=
  (ms.find? fun m => m.name == name).bind fun m =>
    match m.value with
    | .text _ => none
    | .number digits =>
        (scanInt digits).bind fun (n, _) => if low ≤ n ∧ n ≤ high then some n else none

/-- The settings that an object holds. -/
def settingsOfMembers (ms : List JsonMember) : Option DeskflowConfig := do
  let server ← textMember 64 ms (ascii "server")
  let port ← numberMember 0 65535 ms (ascii "port")
  let deviceName ← textMember 32 ms (ascii "device_name")
  let screenWidth ← numberMember 0 65535 ms (ascii "screen_width")
  let screenHeight ← numberMember 0 65535 ms (ascii "screen_height")
  let scaling ← numberMember 0 65535 ms (ascii "scaling")
  let jiggleInterval ← numberMember 0 65535 ms (ascii "jiggle_interval")
  let keepAwake ← numberMember 0 1 ms (ascii "keep_awake")
  let keyboardLayout ← numberMember 0 255 ms (ascii "keyboard_layout")
  let vlanId ← numberMember (-32768) 32767 ms (ascii "vlan_id")
  return {
    server := server
    port := UInt16.ofInt port
    deviceName := deviceName
    keepAwake := keepAwake != 0
    jiggleInterval := UInt16.ofInt jiggleInterval
    screenWidth := UInt16.ofInt screenWidth
    screenHeight := UInt16.ofInt screenHeight
    scaling := UInt16.ofInt scaling
    keyboardLayout := UInt8.ofInt keyboardLayout
    vlanId := Int16.ofInt vlanId }

/-- The settings that a text holds. -/
def readSettings (text : Bytes) : Option DeskflowConfig :=
  (readObject text).bind settingsOfMembers

theorem textMember_of_find {cap : Nat} {ms : List JsonMember} {name : Bytes} {m : JsonMember}
    (hfind : (ms.find? fun m => m.name == name) = some m) {s : CStr cap}
    (hvalue : m.value = .text s.bytes) : textMember cap ms name = some s := by
  rw [textMember, hfind, Option.bind_some, hvalue]
  exact dif_pos ⟨s.fits, s.noNul⟩

theorem numberMember_of_find {low high n : Int} {ms : List JsonMember} {name : Bytes}
    {m : JsonMember} (hfind : (ms.find? fun m => m.name == name) = some m)
    (hvalue : m.value = .number (decimalInt n)) (hrange : low ≤ n ∧ n ≤ high) :
    numberMember low high ms name = some n := by
  have hread : scanInt (decimalInt n) = some (n, []) := by
    have hscan := @scanInt_decimalInt n [] nofun
    rwa [List.append_nil] at hscan
  rw [numberMember, hfind, Option.bind_some, hvalue]
  simp only [hread, Option.bind_some]
  exact if_pos hrange

/-- The members of the settings give the settings. -/
theorem settingsOfMembers_settings (cfg : DeskflowConfig) :
    settingsOfMembers (settingsMembers cfg) = some cfg := by
  have huint16 (v : UInt16) : 0 ≤ (v.toNat : Int) ∧ (v.toNat : Int) ≤ 65535 := by
    have hv := v.toNat_lt
    omega
  have hlayout := cfg.keyboardLayout.toNat_lt
  have hlow := cfg.vlanId.le_toInt
  have hhigh := cfg.vlanId.toInt_lt
  have hawake : (cfg.keepAwake.toNat : Int) ≤ 1 := by exact_mod_cast Bool.toNat_le _
  have hserver : textMember 64 (settingsMembers cfg) (ascii "server") = some cfg.server :=
    textMember_of_find rfl rfl
  have hport := @numberMember_of_find 0 65535 cfg.port.toNat (settingsMembers cfg)
    (ascii "port") _ rfl rfl (huint16 _)
  have hname : textMember 32 (settingsMembers cfg) (ascii "device_name") = some cfg.deviceName :=
    textMember_of_find rfl rfl
  have hwidth := @numberMember_of_find 0 65535 cfg.screenWidth.toNat (settingsMembers cfg)
    (ascii "screen_width") _ rfl rfl (huint16 _)
  have hheight := @numberMember_of_find 0 65535 cfg.screenHeight.toNat (settingsMembers cfg)
    (ascii "screen_height") _ rfl rfl (huint16 _)
  have hscaling := @numberMember_of_find 0 65535 cfg.scaling.toNat (settingsMembers cfg)
    (ascii "scaling") _ rfl rfl (huint16 _)
  have hjiggle := @numberMember_of_find 0 65535 cfg.jiggleInterval.toNat (settingsMembers cfg)
    (ascii "jiggle_interval") _ rfl rfl (huint16 _)
  have hkeep := @numberMember_of_find 0 1 cfg.keepAwake.toNat (settingsMembers cfg)
    (ascii "keep_awake") _ rfl rfl ⟨by omega, hawake⟩
  have hkl := @numberMember_of_find 0 255 cfg.keyboardLayout.toNat (settingsMembers cfg)
    (ascii "keyboard_layout") _ rfl rfl (by omega)
  have hvlan := @numberMember_of_find (-32768) 32767 cfg.vlanId.toInt (settingsMembers cfg)
    (ascii "vlan_id") _ rfl rfl (by omega)
  have hbool : ((cfg.keepAwake.toNat : Int) != 0) = cfg.keepAwake := by cases cfg.keepAwake <;> rfl
  simp only [settingsOfMembers, hserver, hport, hname, hwidth, hheight, hscaling, hjiggle, hkeep,
    hkl, hvlan, Option.bind_eq_bind, Option.bind_some, Option.pure_def, uint16_ofInt_toNat,
    uint8_ofInt_toNat, Int16.ofInt_toInt, hbool]

/-- Neither text has a quote or a backslash. -/
structure QuoteFree (cfg : DeskflowConfig) : Prop where
  server : 34 ∉ cfg.server.bytes ∧ 92 ∉ cfg.server.bytes
  deviceName : 34 ∉ cfg.deviceName.bytes ∧ 92 ∉ cfg.deviceName.bytes

/-- Neither text has a control character. -/
def NoControl (cfg : DeskflowConfig) : Prop :=
  (∀ b ∈ cfg.server.bytes, 32 ≤ b) ∧ ∀ b ∈ cfg.deviceName.bytes, 32 ≤ b

/-- Both texts are UTF-8. -/
def Utf8Texts (cfg : DeskflowConfig) : Prop :=
  IsUtf8 cfg.server.bytes ∧ IsUtf8 cfg.deviceName.bytes

theorem plain_iff {s : Bytes} (h : 34 ∉ s ∧ 92 ∉ s) :
    (JsonValue.text s).Plain ↔ (∀ b ∈ s, 32 ≤ b) ∧ IsUtf8 s := by
  refine and_congr_left fun _ => forall₂_congr fun b hb =>
    ⟨And.left, fun hlow => ⟨hlow, ?_, ?_⟩⟩
  · rintro rfl
    exact h.1 hb
  · rintro rfl
    exact h.2 hb

section

variable {cfg : DeskflowConfig}

/-- The values are the two texts and printed numbers. -/
theorem settingsMembers_value {m : JsonMember} (hm : m ∈ settingsMembers cfg) :
    m.value = .text cfg.server.bytes ∨ m.value = .text cfg.deviceName.bytes ∨
      ∃ n, m.value = .number (decimalInt n) := by
  simp only [settingsMembers, List.mem_cons, List.not_mem_nil, or_false] at hm
  rcases hm with rfl | rfl | rfl | rfl | rfl | rfl | rfl | rfl | rfl | rfl
  · exact .inl rfl
  · exact .inr (.inr ⟨cfg.port.toNat, rfl⟩)
  · exact .inr (.inl rfl)
  · exact .inr (.inr ⟨cfg.screenWidth.toNat, rfl⟩)
  · exact .inr (.inr ⟨cfg.screenHeight.toNat, rfl⟩)
  · exact .inr (.inr ⟨cfg.scaling.toNat, rfl⟩)
  · exact .inr (.inr ⟨cfg.jiggleInterval.toNat, rfl⟩)
  · exact .inr (.inr ⟨cfg.keepAwake.toNat, rfl⟩)
  · exact .inr (.inr ⟨cfg.keyboardLayout.toNat, rfl⟩)
  · exact .inr (.inr ⟨_, rfl⟩)

theorem settingsMembers_delimited (h : QuoteFree cfg) {m : JsonMember}
    (hm : m ∈ settingsMembers cfg) : m.Delimited := by
  have hnames : ∀ name ∈ settingsNames, PlainText name := by decide +kernel
  refine ⟨hnames _ (name_mem_settingsNames hm), fun s hs => ?_, fun digits hdigits => ?_⟩
  · rcases settingsMembers_value hm with hvalue | hvalue | ⟨n, hvalue⟩
    · cases hs.symm.trans hvalue
      exact h.server.1
    · cases hs.symm.trans hvalue
      exact h.deviceName.1
    · cases hs.symm.trans hvalue
  · rcases settingsMembers_value hm with hvalue | hvalue | ⟨n, hvalue⟩
    · cases hdigits.symm.trans hvalue
    · cases hdigits.symm.trans hvalue
    · cases hdigits.symm.trans hvalue
      exact isInteger_decimalInt n

theorem settingsMembers_plain_iff (h : QuoteFree cfg) :
    (∀ m ∈ settingsMembers cfg, m.value.Plain) ↔ NoControl cfg ∧ Utf8Texts cfg := by
  have htexts : (∀ m ∈ settingsMembers cfg, m.value.Plain) ↔
      (JsonValue.text cfg.server.bytes).Plain ∧ (JsonValue.text cfg.deviceName.bytes).Plain := by
    simp only [settingsMembers, List.forall_mem_cons, List.not_mem_nil, false_imp_iff,
      implies_true, and_true]
    exact ⟨fun h => ⟨h.1, h.2.2.1⟩, fun h => ⟨h.1, trivial, h.2, trivial, trivial, trivial,
      trivial, trivial, trivial, trivial⟩⟩
  rw [htexts, plain_iff h.server, plain_iff h.deviceName, and_and_and_comm]
  rfl

/-- The text is read back, as the settings that it was printed from, exactly if no text of
them has a control character and both are UTF-8. -/
theorem readSettings_json (h : QuoteFree cfg) :
    readSettings (objectUnescaped (settingsMembers cfg)) = some cfg ↔
      NoControl cfg ∧ Utf8Texts cfg := by
  rw [← settingsMembers_plain_iff h, readSettings,
    readObject_unescaped fun m hm => settingsMembers_delimited h hm]
  split
  · next hplain =>
      rw [Option.bind_some, settingsOfMembers_settings]
      exact iff_of_true rfl hplain
  · next hplain =>
      rw [Option.bind_none]
      exact iff_of_false nofun hplain

end

/-! ## The response -/

/-- The number of bytes that the values take in the text, apart from quotes. -/
def valuesLength (cfg : DeskflowConfig) : Nat :=
  cfg.server.bytes.length + (decimal cfg.port.toNat).length + cfg.deviceName.bytes.length +
    (decimal cfg.screenWidth.toNat).length + (decimal cfg.screenHeight.toNat).length +
    (decimal cfg.scaling.toNat).length + (decimal cfg.jiggleInterval.toNat).length +
    (decimal cfg.keepAwake.toNat).length + (decimal cfg.keyboardLayout.toNat).length +
    (decimalInt cfg.vlanId.toInt).length

/-- Names and punctuation take 145 bytes. -/
theorem length_settingsJson (cfg : DeskflowConfig) :
    (objectUnescaped (settingsMembers cfg)).length = valuesLength cfg + 145 := by
  have hnames : settingsNames.map List.length = [6, 4, 11, 12, 13, 7, 15, 10, 15, 7] := by
    decide +kernel
  simp only [settingsNames, settingsMembers, List.map_cons, List.map_nil, List.cons.injEq] at hnames
  simp only [settingsMembers, objectBy, laterMembersBy, JsonMember.unescaped,
    JsonValue.unescaped, valuesLength, List.length_cons, List.length_append, List.length_nil]
  omega

/-- The response is the whole text, no byte of it is one that was not initialised, and it
reads back as the settings. -/
structure Complete (cfg : DeskflowConfig) (out : RespSend) : Prop where
  whole : out.sent = settingsJson cfg
  initialised : out.count ≤ out.initialised
  readsBack : out.sent.bind readSettings = some cfg

/-- What the handler sends of a text. -/
theorem settingsGetHandler_eq (stack : Buffer 256) (cfg : DeskflowConfig) :
    ∃ out, settingsGetHandler stack cfg = some out ∧
      out.count = valuesLength cfg + 145 ∧
      out.initialised = min 255 (valuesLength cfg + 145) + 1 ∧
      (valuesLength cfg ≤ 110 → out.sent = some (objectUnescaped (settingsMembers cfg))) ∧
      (110 < valuesLength cfg → out.sent ≠ some (objectUnescaped (settingsMembers cfg))) := by
  have hlen := length_settingsJson cfg
  generalize htext : objectUnescaped (settingsMembers cfg) = text at hlen ⊢
  obtain ⟨buf, hbuf⟩ : ∃ buf, snprintf stack text = some buf := by
    refine stack.exists_write ?_
    rw [List.length_append, List.length_take, List.length_singleton]
    omega
  have hbytes := Buffer.write_eq_some hbuf
  rw [settingsGetHandler, settingsJson_eq, htext, Option.bind_some, hbuf, Option.map_some]
  refine ⟨_, rfl, hlen, ?_, ?_, ?_⟩
  · simp only [List.length_take, hlen]
  · intro hfits
    have htake : text.take 255 = text := List.take_of_length_le (by omega)
    refine (if_pos (by omega)).trans (congrArg some ?_)
    rw [hbytes, List.take_zero, List.nil_append, htake, List.append_assoc]
    exact List.take_left
  · intro hlong hsent
    obtain ⟨front, hclosed⟩ : ∃ front, text = front ++ [125] :=
      htext ▸ objectBy_closed JsonMember.unescaped (settingsMembers cfg)
    change (if text.length ≤ 256 then some (buf.bytes.take text.length) else none) = some text
      at hsent
    split at hsent
    · -- The terminator stands where the closing brace should.
      have hcut := Option.some.inj hsent
      have hwritten : (text.take 255 ++ [0]).length = text.length := by
        rw [List.length_append, List.length_take, List.length_singleton]
        omega
      rw [hbytes, List.take_zero, List.nil_append, ← hwritten, List.take_left] at hcut
      have hlast := congrArg List.getLast? (hcut.trans hclosed)
      simp only [List.getLast?_concat, Option.some.injEq] at hlast
      exact absurd hlast (by decide)
    · cases hsent

/-- For settings whose texts have no quotes and backslashes, the response is complete and in
bounds if and only if their values take at most 110 bytes, no text has a control character and
both are UTF-8. -/
theorem settingsGet_complete_iff {cfg : DeskflowConfig} (h : QuoteFree cfg) (stack : Buffer 256) :
    (∃ out, settingsGetHandler stack cfg = some out ∧ Complete cfg out) ↔
      valuesLength cfg ≤ 110 ∧ NoControl cfg ∧ Utf8Texts cfg := by
  obtain ⟨out, hout, hcount, hinitialised, hwhole, hcut⟩ := settingsGetHandler_eq stack cfg
  constructor
  · rintro ⟨out', hout', hcomplete⟩
    rw [hout] at hout'
    cases hout'
    have hsent := hcomplete.whole.trans (settingsJson_eq cfg)
    have hreads := hcomplete.readsBack
    rw [hsent, Option.bind_some] at hreads
    exact ⟨Nat.not_lt.mp fun hlong => hcut hlong hsent, (readSettings_json h).mp hreads⟩
  · rintro ⟨hfits, htexts⟩
    have hsent := hwhole hfits
    refine ⟨out, hout, hsent.trans (settingsJson_eq cfg).symm, by omega, ?_⟩
    rw [hsent, Option.bind_some]
    exact (readSettings_json h).mpr htexts

theorem quoteFree_defaults : QuoteFree configDefaults :=
  ⟨by decide +kernel, by decide +kernel⟩

theorem settingsGet_complete_iff_defaults :
    (∃ out, settingsGetHandler (Buffer.zeroed 256) configDefaults = some out ∧
      Complete configDefaults out) ↔
      valuesLength configDefaults ≤ 110 ∧ NoControl configDefaults ∧ Utf8Texts configDefaults :=
  settingsGet_complete_iff quoteFree_defaults (Buffer.zeroed 256)

/-- Settings with names and numbers as long as they can be. -/
def longConfig : DeskflowConfig where
  server := strncpy 64 serverSize_pos (List.replicate 63 97)
  port := 65535
  deviceName := strncpy 32 deviceNameSize_pos (List.replicate 31 98)
  keepAwake := true
  jiggleInterval := 65535
  screenWidth := 65535
  screenHeight := 65535
  scaling := 65535
  keyboardLayout := 255
  vlanId := 4094

/-- 272 bytes are to be sent of an array of 256. -/
theorem not_complete_longConfig :
    QuoteFree longConfig ∧ ∃ out, settingsGetHandler (Buffer.zeroed 256) longConfig = some out ∧
      out.count = 272 ∧ out.initialised = 256 ∧ out.sent = none ∧ ¬ Complete longConfig out := by
  have hview : (settingsGetHandler (Buffer.zeroed 256) longConfig).map
      (fun out => (out.count, out.initialised, out.sent)) = some (272, 256, none) := by
    decide +kernel
  obtain ⟨out, hout, hfields⟩ := Option.map_eq_some_iff.mp hview
  simp only [Prod.mk.injEq] at hfields
  obtain ⟨hcount, hinitialised, hsent⟩ := hfields
  refine ⟨⟨by decide +kernel, by decide +kernel⟩, out, hout, hcount, hinitialised, hsent, ?_⟩
  intro hcomplete
  have hbounds := hcomplete.initialised
  omega

end Esp32Deskflow.Web
