/-
  Tusb/SpecialKeys.lean --- the function keys, Delete and the modifier keys on their way
  through `EXT_TAB` to the keyboard report.

  A report contains the usage of every key that is held, whatever the other keys.  So a
  key reaches the host as itself if and only if the tables give it its own usage; eight
  missing entries of `EXT_TAB` leave that to both Shift keys and the left Control key.
-/
import Esp32Deskflow.Tusb.TrackedKeys
import Mathlib.Data.Bool.AllAny

set_option autoImplicit false

namespace Esp32Deskflow.Tusb

open Esp32Deskflow.Foundation.Transition

/-! ## The special keys -/

/-- F1 to F12, from key 0xEFBE and usage 0x3A on. -/
def functionKeys : List (UInt16 × UInt8) :=
  (List.range 12).map fun i => (0xEFBE + i.toUInt16, 0x3A + i.toUInt8)

/-- Shift, Control, Alt and Super, left and right, with the usages of their modifier bits. -/
def modifierKeys : List (UInt16 × UInt8) := [
  (0xEFE1, 0xE1), (0xEFE2, 0xE5), (0xEFE3, 0xE0), (0xEFE4, 0xE4),
  (0xEFE9, 0xE2), (0xEFEA, 0xE6), (0xEFEB, 0xE3), (0xEFEC, 0xE7)]

/-- The keys whose identifier is their X11 keysym less 0x1000, with their own usages. -/
def specialKeys : List (UInt16 × UInt8) := functionKeys ++ (0xEFFF, 0x4C) :: modifierKeys

/-- A keyboard report contains a usage: as a modifier bit or in a slot. -/
def ReportContains (report : List UInt8) (usage : UInt8) : Prop :=
  if isModifierUsage usage then (report.headD 0).toNat.testBit (usage.toNat - 0xE0) = true
  else usage ∈ report.drop 2

/-- In every run of KEY_DOWN and KEY_UP commands that keeps the discipline, every keyboard
report sent while the key is held contains the usage. -/
def KeyShown (key : UInt16) (usage : UInt8) : Prop :=
  ∀ (screenWidth screenHeight : UInt16) (layout : KeyboardLayout) (answers : List Bool)
    (labels : List HidLabel) (h : Hid) (label : HidLabel) (h' : Hid),
    run hidStep (Hid.init screenWidth screenHeight layout true answers) labels = some h →
    hidStep h label = some h' →
    (∀ cmd ∈ h'.processed, cmd.keyMask.isSome = true) → Disciplined h'.processed →
    key ∈ keysDown h'.processed →
    ∀ bytes answer, (HidReport.keyboard bytes, answer) ∈ h'.calls.drop h.calls.length →
      ReportContains bytes usage

/-! ## What a report contains -/

/-- A report contains the usage of every key it shows. -/
theorem reportContains_of_shows {layout : KeyboardLayout} {mask : UInt16} {keys : List UInt16}
    {report : List UInt8} (hshows : ReportShows layout mask keys report) {key : UInt16}
    (hkey : key ∈ keys) : ReportContains report (barrierKeyToHid layout key) := by
  obtain ⟨modifier, slots, rfl, hbits, hslots, _⟩ := hshows
  unfold ReportContains
  by_cases hmod : isModifierUsage (barrierKeyToHid layout key) = true
  · obtain ⟨hlow, hhigh⟩ := isModifierUsage_iff.mp hmod
    rw [if_pos hmod]
    exact (hbits _ (by omega)).mpr (Or.inr ⟨key, hkey, by omega⟩)
  · have hslot : slotValue layout key = barrierKeyToHid layout key := if_neg hmod
    rw [if_neg hmod, hslots, ← hslot]
    exact List.mem_append_left _ (List.mem_map_of_mem hkey)

/-- A report of one key without a mask contains no other usage. -/
theorem eq_of_reportContains {layout : KeyboardLayout} {keys : List UInt16}
    {report : List UInt8} (hshows : ReportShows layout 0 keys report) {key : UInt16}
    (hkeys : ∀ k ∈ keys, k = key) {usage : UInt8} (hne : usage ≠ 0)
    (hcontains : ReportContains report usage) : barrierKeyToHid layout key = usage := by
  obtain ⟨modifier, slots, rfl, hbits, hslots, _⟩ := hshows
  unfold ReportContains at hcontains
  by_cases hmod : isModifierUsage usage = true
  · obtain ⟨hlow, hhigh⟩ := isModifierUsage_iff.mp hmod
    rw [if_pos hmod] at hcontains
    rcases (hbits _ (by omega)).mp hcontains with hmask | ⟨k, hk, heq⟩
    · have hzero : (maskToTusbModifier 0).toNat = 0 := by decide
      rw [hzero, Nat.zero_testBit] at hmask
      cases hmask
    · rw [hkeys k hk] at heq
      exact UInt8.toNat_inj.mp (by omega)
  · rw [if_neg hmod, hslots] at hcontains
    rcases List.mem_append.mp hcontains with hslot | hblank
    · obtain ⟨k, hk, rfl⟩ := List.mem_map.mp hslot
      rw [hkeys k hk] at hne ⊢
      unfold slotValue at hne ⊢
      split at hne
      · exact absurd rfl hne
      · rename_i hmodifier
        rw [if_neg hmodifier]
    · exact absurd (List.eq_of_mem_replicate hblank) hne

/-! ## Runs -/

theorem eq_of_mem_retriedCalls {report r : HidReport} {answer : Bool} {n : Nat}
    (h : (r, answer) ∈ retriedCalls report n) : r = report := by
  unfold retriedCalls at h
  rcases List.mem_append.mp h with h | h
  · exact congrArg Prod.fst (List.eq_of_mem_replicate h)
  · exact congrArg Prod.fst (List.mem_singleton.mp h)

/-- A pending movement sends no keyboard report. -/
theorem sendAbsMouseOnce_no_keyboard {h h' : Hid} (hsend : h.sendAbsMouseOnce = some h')
    {bytes : List UInt8} {answer : Bool} :
    (HidReport.keyboard bytes, answer) ∉ h'.calls.drop h.calls.length := by
  rcases sendAbsMouseOnce_spec hsend with ⟨rfl, _⟩ | htry
  · rw [List.drop_length]
    exact List.not_mem_nil
  · obtain ⟨answer', rest, _, rfl⟩ := tryMouse_spec htry
    rw [List.drop_left, List.mem_singleton]
    exact nofun

/-- A key whose usage in every layout is the right one is shown by every report. -/
theorem keyShown_of_usage {key : UInt16} {usage : UInt8}
    (husage : ∀ layout, barrierKeyToHid layout key = usage) : KeyShown key usage := by
  intro screenWidth screenHeight layout answers labels h label h' hrun hstep hkeys hdisciplined
    hheld bytes answer hcall
  have hinv : KeyInv h := run_invariant hidStep_keyInv (keyInv_init _ _ _ _) hrun
  have hinv' : KeyInv h' := hidStep_keyInv h label h' hinv hstep
  rcases hidStep_cases hstep with ⟨cmd, rest, _, _, _, hp⟩ | ⟨_, _, hsend⟩ | hsame
  · have hprocessed : h'.processed = h.processed ++ [cmd] := (processCommand_sameKeys hp).processed
    have hcmd := hkeys cmd (by rw [hprocessed]; simp)
    obtain ⟨mask, hmask⟩ := Option.isSome_iff_exists.mp hcmd
    obtain ⟨report, n, hshows, hcalls⟩ :=
      processCommand_report (hinv.wellFormed.of_queue rest) hmask hp
    have hcontains := reportContains_of_shows hshows ((hinv'.exact hdisciplined key).mpr hheld)
    have hcalls' : h'.calls = h.calls ++ retriedCalls (.keyboard report) n := hcalls
    rw [hcalls', List.drop_left] at hcall
    obtain rfl := HidReport.keyboard.inj (eq_of_mem_retriedCalls hcall)
    rwa [husage] at hcontains
  · exact absurd hcall (sendAbsMouseOnce_no_keyboard hsend)
  · rw [hsame.calls, List.drop_length] at hcall
    exact absurd hcall List.not_mem_nil

theorem disciplined_keyDown (key : UInt16) : Disciplined [.keyDown key 0 0] := by
  intro before cmd after hsplit
  obtain ⟨rfl, rfl⟩ : before = [] ∧ cmd = .keyDown key 0 0 := by
    cases before with
    | nil => exact ⟨rfl, (List.cons.inj hsplit).1.symm⟩
    | cons c before => simp at hsplit
  exact ⟨Finset.notMem_empty key, Finset.card_singleton key ▸ by decide⟩

/-- If every report shows the usage of a key, the tables give it that usage: the report of
the key alone says so. -/
theorem usage_of_keyShown {key : UInt16} {usage : UInt8} (hne : usage ≠ 0)
    (hshown : KeyShown key usage) (layout : KeyboardLayout) :
    barrierKeyToHid layout key = usage := by
  have hrun : ∃ h h', run hidStep (Hid.init 1 1 layout true [true])
      [.xQueueSend (.keyDown key 0 0)] = some h ∧ hidStep h .command = some h' ∧
      h.act.cmdQueue = [.keyDown key 0 0] ∧ h.layout = layout ∧
      h'.processed = [.keyDown key 0 0] := ⟨_, _, rfl, rfl, rfl, rfl, rfl⟩
  obtain ⟨h, h', hrun, hstep, hqueue, hlayout, hprocessed⟩ := hrun
  have hinv : KeyInv h := run_invariant hidStep_keyInv (keyInv_init _ _ _ _) hrun
  have hinv' : KeyInv h' := hidStep_keyInv h .command h' hinv hstep
  have hdisciplined : Disciplined h'.processed := hprocessed ▸ disciplined_keyDown key
  have hdown : keysDown h'.processed = {key} := by
    rw [hprocessed]
    rfl
  have hp := commandStep_spec hinv.mounted hqueue hstep
  obtain ⟨report, n, hshows, hcalls⟩ :=
    processCommand_report (hinv.wellFormed.of_queue []) rfl hp
  have hcalls' : h'.calls = h.calls ++ retriedCalls (.keyboard report) n := hcalls
  have hkeys : ∀ k ∈ h'.act.tracked, k = key := by
    intro k hk
    have hmem := (hinv'.exact hdisciplined k).mp hk
    rw [hdown] at hmem
    exact Finset.mem_singleton.mp hmem
  have hsent : (HidReport.keyboard report, true) ∈ h'.calls.drop h.calls.length := by
    rw [hcalls', List.drop_left]
    exact List.mem_append_right _ (List.mem_singleton.mpr rfl)
  have hcontains := hshown 1 1 layout [true] _ h .command h' hrun hstep
    (by rw [hprocessed]; intro cmd hcmd; rw [List.mem_singleton.mp hcmd]; rfl) hdisciplined
    (by rw [hdown]; exact Finset.mem_singleton_self key) report true hsent
  rw [← hlayout]
  exact eq_of_reportContains hshows hkeys hne hcontains

/-- A key reaches the host as a usage if and only if the tables give it that usage. -/
theorem keyShown_iff {key : UInt16} {usage : UInt8} (hne : usage ≠ 0) :
    KeyShown key usage ↔ ∀ layout, barrierKeyToHid layout key = usage :=
  ⟨usage_of_keyShown hne, keyShown_of_usage⟩

/-! ## The table -/

theorem forall_layout_iff {p : KeyboardLayout → Prop} : (∀ layout, p layout) ↔ p .us ∧ p .de := by
  refine ⟨fun h => ⟨h .us, h .de⟩, ?_⟩
  rintro ⟨hus, hde⟩ layout
  cases layout with
  | us => exact hus
  | de => exact hde

/-- What the tables say of the special keys. -/
theorem specialKeys_usages : ∀ p ∈ specialKeys, p.2 ≠ 0 ∧
    ((barrierKeyToHid .us p.1 = p.2 ∧ barrierKeyToHid .de p.1 = p.2) ↔
      p.1 = 0xEFE1 ∨ p.1 = 0xEFE2 ∨ p.1 = 0xEFE3) := by
  refine List.all_iff_forall_prop.mp ?_
  decide +kernel

/-- Of the special keys, both Shift keys and the left Control key reach the host as
themselves, and no other. -/
theorem specialKey_shown_iff {key : UInt16} {usage : UInt8} (hkey : (key, usage) ∈ specialKeys) :
    KeyShown key usage ↔ key = 0xEFE1 ∨ key = 0xEFE2 ∨ key = 0xEFE3 := by
  obtain ⟨hne, husage⟩ := specialKeys_usages _ hkey
  rw [keyShown_iff hne, forall_layout_iff, husage]

theorem specialKey_shown_iff_shift :
    KeyShown 0xEFE1 0xE1 ↔
      (0xEFE1 : UInt16) = 0xEFE1 ∨ (0xEFE1 : UInt16) = 0xEFE2 ∨ (0xEFE1 : UInt16) = 0xEFE3 :=
  specialKey_shown_iff (by decide +kernel)

/-- F1 goes out as F9. -/
theorem functionKey_not_shown :
    (0xEFBE, 0x3A) ∈ specialKeys ∧ barrierKeyToHid .us 0xEFBE = 0x42 ∧ ¬ KeyShown 0xEFBE 0x3A := by
  refine ⟨by decide +kernel, by decide +kernel, ?_⟩
  rw [keyShown_iff (by decide), forall_layout_iff]
  decide +kernel

end Esp32Deskflow.Tusb
