/-
  Tusb/TrackedKeys.lean --- the keys that `hid_task` tracks, and the keyboard reports
  built from them.

  `pressed_keys` with `key_count` is a slot table of distinct keys.  Every command
  keeps it one, KEY_DOWN and KEY_UP are insertion and removal on its members, and a
  report lists exactly the members, the modifier keys among them as bits.
-/
import Esp32Deskflow.Foundation.SlotTable
import Esp32Deskflow.Tusb.HidTask
import Mathlib.Data.Finset.Card
import Mathlib.Data.Finset.Insert

set_option autoImplicit false

namespace Esp32Deskflow.Tusb

open Esp32Deskflow.Foundation Esp32Deskflow.Foundation.Transition

/-! ## The slot table -/

/-- The tracked keys: `pressed_keys[0..key_count)`. -/
def TusbActuator.tracked (act : TusbActuator) : List UInt16 :=
  act.pressedKeys.toList.take act.keyCount

/-- At most six distinct keys are tracked, and the slots behind them are 0. -/
structure KeysWellFormed (act : TusbActuator) : Prop where
  count_le : act.keyCount ≤ 6
  distinct : act.tracked.Nodup
  rest_zero : act.pressedKeys.toList.drop act.keyCount = List.replicate (6 - act.keyCount) 0

theorem KeysWellFormed.length_tracked {act : TusbActuator} (h : KeysWellFormed act) :
    act.tracked.length = act.keyCount := by
  rw [TusbActuator.tracked, List.length_take, Vector.length_toList]
  exact Nat.min_eq_left h.count_le

theorem KeysWellFormed.holds {act : TusbActuator} (h : KeysWellFormed act) :
    SlotTable.Holds 0 act.pressedKeys.toList act.tracked := by
  unfold SlotTable.Holds
  rw [h.length_tracked, Vector.length_toList, ← h.rest_zero]
  exact (List.take_append_drop _ _).symm

theorem keysWellFormed_of_holds {act : TusbActuator} {keys : List UInt16}
    (hcount : act.keyCount = keys.length) (h : SlotTable.Holds 0 act.pressedKeys.toList keys)
    (hdistinct : keys.Nodup) : KeysWellFormed act ∧ act.tracked = keys := by
  have htracked : act.tracked = keys := by
    rw [TusbActuator.tracked, hcount]
    exact h.take
  refine ⟨⟨?_, ?_, ?_⟩, htracked⟩
  · have hle := h.length_le
    rw [Vector.length_toList] at hle
    rw [hcount]
    exact hle
  · rw [htracked]
    exact hdistinct
  · have hdrop := h.drop
    rw [Vector.length_toList] at hdrop
    rw [hcount]
    exact hdrop

theorem clearKeys_wellFormed (act : TusbActuator) :
    KeysWellFormed act.clearKeys ∧ act.clearKeys.tracked = [] :=
  keysWellFormed_of_holds rfl rfl List.nodup_nil

/-- A key is found exactly if it is tracked. -/
theorem findKey_eq_none_iff {act : TusbActuator} {key : UInt16} :
    act.findKey key = none ↔ key ∉ act.tracked := by
  unfold TusbActuator.findKey
  rw [List.findIdx?_eq_none_iff]
  constructor
  · intro hnone hmem
    have hne := hnone key hmem
    rw [beq_self_eq_true] at hne
    cases hne
  · intro hnot k hk
    rw [beq_eq_false_iff_ne]
    rintro rfl
    exact hnot hk

/-- A key that goes down is tracked if it was, or if there is room for it. -/
theorem trackKeyDown_spec {act : TusbActuator} (h : KeysWellFormed act) (key : UInt16) :
    KeysWellFormed (act.trackKeyDown key) ∧
      (act.trackKeyDown key).tracked =
        if key ∈ act.tracked ∨ act.tracked.length = 6 then act.tracked
        else act.tracked ++ [key] := by
  have hlen := h.length_tracked
  have hle := h.count_le
  unfold TusbActuator.trackKeyDown
  by_cases hroom : act.keyCount < hidMaxKeys
  · rw [if_pos hroom]
    cases hfind : act.findKey key with
    | some i =>
        have hmem : key ∈ act.tracked := by
          by_contra hnot
          rw [findKey_eq_none_iff.mpr hnot] at hfind
          cases hfind
        rw [if_pos (Or.inl hmem)]
        exact ⟨h, rfl⟩
    | none =>
        have hnot := findKey_eq_none_iff.mp hfind
        have hslots : act.tracked.length < act.pressedKeys.toList.length := by
          rw [hlen, Vector.length_toList]
          exact hroom
        have hfull : ¬ (key ∈ act.tracked ∨ act.tracked.length = 6) := by
          rintro (hmem | hsix)
          · exact hnot hmem
          · rw [hlen] at hsix
            rw [hsix] at hroom
            exact absurd hroom (by decide)
        rw [if_neg hfull]
        have hadd := h.holds.add hslots key
        refine keysWellFormed_of_holds ?_ ?_ ?_
        · rw [List.length_append, List.length_singleton, hlen]
        · rw [Vector.toList_setIfInBounds, ← hlen]
          exact hadd
        · exact List.nodup_append.mpr ⟨h.distinct, List.nodup_singleton key, by
            intro a ha b hb hab
            rw [List.mem_singleton.mp hb] at hab
            exact hnot (hab ▸ ha)⟩
  · rw [if_neg hroom]
    have hsix : act.tracked.length = 6 := by
      rw [hlen]
      unfold hidMaxKeys at hroom
      omega
    rw [if_pos (Or.inr hsix)]
    exact ⟨h, rfl⟩

/-- A tracked key that goes up is removed, and no other one.  An unknown key clears the
table. -/
theorem trackKeyUp_spec {act : TusbActuator} (h : KeysWellFormed act) (key : UInt16) :
    KeysWellFormed (act.trackKeyUp key) ∧
      ∀ k, k ∈ (act.trackKeyUp key).tracked ↔ key ∈ act.tracked ∧ k ∈ act.tracked ∧ k ≠ key := by
  have hlen := h.length_tracked
  unfold TusbActuator.trackKeyUp
  cases hfind : act.findKey key with
  | none =>
      have hnot := findKey_eq_none_iff.mp hfind
      obtain ⟨hwf, hempty⟩ := clearKeys_wellFormed act
      refine ⟨hwf, ?_⟩
      intro k
      rw [hempty]
      exact ⟨fun hk => absurd hk List.not_mem_nil, fun hk => absurd hk.1 hnot⟩
  | some i =>
      obtain ⟨hlt, hbeq, -⟩ := List.findIdx?_eq_some_iff_getElem.mp hfind
      have hi : i < act.tracked.length := hlt
      have hkey : act.tracked[i] = key := beq_iff_eq.mp hbeq
      obtain ⟨hnodup, hmem⟩ := SlotTable.moveLast_of_nodup 0 h.distinct hi
      rw [hkey] at hmem
      have hcount : (act.removeSlot i).keyCount = (SlotTable.moveLast 0 act.tracked i).length := by
        rw [SlotTable.moveLast, List.length_dropLast, List.length_set, hlen]
        rfl
      have hholds : SlotTable.Holds 0 (act.removeSlot i).pressedKeys.toList
          (SlotTable.moveLast 0 act.tracked i) := by
        have hremove := h.holds.remove hi
        rw [hlen] at hremove
        rw [TusbActuator.removeSlot, Vector.toList_setIfInBounds, Vector.toList_setIfInBounds]
        exact hremove
      obtain ⟨hwf, htracked⟩ := keysWellFormed_of_holds hcount hholds hnodup
      refine ⟨hwf, ?_⟩
      intro k
      have hin : key ∈ act.tracked := hkey ▸ List.getElem_mem hi
      rw [htracked, hmem k]
      exact ⟨fun hk => ⟨hin, hk⟩, fun hk => hk.2⟩

/-! ## The keyboard report -/

theorem slotUsage_eq (layout : KeyboardLayout) (k : UInt16) :
    slotUsage layout k = barrierKeyToHid layout k := by
  unfold slotUsage
  split
  · rename_i hk
    rw [hk, barrierKeyToHid_zero]
  · rfl

/-- The slot of a key in a report: its usage, or 0 for a modifier key. -/
def slotValue (layout : KeyboardLayout) (k : UInt16) : UInt8 :=
  if isModifierUsage (barrierKeyToHid layout k) then 0 else barrierKeyToHid layout k

theorem slotValue_not_modifier (layout : KeyboardLayout) (k : UInt16) :
    isModifierUsage (slotValue layout k) = false := by
  unfold slotValue
  split
  · rfl
  · rename_i h
    exact Bool.eq_false_iff.mpr h

theorem slotValue_zero (layout : KeyboardLayout) : slotValue layout 0 = 0 := by
  unfold slotValue
  rw [barrierKeyToHid_zero]
  rfl

theorem isModifierUsage_iff {hid : UInt8} :
    isModifierUsage hid = true ↔ 0xE0 ≤ hid.toNat ∧ hid.toNat ≤ 0xE7 := by
  simp only [isModifierUsage, Bool.and_eq_true, decide_eq_true_eq, UInt8.le_iff_toNat_le]
  rfl

/-- The bit that a modifier key sets. -/
theorem testBit_modifierBit {modifier hid : UInt8} (h : isModifierUsage hid = true) (i : Nat) :
    (modifier ||| (1 <<< (hid - 0xE0))).toNat.testBit i = true ↔
      modifier.toNat.testBit i = true ∨ hid.toNat = 0xE0 + i := by
  obtain ⟨hlow, hhigh⟩ := isModifierUsage_iff.mp h
  have hsub : (hid - 0xE0).toNat = hid.toNat - 0xE0 := by
    rw [UInt8.toNat_sub_of_le]
    · rfl
    · exact UInt8.le_iff_toNat_le.mpr hlow
  have hpow : (1 <<< (hid - 0xE0) : UInt8).toNat = 2 ^ (hid.toNat - 0xE0) := by
    have hlt : 2 ^ (hid.toNat - 0xE0) < 2 ^ 8 := Nat.pow_lt_pow_right (by decide) (by omega)
    rw [UInt8.toNat_shiftLeft, hsub, Nat.mod_eq_of_lt (by omega : hid.toNat - 0xE0 < 8)]
    rw [Nat.shiftLeft_eq, show (1 : UInt8).toNat = 1 from rfl, Nat.one_mul,
      Nat.mod_eq_of_lt hlt]
  have hindex : hid.toNat - 0xE0 = i ↔ hid.toNat = 0xE0 + i := by omega
  rw [UInt8.toNat_or, hpow, Nat.testBit_or, Bool.or_eq_true, Nat.testBit_two_pow,
    decide_eq_true_eq, hindex]

theorem kbReportLoop_usages (layout : KeyboardLayout) (ks : List UInt16) :
    ∀ (modifier : UInt8) (usages : List UInt8),
      (kbReportLoop layout ks modifier usages).2 = usages ++ ks.map (slotValue layout) := by
  induction ks with
  | nil =>
      intro modifier usages
      rw [List.map_nil, List.append_nil]
      rfl
  | cons k ks ih =>
      intro modifier usages
      unfold kbReportLoop
      rw [slotUsage_eq, List.map_cons]
      by_cases hmod : isModifierUsage (barrierKeyToHid layout k) = true
      · rw [if_pos hmod, ih, slotValue, if_pos hmod, List.append_assoc, List.singleton_append]
      · rw [if_neg hmod, ih, slotValue, if_neg hmod, List.append_assoc, List.singleton_append]

theorem kbReportLoop_modifier (layout : KeyboardLayout) (ks : List UInt16) (i : Nat) :
    ∀ (modifier : UInt8) (usages : List UInt8),
      (kbReportLoop layout ks modifier usages).1.toNat.testBit i = true ↔
        modifier.toNat.testBit i = true ∨
          ∃ k ∈ ks, (barrierKeyToHid layout k).toNat = 0xE0 + i ∧ i < 8 := by
  induction ks with
  | nil =>
      intro modifier usages
      simp [kbReportLoop]
  | cons k ks ih =>
      intro modifier usages
      unfold kbReportLoop
      rw [slotUsage_eq]
      by_cases hmod : isModifierUsage (barrierKeyToHid layout k) = true
      · have hbounds := isModifierUsage_iff.mp hmod
        have hbit : (barrierKeyToHid layout k).toNat = 0xE0 + i ↔
            (barrierKeyToHid layout k).toNat = 0xE0 + i ∧ i < 8 := by omega
        rw [if_pos hmod, ih, testBit_modifierBit hmod, or_assoc]
        simp only [List.mem_cons, exists_eq_or_imp]
        rw [← hbit]
      · have hno : ¬ ((barrierKeyToHid layout k).toNat = 0xE0 + i ∧ i < 8) := by
          rintro ⟨heq, hlt⟩
          exact hmod (isModifierUsage_iff.mpr (by omega))
        rw [if_neg hmod, ih]
        simp only [List.mem_cons, exists_eq_or_imp, hno, false_or]

/-- A keyboard report shows exactly the given keys: the modifier keys as bits beside those
of the mask, the others one to a slot. -/
def ReportShows (layout : KeyboardLayout) (mask : UInt16) (keys : List UInt16)
    (report : List UInt8) : Prop :=
  ∃ modifier slots, report = modifier :: 0 :: slots ∧
    (∀ i < 8, modifier.toNat.testBit i = true ↔
      (maskToTusbModifier mask).toNat.testBit i = true ∨
        ∃ k ∈ keys, (barrierKeyToHid layout k).toNat = 0xE0 + i) ∧
    slots = keys.map (slotValue layout) ++ List.replicate (6 - keys.length) 0 ∧
    ∀ usage ∈ slots, isModifierUsage usage = false

theorem kbReport_shows {act : TusbActuator} (h : KeysWellFormed act) (layout : KeyboardLayout)
    (mask : UInt16) :
    ReportShows layout mask act.tracked (kbReport layout act.pressedKeys mask) := by
  have hslots : act.pressedKeys.toList =
      act.tracked ++ List.replicate (6 - act.tracked.length) 0 := by
    have hholds := h.holds
    unfold SlotTable.Holds at hholds
    rw [Vector.length_toList] at hholds
    exact hholds
  refine ⟨_, _, rfl, ?_, ?_, ?_⟩
  · intro i hi
    rw [kbReportLoop_modifier, hslots]
    refine or_congr_right ⟨?_, ?_⟩
    · rintro ⟨k, hk, heq, -⟩
      rcases List.mem_append.mp hk with hk | hk
      · exact ⟨k, hk, heq⟩
      · rw [List.eq_of_mem_replicate hk, barrierKeyToHid_zero] at heq
        have hzero : (0 : UInt8).toNat = 0 := rfl
        omega
    · rintro ⟨k, hk, heq⟩
      exact ⟨k, List.mem_append_left _ hk, heq, hi⟩
  · rw [kbReportLoop_usages, List.nil_append, hslots, List.map_append, List.map_replicate,
      slotValue_zero]
  · intro usage husage
    rw [kbReportLoop_usages, List.nil_append] at husage
    obtain ⟨k, -, rfl⟩ := List.mem_map.mp husage
    exact slotValue_not_modifier layout k

/-! ## What a step does to the keys -/

/-- Two states of the task that differ in nothing that concerns keys. -/
structure SameKeys (h h' : Hid) : Prop where
  slots : h'.act.pressedKeys = h.act.pressedKeys
  count : h'.act.keyCount = h.act.keyCount
  mounted : h'.mounted = h.mounted
  processed : h'.processed = h.processed

theorem SameKeys.refl (h : Hid) : SameKeys h h := ⟨rfl, rfl, rfl, rfl⟩

theorem SameKeys.trans {h₁ h₂ h₃ : Hid} (h : SameKeys h₁ h₂) (h' : SameKeys h₂ h₃) :
    SameKeys h₁ h₃ :=
  ⟨h'.slots.trans h.slots, h'.count.trans h.count, h'.mounted.trans h.mounted,
    h'.processed.trans h.processed⟩

/-- A change of the actuator outside of its keys does not count. -/
theorem SameKeys.rebase {h h' : Hid} {act : TusbActuator}
    (hsame : SameKeys { h with act := act } h') (hslots : act.pressedKeys = h.act.pressedKeys)
    (hcount : act.keyCount = h.act.keyCount) : SameKeys h h' :=
  ⟨hsame.slots.trans hslots, hsame.count.trans hcount, hsame.mounted, hsame.processed⟩

theorem SameKeys.tracked {h h' : Hid} (hsame : SameKeys h h') : h'.act.tracked = h.act.tracked := by
  rw [TusbActuator.tracked, hsame.slots, hsame.count]
  rfl

theorem SameKeys.wellFormed {h h' : Hid} (hsame : SameKeys h h') (hwf : KeysWellFormed h.act) :
    KeysWellFormed h'.act := by
  refine ⟨?_, ?_, ?_⟩
  · rw [hsame.count]
    exact hwf.count_le
  · rw [hsame.tracked]
    exact hwf.distinct
  · rw [hsame.slots, hsame.count]
    exact hwf.rest_zero

theorem SendFrame.sameKeys {h h' : Hid} (hframe : SendFrame h h') : SameKeys h h' := by
  obtain ⟨hx, hy, buttons, wheel, hact⟩ := hframe.act
  refine ⟨?_, ?_, hframe.mounted, hframe.processed⟩
  · rw [hact]
  · rw [hact]

/-- What a command does to the tracked keys. -/
def TusbActuator.keyCommand (act : TusbActuator) : ActCmd → TusbActuator
  | .keyDown key _ _ => act.trackKeyDown key
  | .keyUp key _ _ => act.trackKeyUp key
  | .leave | .disconnected => act.clearKeys
  | _ => act

theorem processCommand_sameKeys {h h' : Hid} {cmd : ActCmd}
    (hp : h.processCommand cmd = some h') :
    SameKeys { h with act := h.act.keyCommand cmd } h' := by
  cases cmd with
  | keyDown key mask button => exact (sendKbReport_frame hp).sameKeys
  | keyUp key mask button => exact (sendKbReport_frame hp).sameKeys
  | keyRepeat key mask button count =>
      cases hp
      exact .refl _
  | mouseDown id => exact (sendAbsMouseRetry_frame hp).sameKeys.rebase rfl rfl
  | mouseUp id => exact (sendAbsMouseRetry_frame hp).sameKeys.rebase rfl rfl
  | mouseWheel dx dy => exact (sendAbsMouseRetry_frame hp).sameKeys.rebase rfl rfl
  | enter x y mask =>
      obtain ⟨m, hm, hrest⟩ := Option.bind_eq_some_iff.mp hp
      have hfirst : SameKeys h m := (sendAbsMouseOnce_frame hm).sameKeys.rebase rfl rfl
      split at hrest
      · exact hfirst.trans (sendKbReport_frame hrest).sameKeys
      · cases hrest
        exact hfirst
  | leave =>
      obtain ⟨m, hm, hrest⟩ := Option.bind_eq_some_iff.mp hp
      have hlast : SameKeys m h' := (sendAbsMouseOnce_frame hrest).sameKeys.rebase rfl rfl
      exact (sendKbReport_frame hm).sameKeys.trans hlast
  | jiggle =>
      obtain ⟨m, hm, hrest⟩ := Option.bind_eq_some_iff.mp hp
      have hfirst : SameKeys h m := (sendAbsMouseOnce_frame hm).sameKeys.rebase rfl rfl
      have hlast : SameKeys m h' := (sendAbsMouseOnce_frame hrest).sameKeys.rebase rfl rfl
      exact hfirst.trans hlast
  | connected =>
      cases hp
      exact .refl _
  | disconnected =>
      cases hp
      exact ⟨rfl, rfl, rfl, rfl⟩
  | setScreenSize w ht =>
      cases hp
      exact ⟨rfl, rfl, rfl, rfl⟩
  | setScaling scaling =>
      cases hp
      exact ⟨rfl, rfl, rfl, rfl⟩

theorem SameInput.sameKeys {h h' : Hid} (hsame : SameInput h h') : SameKeys h h' :=
  ⟨hsame.slots, hsame.count, hsame.mounted, hsame.processed⟩

theorem KeysWellFormed.of_queue {act : TusbActuator} (h : KeysWellFormed act)
    (queue : List ActCmd) : KeysWellFormed { act with cmdQueue := queue } :=
  ⟨h.count_le, h.distinct, h.rest_zero⟩

/-- A step takes a command and updates the keys by it, or leaves them alone. -/
theorem hidStep_keys {h h' : Hid} {label : HidLabel} (hstep : hidStep h label = some h') :
    SameKeys h h' ∨ ∃ cmd queue,
      SameKeys { h.receive cmd queue with act := (h.receive cmd queue).act.keyCommand cmd } h' := by
  rcases hidStep_cases hstep with ⟨cmd, rest, -, -, -, hp⟩ | ⟨-, -, hsend⟩ | hsame
  · exact .inr ⟨cmd, rest, processCommand_sameKeys hp⟩
  · exact .inl ((sendAbsMouseOnce_frame hsend).sameKeys.rebase rfl rfl)
  · exact .inl hsame.sameKeys

/-! ## The keys that are down -/

/-- The keys that are down after a command, given those before it. -/
def keyEffect (down : Finset UInt16) : ActCmd → Finset UInt16
  | .keyDown key _ _ => insert key down
  | .keyUp key _ _ => down.erase key
  | .leave | .disconnected => ∅
  | _ => down

/-- The keys that are down after a sequence of commands. -/
def keysDown (cmds : List ActCmd) : Finset UInt16 := cmds.foldl keyEffect ∅

/-- A key goes down only while it is up and up only while it is down, and no more than six
keys are down at once. -/
def KeyDiscipline (down : Finset UInt16) (cmd : ActCmd) : Prop :=
  (match cmd with
    | .keyDown key _ _ => key ∉ down
    | .keyUp key _ _ => key ∈ down
    | _ => True) ∧
  (keyEffect down cmd).card ≤ 6

/-- Every command of the sequence keeps the discipline. -/
def Disciplined (cmds : List ActCmd) : Prop :=
  ∀ before cmd after, cmds = before ++ cmd :: after → KeyDiscipline (keysDown before) cmd

theorem keysDown_concat (cmds : List ActCmd) (cmd : ActCmd) :
    keysDown (cmds ++ [cmd]) = keyEffect (keysDown cmds) cmd := by
  rw [keysDown, List.foldl_append]
  rfl

theorem Disciplined.of_concat {cmds : List ActCmd} {cmd : ActCmd}
    (h : Disciplined (cmds ++ [cmd])) :
    Disciplined cmds ∧ KeyDiscipline (keysDown cmds) cmd := by
  refine ⟨?_, h cmds cmd [] rfl⟩
  rintro before c after rfl
  exact h before c (after ++ [cmd]) (by simp)

/-- A command that keeps the discipline has the same effect on the tracked keys as on the
keys that are down. -/
theorem keyCommand_tracked {act : TusbActuator} {down : Finset UInt16} {cmd : ActCmd}
    (hwf : KeysWellFormed act) (hexact : ∀ k, k ∈ act.tracked ↔ k ∈ down)
    (hdiscipline : KeyDiscipline down cmd) (k : UInt16) :
    k ∈ (act.keyCommand cmd).tracked ↔ k ∈ keyEffect down cmd := by
  cases cmd with
  | keyDown key mask button =>
      obtain ⟨hup, hcard⟩ := hdiscipline
      have hnot : key ∉ act.tracked := fun hmem => hup ((hexact key).mp hmem)
      have hdown : act.tracked.toFinset = down := by
        ext x
        rw [List.mem_toFinset, hexact]
      have hlen : act.tracked.length + 1 ≤ 6 := by
        have hadd : (insert key down).card = down.card + 1 := Finset.card_insert_of_notMem hup
        rw [← List.toFinset_card_of_nodup hwf.distinct, hdown, ← hadd]
        exact hcard
      have hroom : ¬ (key ∈ act.tracked ∨ act.tracked.length = 6) := by
        rintro (hmem | hsix)
        · exact hnot hmem
        · omega
      show k ∈ (act.trackKeyDown key).tracked ↔ k ∈ insert key down
      rw [(trackKeyDown_spec hwf key).2, if_neg hroom, List.mem_append, List.mem_singleton,
        Finset.mem_insert, hexact, or_comm]
  | keyUp key mask button =>
      obtain ⟨hdown, -⟩ := hdiscipline
      show k ∈ (act.trackKeyUp key).tracked ↔ k ∈ down.erase key
      rw [(trackKeyUp_spec hwf key).2, Finset.mem_erase, hexact, hexact]
      exact ⟨fun h => ⟨h.2.2, h.2.1⟩, fun h => ⟨hdown, h.2, h.1⟩⟩
  | leave | disconnected =>
      show k ∈ act.clearKeys.tracked ↔ k ∈ (∅ : Finset UInt16)
      rw [(clearKeys_wellFormed act).2]
      simp
  | _ => exact hexact k

theorem keyCommand_wellFormed {act : TusbActuator} (hwf : KeysWellFormed act) (cmd : ActCmd) :
    KeysWellFormed (act.keyCommand cmd) := by
  cases cmd with
  | keyDown key mask button => exact (trackKeyDown_spec hwf key).1
  | keyUp key mask button => exact (trackKeyUp_spec hwf key).1
  | leave | disconnected => exact (clearKeys_wellFormed act).1
  | _ => exact hwf

/-! ## Whole runs -/

/-- What holds of the keys in every state. -/
structure KeyInv (h : Hid) : Prop where
  mounted : h.mounted = true
  wellFormed : KeysWellFormed h.act
  exact : Disciplined h.processed → ∀ k, k ∈ h.act.tracked ↔ k ∈ keysDown h.processed

theorem keyInv_init (screenWidth screenHeight : UInt16) (layout : KeyboardLayout)
    (answers : List Bool) : KeyInv (Hid.init screenWidth screenHeight layout true answers) := by
  have hempty : KeysWellFormed (tusbActuatorInit screenWidth screenHeight) ∧
      (tusbActuatorInit screenWidth screenHeight).tracked = [] :=
    keysWellFormed_of_holds rfl rfl List.nodup_nil
  obtain ⟨hwf, htracked⟩ := hempty
  refine ⟨rfl, hwf, ?_⟩
  intro _ k
  show k ∈ (tusbActuatorInit screenWidth screenHeight).tracked ↔ k ∈ (∅ : Finset UInt16)
  rw [htracked]
  simp

theorem hidStep_keyInv (h : Hid) (label : HidLabel) (h' : Hid) (hinv : KeyInv h)
    (hstep : hidStep h label = some h') : KeyInv h' := by
  rcases hidStep_keys hstep with hsame | ⟨cmd, queue, hsame⟩
  · refine ⟨hsame.mounted.trans hinv.mounted, hsame.wellFormed hinv.wellFormed, ?_⟩
    rw [hsame.tracked, hsame.processed]
    exact hinv.exact
  · have hwf := hinv.wellFormed.of_queue queue
    refine ⟨hsame.mounted.trans hinv.mounted,
      hsame.wellFormed (keyCommand_wellFormed hwf cmd), ?_⟩
    have hprocessed : h'.processed = h.processed ++ [cmd] := hsame.processed
    rw [hsame.tracked, hprocessed]
    intro hdisciplined k
    obtain ⟨hbefore, hcmd⟩ := hdisciplined.of_concat
    rw [keysDown_concat]
    exact keyCommand_tracked hwf (hinv.exact hbefore) hcmd k

/-- The mask of a KEY_DOWN or KEY_UP. -/
def ActCmd.keyMask : ActCmd → Option UInt16
  | .keyDown _ mask _ => some mask
  | .keyUp _ mask _ => some mask
  | _ => none

/-- The report of a KEY_DOWN or KEY_UP, which is sent until it is accepted, shows the
tracked keys. -/
theorem processCommand_report {h h' : Hid} {cmd : ActCmd} {mask : UInt16}
    (hwf : KeysWellFormed h.act) (hmask : cmd.keyMask = some mask)
    (hp : h.processCommand cmd = some h') :
    ∃ report n, ReportShows h.layout mask h'.act.tracked report ∧
      h'.calls = h.calls ++ retriedCalls (.keyboard report) n := by
  have hwf' := keyCommand_wellFormed hwf cmd
  have hsame := (processCommand_sameKeys hp).tracked
  have hreport := kbReport_shows hwf' h.layout mask
  cases cmd with
  | keyDown key m button =>
      cases hmask
      obtain ⟨n, rest, -, rfl⟩ := sendKbReport_spec hp
      exact ⟨_, n, hreport, rfl⟩
  | keyUp key m button =>
      cases hmask
      obtain ⟨n, rest, -, rfl⟩ := sendKbReport_spec hp
      exact ⟨_, n, hreport, rfl⟩
  | _ => cases hmask

/-- In every state that the HID task reaches with the device mounted: the tracked keys are
a set of at most six; KEY_UP leaves its key untracked; under the discipline the tracked keys
are those that are down; and every report for a KEY_DOWN or KEY_UP shows them. -/
theorem tracked_keys_run {screenWidth screenHeight : UInt16} {layout : KeyboardLayout}
    {answers : List Bool} {labels : List HidLabel} {h : Hid}
    (hrun : run hidStep (Hid.init screenWidth screenHeight layout true answers) labels = some h) :
    (h.act.keyCount ≤ 6 ∧ h.act.tracked.Nodup ∧
      h.act.pressedKeys.toList.drop h.act.keyCount = List.replicate (6 - h.act.keyCount) 0) ∧
    (∀ h' key mask button rest, h.act.cmdQueue = .keyUp key mask button :: rest →
      hidStep h .command = some h' → key ∉ h'.act.tracked) ∧
    (Disciplined h.processed → ∀ k, k ∈ h.act.tracked ↔ k ∈ keysDown h.processed) ∧
    (∀ h' cmd mask rest, h.act.cmdQueue = cmd :: rest → cmd.keyMask = some mask →
      hidStep h .command = some h' →
      ∃ report n, ReportShows h.layout mask h'.act.tracked report ∧
        h'.calls = h.calls ++ retriedCalls (.keyboard report) n) := by
  have hinv : KeyInv h := run_invariant hidStep_keyInv (keyInv_init _ _ _ _) hrun
  have hwf := hinv.wellFormed
  have hcommand : ∀ h' cmd rest, h.act.cmdQueue = cmd :: rest → hidStep h .command = some h' →
      (h.receive cmd rest).processCommand cmd = some h' := by
    intro h' cmd rest hqueue hstep
    exact commandStep_spec hinv.mounted hqueue hstep
  refine ⟨⟨hwf.count_le, hwf.distinct, hwf.rest_zero⟩, ?_, hinv.exact, ?_⟩
  · intro h' key mask button rest hqueue hstep hmem
    have hp := hcommand h' _ rest hqueue hstep
    have htracked := (processCommand_sameKeys hp).tracked
    rw [htracked] at hmem
    exact (((trackKeyUp_spec (hwf.of_queue rest) key).2 key).mp hmem).2.2 rfl
  · intro h' cmd mask rest hqueue hmask hstep
    have hp := hcommand h' cmd rest hqueue hstep
    have hreport := processCommand_report (hwf.of_queue rest) hmask hp
    exact hreport

/-- Shift and A go down, and A is about to go up. -/
def shiftALabels : List HidLabel :=
  [.xQueueSend (.keyDown 0xEFE1 0 0), .xQueueSend (.keyDown 0x61 1 0), .command, .command,
    .xQueueSend (.keyUp 0x61 1 0)]

theorem tracked_keys_run_shiftA :
    ∃ h, run hidStep (Hid.init 1920 1080 .us true [false, true, true]) shiftALabels = some h ∧
      h.act.tracked = [0xEFE1, 0x61] ∧
      (h.act.keyCount ≤ 6 ∧ h.act.tracked.Nodup ∧
        h.act.pressedKeys.toList.drop h.act.keyCount = List.replicate (6 - h.act.keyCount) 0) ∧
      (∀ h' key mask button rest, h.act.cmdQueue = .keyUp key mask button :: rest →
        hidStep h .command = some h' → key ∉ h'.act.tracked) ∧
      (Disciplined h.processed → ∀ k, k ∈ h.act.tracked ↔ k ∈ keysDown h.processed) ∧
      (∀ h' cmd mask rest, h.act.cmdQueue = cmd :: rest → cmd.keyMask = some mask →
        hidStep h .command = some h' →
        ∃ report n, ReportShows h.layout mask h'.act.tracked report ∧
          h'.calls = h.calls ++ retriedCalls (.keyboard report) n) := by
  have htracked : (run hidStep (Hid.init 1920 1080 .us true [false, true, true])
      shiftALabels).map (fun h => h.act.tracked) = some [0xEFE1, 0x61] := by decide
  obtain ⟨h, hrun, hkeys⟩ := Option.map_eq_some_iff.mp htracked
  exact ⟨h, hrun, hkeys, tracked_keys_run hrun⟩

end Esp32Deskflow.Tusb
