/-
  Tusb/KeySlots.lean --- more keys than `pressed_keys` has slots.

  A key that goes down while six are tracked is not recorded, and modifier keys are
  tracked like all others although a report shows them as bits.  The release of a key
  that is not tracked clears the table.  So a key that is down is safe as long as it
  found a slot, and no key is released that found none.
-/
import Esp32Deskflow.Tusb.HostView

set_option autoImplicit false

namespace Esp32Deskflow.Tusb

open Esp32Deskflow.Foundation.Transition

/-! ## Orders of presses and releases -/

/-- A key goes down only while it is up, and up only while it is down. -/
def KeyTurn (down : Finset UInt16) : ActCmd → Prop
  | .keyDown key _ _ => key ∉ down
  | .keyUp key _ _ => key ∈ down
  | _ => True

instance (down : Finset UInt16) : (cmd : ActCmd) → Decidable (KeyTurn down cmd)
  | .keyDown _ _ _ => inferInstanceAs (Decidable (_ ∉ _))
  | .keyUp _ _ _ => inferInstanceAs (Decidable (_ ∈ _))
  | .keyRepeat _ _ _ _ | .mouseDown _ | .mouseUp _ | .mouseWheel _ _ | .enter _ _ _ | .leave
  | .jiggle | .connected | .disconnected | .setScreenSize _ _ | .setScaling _ =>
      inferInstanceAs (Decidable True)

/-- At most six of the keys that are down after the command have no modifier usage. -/
def SixPlain (layout : KeyboardLayout) (down : Finset UInt16) (cmd : ActCmd) : Prop :=
  ((keyEffect down cmd).filter fun k => isModifierUsage (barrierKeyToHid layout k) = false).card ≤ 6

instance (layout : KeyboardLayout) (down : Finset UInt16) (cmd : ActCmd) :
    Decidable (SixPlain layout down cmd) := inferInstanceAs (Decidable (_ ≤ _))

/-- The keys that are down, as a system of its own. -/
def keyStep (down : Finset UInt16) (cmd : ActCmd) : Option (Finset UInt16) :=
  some (keyEffect down cmd)

/-! ## Releases -/

/-- A release leaves the other tracked keys tracked exactly if its key is tracked or none is. -/
theorem trackKeyUp_others_iff {act : TusbActuator} (hwf : KeysWellFormed act) (key : UInt16) :
    (∀ k ∈ act.tracked, k ≠ key → k ∈ (act.trackKeyUp key).tracked) ↔
      key ∈ act.tracked ∨ act.tracked = [] := by
  have hspec := (trackKeyUp_spec hwf key).2
  constructor
  · intro hothers
    by_cases hkey : key ∈ act.tracked
    · exact Or.inl hkey
    · refine Or.inr (List.eq_nil_iff_forall_not_mem.mpr fun k hk => ?_)
      have hne : k ≠ key := fun heq => hkey (heq ▸ hk)
      exact hkey ((hspec k).mp (hothers k hk hne)).1
  · rintro (hkey | hnone) k hk hne
    · exact (hspec k).mpr ⟨hkey, hk, hne⟩
    · rw [hnone] at hk
      cases hk

/-- If the step processes a KEY_UP, it leaves the other tracked keys tracked. -/
def ReleasesOne (h : Hid) (label : HidLabel) : Prop :=
  label = .command → ∀ key mask button rest, h.act.cmdQueue = .keyUp key mask button :: rest →
    ∀ h', hidStep h .command = some h' → ∀ k ∈ h.act.tracked, k ≠ key → k ∈ h'.act.tracked

/-- If the step processes a KEY_UP, its key is tracked, or no key is. -/
def ReleasesTracked (h : Hid) (label : HidLabel) : Prop :=
  label = .command → ∀ key mask button rest, h.act.cmdQueue = .keyUp key mask button :: rest →
    key ∈ h.act.tracked ∨ h.act.tracked = []

theorem hidStep_releasesOne_iff {h h' : Hid} {label : HidLabel} (hinv : KeyInv h)
    (hstep : hidStep h label = some h') : ReleasesOne h label ↔ ReleasesTracked h label := by
  refine forall_congr' fun hlabel => forall₄_congr fun key mask button rest => ?_
  refine forall_congr' fun hqueue => ?_
  subst hlabel
  have hp := commandStep_spec hinv.mounted hqueue hstep
  have htracked : h'.act.tracked = ((h.receive (.keyUp key mask button) rest).act.trackKeyUp
      key).tracked := (processCommand_sameKeys hp).tracked
  have hwf : KeysWellFormed (h.receive (.keyUp key mask button) rest).act :=
    hinv.wellFormed.of_queue rest
  have hiff := trackKeyUp_others_iff hwf key
  constructor
  · intro hone
    apply hiff.mp
    intro k hk hne
    rw [← htracked]
    exact hone h' hstep k hk hne
  · intro hkey s hs k hk hne
    rw [hstep] at hs
    cases hs
    rw [htracked]
    exact hiff.mpr hkey k hk hne

/-- In every run with the device mounted: no release takes other keys out of the table exactly if
every KEY_UP is of a tracked key or finds the table empty. -/
theorem releasesOne_run_iff {screenWidth screenHeight : UInt16} {layout : KeyboardLayout}
    {answers : List Bool} {labels : List HidLabel} {h : Hid}
    (hrun : run hidStep (Hid.init screenWidth screenHeight layout true answers) labels = some h) :
    AllSteps hidStep ReleasesOne (Hid.init screenWidth screenHeight layout true answers) labels ↔
      AllSteps hidStep ReleasesTracked (Hid.init screenWidth screenHeight layout true answers)
        labels :=
  run_allSteps_congr hidStep_keyInv (fun _ _ _ hinv hstep => hidStep_releasesOne_iff hinv hstep)
    (keyInv_init _ _ _ _) hrun

/-- The key commands `cmds` enter the queue and are processed one after the other. -/
def processEach (cmds : List ActCmd) : List HidLabel :=
  cmds.flatMap fun cmd => [.xQueueSend cmd, .command]

/-- Shift and A go down and up again. -/
def shiftACmds : List ActCmd :=
  [.keyDown 0xEFE1 0 0, .keyDown 0x61 1 0, .keyUp 0x61 1 0, .keyUp 0xEFE1 0 0]

theorem releasesOne_run_iff_shiftA :
    ∃ h, run hidStep (Hid.init 1920 1080 .us true [true, true, true, true])
        (processEach shiftACmds) = some h ∧ h.act.tracked = [] ∧
      (AllSteps hidStep ReleasesOne (Hid.init 1920 1080 .us true [true, true, true, true])
          (processEach shiftACmds) ↔
        AllSteps hidStep ReleasesTracked (Hid.init 1920 1080 .us true [true, true, true, true])
          (processEach shiftACmds)) := by
  have htracked : (run hidStep (Hid.init 1920 1080 .us true [true, true, true, true])
      (processEach shiftACmds)).map (fun h => h.act.tracked) = some [] := by decide
  obtain ⟨h, hrun, hnone⟩ := Option.map_eq_some_iff.mp htracked
  exact ⟨h, hrun, hnone, releasesOne_run_iff hrun⟩

/-- The letters A to G go down. -/
def sevenKeyCmds : List ActCmd :=
  [.keyDown 0x61 0 0, .keyDown 0x62 0 0, .keyDown 0x63 0 0, .keyDown 0x64 0 0, .keyDown 0x65 0 0,
    .keyDown 0x66 0 0, .keyDown 0x67 0 0]

/-- G goes up again, and none of the others is tracked any more. -/
theorem not_releasesOne_seventh :
    ∃ h h', run hidStep (Hid.init 1920 1080 .us true (List.replicate 8 true))
        (processEach sevenKeyCmds ++ [.xQueueSend (.keyUp 0x67 0 0)]) = some h ∧
      AllSteps keyStep KeyTurn ∅ (sevenKeyCmds ++ [.keyUp 0x67 0 0]) ∧
      h.processed = sevenKeyCmds ∧ h.act.cmdQueue = [.keyUp 0x67 0 0] ∧
      h.act.tracked = [0x61, 0x62, 0x63, 0x64, 0x65, 0x66] ∧
      hidStep h .command = some h' ∧ h'.act.tracked = [] ∧ ¬ ReleasesOne h .command := by
  have hview : (run hidStep (Hid.init 1920 1080 .us true (List.replicate 8 true))
      (processEach sevenKeyCmds ++ [.xQueueSend (.keyUp 0x67 0 0)])).bind (fun h =>
        (hidStep h .command).map fun h' =>
          (h.processed, h.act.cmdQueue, h.act.tracked, h'.act.tracked)) =
      some (sevenKeyCmds, [.keyUp 0x67 0 0], [0x61, 0x62, 0x63, 0x64, 0x65, 0x66], []) := by
    decide +kernel
  obtain ⟨h, hrun, hview⟩ := Option.bind_eq_some_iff.mp hview
  obtain ⟨h', hstep, hends⟩ := Option.map_eq_some_iff.mp hview
  simp only [Prod.mk.injEq] at hends
  obtain ⟨hprocessed, hqueue, htracked, hnone⟩ := hends
  refine ⟨h, h', hrun, by decide, hprocessed, hqueue, htracked, hstep, hnone, fun hone => ?_⟩
  have hkept : (0x61 : UInt16) ∈ h'.act.tracked := by
    apply hone rfl 0x67 0 0 [] hqueue h' hstep 0x61
    · rw [htracked]
      exact List.mem_cons_self
    · decide
  rw [hnone] at hkept
  cases hkept

/-! ## Presses -/

/-- The usages that a report lists, and no others but 0, are those of its keys. -/
theorem mem_reportSlots_iff {layout : KeyboardLayout} {mask : UInt16} {keys : List UInt16}
    {report : List UInt8} {usage : UInt8} (hshows : ReportShows layout mask keys report)
    (husage : usage ≠ 0) : usage ∈ report.drop 2 ↔ ∃ k ∈ keys, slotValue layout k = usage := by
  obtain ⟨modifier, slots, hreport, _, hslots, _⟩ := hshows
  have hdrop : report.drop 2 = slots := by
    rw [hreport]
    rfl
  rw [hdrop, hslots, List.mem_append, List.mem_map]
  refine or_iff_left fun hzero => husage ?_
  exact List.eq_of_mem_replicate hzero

/-- The keys that are tracked when a key has gone down. -/
theorem mem_trackKeyDown_iff {act : TusbActuator} (hwf : KeysWellFormed act) (key k : UInt16) :
    k ∈ (act.trackKeyDown key).tracked ↔
      k ∈ act.tracked ∨ (k = key ∧ act.tracked.length < 6) := by
  have hle : act.tracked.length ≤ 6 := hwf.length_tracked ▸ hwf.count_le
  rw [(trackKeyDown_spec hwf key).2]
  split
  · next hfull =>
      refine (or_iff_left_of_imp ?_).symm
      rintro ⟨rfl, hlt⟩
      exact hfull.resolve_right (Nat.ne_of_lt hlt)
  · next hroom =>
      have hlt : act.tracked.length < 6 := Nat.lt_of_le_of_ne hle fun hsix => hroom (Or.inr hsix)
      rw [List.mem_append, List.mem_singleton, and_iff_left hlt]

/-- If the step processes a KEY_DOWN, the report that it sends contains the usage of every key that
is down and has a usage of its own, that is one that is neither 0 nor that of a modifier. -/
def ShowsPlain (h : Hid) (label : HidLabel) : Prop :=
  label = .command → ∀ key mask button rest, h.act.cmdQueue = .keyDown key mask button :: rest →
    ∀ h', hidStep h .command = some h' →
      ∀ k ∈ keysDown (h.processed ++ [.keyDown key mask button]), slotValue h.layout k ≠ 0 →
        slotValue h.layout k ∈ (hostKeyboard h'.calls).drop 2

/-- If the step processes a KEY_DOWN, every key that is down and has a usage of its own shares it
with a tracked key, or with the key that goes down while fewer than six are tracked. -/
def CoversPlain (h : Hid) (label : HidLabel) : Prop :=
  label = .command → ∀ key mask button rest, h.act.cmdQueue = .keyDown key mask button :: rest →
    ∀ k ∈ keysDown (h.processed ++ [.keyDown key mask button]), slotValue h.layout k ≠ 0 →
      (∃ t ∈ h.act.tracked, slotValue h.layout t = slotValue h.layout k) ∨
        (slotValue h.layout key = slotValue h.layout k ∧ h.act.tracked.length < 6)

/-- What the report of a KEY_DOWN contains. -/
theorem mem_keyDown_report_iff {h h' : Hid} {key mask button : UInt16} {rest : List ActCmd}
    {usage : UInt8} (hinv : KeyInv h) (hqueue : h.act.cmdQueue = .keyDown key mask button :: rest)
    (hstep : hidStep h .command = some h') (husage : usage ≠ 0) :
    usage ∈ (hostKeyboard h'.calls).drop 2 ↔
      (∃ t ∈ h.act.tracked, slotValue h.layout t = usage) ∨
        (slotValue h.layout key = usage ∧ h.act.tracked.length < 6) := by
  have hp := commandStep_spec hinv.mounted hqueue hstep
  have hwf : KeysWellFormed (h.receive (.keyDown key mask button) rest).act :=
    hinv.wellFormed.of_queue rest
  obtain ⟨report, n, hshows, hcalls⟩ := processCommand_report hwf rfl hp
  have htracked : h'.act.tracked = ((h.receive (.keyDown key mask button) rest).act.trackKeyDown
      key).tracked := (processCommand_sameKeys hp).tracked
  have hmem := mem_trackKeyDown_iff hwf key
  rw [hcalls, hostKeyboard_retried, mem_reportSlots_iff hshows husage, htracked]
  constructor
  · rintro ⟨t, ht, hsame⟩
    rcases (hmem t).mp ht with hbefore | ⟨rfl, hroom⟩
    · exact Or.inl ⟨t, hbefore, hsame⟩
    · exact Or.inr ⟨hsame, hroom⟩
  · rintro (⟨t, ht, hsame⟩ | ⟨hsame, hroom⟩)
    · exact ⟨t, (hmem t).mpr (Or.inl ht), hsame⟩
    · exact ⟨key, (hmem key).mpr (Or.inr ⟨rfl, hroom⟩), hsame⟩

theorem hidStep_showsPlain_iff {h h' : Hid} {label : HidLabel} (hinv : KeyInv h)
    (hstep : hidStep h label = some h') : ShowsPlain h label ↔ CoversPlain h label := by
  refine forall_congr' fun hlabel => forall₄_congr fun key mask button rest => ?_
  refine forall_congr' fun hqueue => ?_
  subst hlabel
  constructor
  · intro hshows k hk husage
    exact (mem_keyDown_report_iff hinv hqueue hstep husage).mp (hshows h' hstep k hk husage)
  · intro hcovers s hs k hk husage
    exact (mem_keyDown_report_iff hinv hqueue hs husage).mpr (hcovers k hk husage)

/-! ## Keys that find a slot -/

/-- A key with a usage of its own goes down only while fewer than six keys are tracked or it is
tracked itself, and a key that is not tracked goes up only when no key with a usage of its own is
tracked.  The layout stays. -/
def FindsSlot (h : Hid) : HidLabel → Prop
  | .command => ∀ cmd ∈ h.act.cmdQueue.head?, match cmd with
    | .keyDown key _ _ =>
        slotValue h.layout key ≠ 0 → key ∈ h.act.tracked ∨ h.act.tracked.length < 6
    | .keyUp key _ _ => key ∈ h.act.tracked ∨ ∀ k ∈ h.act.tracked, slotValue h.layout k = 0
    | _ => True
  | .setLayout layout => keycodesSetLayout h.layout layout = h.layout
  | _ => True

/-- Every key that is down and has a usage of its own is tracked. -/
structure PlainTracked (h : Hid) : Prop where
  keys : KeyInv h
  tracked : ∀ k ∈ keysDown h.processed, slotValue h.layout k ≠ 0 → k ∈ h.act.tracked

theorem processCommand_layout {h h' : Hid} {cmd : ActCmd} (hp : h.processCommand cmd = some h') :
    h'.layout = h.layout := by
  apply (processCommand_sends hp).keeps (P := fun s => s.layout = h.layout)
  · exact fun _ _ hsame _ => hsame
  · exact fun _ _ _ hsame hsend => (sendKbReport_frame hsend).layout.trans hsame
  · rintro m m' hsame (hsend | hsend)
    · exact (sendAbsMouseOnce_frame hsend).layout.trans hsame
    · exact (sendAbsMouseRetry_frame hsend).layout.trans hsame
  · rfl

/-- A command for which a slot is found keeps the keys tracked that have a usage of their own. -/
theorem keyCommand_plain {act : TusbActuator} {layout : KeyboardLayout} {down : Finset UInt16}
    {cmd : ActCmd} (hwf : KeysWellFormed act)
    (htracked : ∀ k ∈ down, slotValue layout k ≠ 0 → k ∈ act.tracked)
    (hslot : match cmd with
      | .keyDown key _ _ => slotValue layout key ≠ 0 → key ∈ act.tracked ∨ act.tracked.length < 6
      | .keyUp key _ _ => key ∈ act.tracked ∨ ∀ k ∈ act.tracked, slotValue layout k = 0
      | _ => True) :
    ∀ k ∈ keyEffect down cmd, slotValue layout k ≠ 0 → k ∈ (act.keyCommand cmd).tracked := by
  intro k hk husage
  cases cmd with
  | keyDown key mask button =>
      apply (mem_trackKeyDown_iff hwf key k).mpr
      rcases Finset.mem_insert.mp hk with rfl | hdown
      · exact (hslot husage).imp_right fun hroom => ⟨rfl, hroom⟩
      · exact Or.inl (htracked k hdown husage)
  | keyUp key mask button =>
      obtain ⟨hne, hdown⟩ := Finset.mem_erase.mp hk
      have hbefore := htracked k hdown husage
      apply ((trackKeyUp_spec hwf key).2 k).mpr
      rcases hslot with hkey | hnone
      · exact ⟨hkey, hbefore, hne⟩
      · exact absurd (hnone k hbefore) husage
  | leave => exact absurd hk (Finset.notMem_empty k)
  | disconnected => exact absurd hk (Finset.notMem_empty k)
  | _ => exact htracked k hk husage

theorem hidStep_plainTracked (h : Hid) (label : HidLabel) (h' : Hid) (hinv : PlainTracked h)
    (hslot : FindsSlot h label) (hstep : hidStep h label = some h') : PlainTracked h' := by
  refine ⟨hidStep_keyInv h label h' hinv.keys hstep, ?_⟩
  rcases hidStep_spec hstep with ⟨cmd, rest, rfl, _, hqueue, hp⟩ | ⟨_, _, hsend⟩ |
      ⟨x, y, pending, queue, layout, rfl, hlayout⟩
  · have hsame := processCommand_sameKeys hp
    have hprocessed : h'.processed = h.processed ++ [cmd] := hsame.processed
    have hlayout : h'.layout = (h.receive cmd rest).layout := processCommand_layout hp
    have hwf : KeysWellFormed (h.receive cmd rest).act := hinv.keys.wellFormed.of_queue rest
    rw [hprocessed, keysDown_concat, hlayout, hsame.tracked]
    apply keyCommand_plain hwf hinv.tracked
    have hhead := hslot cmd (by rw [hqueue]; rfl)
    cases cmd <;> exact hhead
  · have hframe := sendAbsMouseOnce_frame hsend
    have htracked : h'.act.tracked = h.act.tracked := hframe.sameKeys.tracked
    rw [htracked, hframe.processed, hframe.layout]
    exact hinv.tracked
  · have hsame : layout = h.layout := by
      rcases hlayout with hsame | ⟨l, rfl, heq⟩
      · exact hsame
      · exact heq.trans hslot
    rw [hsame]
    exact hinv.tracked

theorem findsSlot_covers {h : Hid} {label : HidLabel} (hinv : PlainTracked h)
    (hslot : FindsSlot h label) : CoversPlain h label := by
  rintro rfl key mask button rest hqueue k hk husage
  rw [keysDown_concat] at hk
  have hhead := hslot _ (by rw [hqueue]; rfl)
  rcases Finset.mem_insert.mp hk with rfl | hdown
  · rcases hhead husage with htracked | hroom
    · exact Or.inl ⟨k, htracked, rfl⟩
    · exact Or.inr ⟨rfl, hroom⟩
  · exact Or.inl ⟨k, hinv.tracked k hdown husage, rfl⟩

/-- In every run with the device mounted: every report of a KEY_DOWN contains the usages of the keys
that are down, as far as they have one of their own, exactly if every such usage is that of a
tracked key or of the new key while there is room; and so it is if each key with a usage of its own
finds a slot when it goes down and loses it only when it goes up. -/
theorem showsPlain_run_iff {screenWidth screenHeight : UInt16} {layout : KeyboardLayout}
    {answers : List Bool} {labels : List HidLabel} {h : Hid}
    (hrun : run hidStep (Hid.init screenWidth screenHeight layout true answers) labels = some h) :
    (AllSteps hidStep ShowsPlain (Hid.init screenWidth screenHeight layout true answers) labels ↔
      AllSteps hidStep CoversPlain (Hid.init screenWidth screenHeight layout true answers) labels) ∧
    (AllSteps hidStep FindsSlot (Hid.init screenWidth screenHeight layout true answers) labels →
      AllSteps hidStep CoversPlain (Hid.init screenWidth screenHeight layout true answers)
        labels) := by
  refine ⟨run_allSteps_congr hidStep_keyInv
    (fun _ _ _ hinv hstep => hidStep_showsPlain_iff hinv hstep) (keyInv_init _ _ _ _) hrun, ?_⟩
  have hinit : PlainTracked (Hid.init screenWidth screenHeight layout true answers) :=
    ⟨keyInv_init _ _ _ _, fun k hk => absurd hk (Finset.notMem_empty k)⟩
  have himp : ∀ (s : Hid) label, PlainTracked s → FindsSlot s label → CoversPlain s label :=
    fun _ _ hinv hslot => findsSlot_covers hinv hslot
  intro hall
  exact AllSteps.imp_of_inv himp hidStep_plainTracked hinit hall

theorem showsPlain_run_iff_shiftA :
    ∃ h, run hidStep (Hid.init 1920 1080 .us true [true, true, true, true])
        (processEach shiftACmds) = some h ∧ h.processed = shiftACmds ∧
      (AllSteps hidStep ShowsPlain (Hid.init 1920 1080 .us true [true, true, true, true])
          (processEach shiftACmds) ↔
        AllSteps hidStep CoversPlain (Hid.init 1920 1080 .us true [true, true, true, true])
          (processEach shiftACmds)) := by
  have hview : (run hidStep (Hid.init 1920 1080 .us true [true, true, true, true])
      (processEach shiftACmds)).map Hid.processed = some shiftACmds := by decide
  obtain ⟨h, hrun, hprocessed⟩ := Option.map_eq_some_iff.mp hview
  exact ⟨h, hrun, hprocessed, (showsPlain_run_iff hrun).1⟩

/-- Both shift, control and alt keys go down. -/
def sixModifierCmds : List ActCmd :=
  [.keyDown 0xEFE1 0 0, .keyDown 0xEFE2 0 0, .keyDown 0xEFE3 0 0, .keyDown 0xEFE4 0 0,
    .keyDown 0xEFE9 0 0, .keyDown 0xEFEA 0 0]

/-- The letter A goes down after six modifier keys: its report lists no key. -/
theorem not_showsPlain_modifiers :
    ∃ h h', run hidStep (Hid.init 1920 1080 .us true (List.replicate 7 true))
        (processEach sixModifierCmds ++ [.xQueueSend (.keyDown 0x61 0 0)]) = some h ∧
      AllSteps keyStep KeyTurn ∅ (sixModifierCmds ++ [.keyDown 0x61 0 0]) ∧
      AllSteps keyStep (SixPlain .us) ∅ (sixModifierCmds ++ [.keyDown 0x61 0 0]) ∧
      h.processed = sixModifierCmds ∧ h.act.cmdQueue = [.keyDown 0x61 0 0] ∧
      hidStep h .command = some h' ∧ slotValue .us 0x61 = 4 ∧
      (hostKeyboard h'.calls).drop 2 = [0, 0, 0, 0, 0, 0] ∧ ¬ ShowsPlain h .command := by
  have hview : (run hidStep (Hid.init 1920 1080 .us true (List.replicate 7 true))
      (processEach sixModifierCmds ++ [.xQueueSend (.keyDown 0x61 0 0)])).bind (fun h =>
        (hidStep h .command).map fun h' =>
          (h.processed, h.act.cmdQueue, h.layout, (hostKeyboard h'.calls).drop 2)) =
      some (sixModifierCmds, [.keyDown 0x61 0 0], .us, [0, 0, 0, 0, 0, 0]) := by
    decide +kernel
  obtain ⟨h, hrun, hview⟩ := Option.bind_eq_some_iff.mp hview
  obtain ⟨h', hstep, hends⟩ := Option.map_eq_some_iff.mp hview
  simp only [Prod.mk.injEq] at hends
  obtain ⟨hprocessed, hqueue, hlayout, hreport⟩ := hends
  refine ⟨h, h', hrun, by decide, by decide, hprocessed, hqueue, hstep, by decide, hreport,
    fun hshows => ?_⟩
  have hlisted : slotValue h.layout 0x61 ∈ (hostKeyboard h'.calls).drop 2 := by
    apply hshows rfl 0x61 0 0 [] hqueue h' hstep 0x61
    · rw [hprocessed]
      decide
    · rw [hlayout]
      decide
  rw [hlayout, hreport] at hlisted
  exact absurd hlisted (by decide)

end Esp32Deskflow.Tusb
