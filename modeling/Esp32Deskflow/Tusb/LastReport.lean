/-
  Tusb/LastReport.lean --- what `last_sent_hx`, `last_sent_hy` and `last_sent_buttons`
  say about the host.

  Three functions send mouse reports, and only an accepted report changes what is
  remembered, so the memory is the last accepted report, or zeros before the first.
  A click is therefore delivered when its command ends.  A report is suppressed by a
  comparison with the memory, and the zeros pass for a report that was never sent.
-/
import Esp32Deskflow.Tusb.ReportBounds

set_option autoImplicit false

namespace Esp32Deskflow.Tusb

open Esp32Deskflow.Foundation.Transition

/-! ## Accepted mouse reports -/

/-- The fields of an absolute mouse report. -/
structure MouseFields where
  buttons : UInt8
  x : UInt16
  y : UInt16
  wheel : Int8
  deriving DecidableEq, Repr

/-- The fields in the bytes of a report, X and Y least significant byte first. -/
def readMouse : List UInt8 → Option MouseFields
  | [buttons, xLow, xHigh, yLow, yHigh, wheel] =>
      some {
        buttons := buttons
        x := UInt16.ofNat (xLow.toNat + 256 * xHigh.toNat)
        y := UInt16.ofNat (yLow.toNat + 256 * yHigh.toNat)
        wheel := wheel.toInt8 }
  | _ => none

/-- The fields of a call, if it is a mouse report that was accepted. -/
def acceptedFields : HidReport × Bool → Option MouseFields
  | (.absMouse report, true) => readMouse report
  | _ => none

/-- The mouse reports that the host accepted, in order. -/
def acceptedMouse (calls : List (HidReport × Bool)) : List MouseFields :=
  calls.filterMap acceptedFields

/-- The last mouse report that the host accepted, zeros before the first. -/
def lastMouse (calls : List (HidReport × Bool)) : MouseFields :=
  (acceptedMouse calls).getLast?.getD ⟨0, 0, 0, 0⟩

/-- The fields of the report that would be sent now. -/
def TusbActuator.mouseFields (act : TusbActuator) : MouseFields where
  buttons := act.mouseButtons
  x := toHid act.screenWidth act.targetX
  y := toHid act.screenHeight act.targetY
  wheel := act.mouseWheel

theorem ofNat_lowHigh (v : UInt16) :
    UInt16.ofNat ((v &&& 0xFF).toUInt8.toNat + 256 * (v >>> 8).toUInt8.toNat) = v := by
  rw [lowHigh_toNat, UInt16.ofNat_toNat]

/-- A report reads as what it was built from. -/
theorem acceptedFields_absMouseReport (act : TusbActuator) :
    acceptedFields (act.absMouseReport, true) = some act.mouseFields := by
  simp only [acceptedFields, TusbActuator.absMouseReport, readMouse, ofNat_lowHigh,
    TusbActuator.mouseFields]
  rw [Int8.toInt8_toUInt8]

theorem acceptedMouse_append (calls new : List (HidReport × Bool)) :
    acceptedMouse (calls ++ new) = acceptedMouse calls ++ acceptedMouse new :=
  List.filterMap_append

theorem acceptedMouse_rejected (report : HidReport) (n : Nat) :
    acceptedMouse (List.replicate n (report, false)) = [] := by
  apply List.filterMap_eq_nil_iff.mpr
  intro c hc
  rw [List.eq_of_mem_replicate hc]
  cases report <;> rfl

theorem acceptedMouse_keyboard (report : List UInt8) (n : Nat) :
    acceptedMouse (retriedCalls (.keyboard report) n) = [] := by
  unfold retriedCalls
  rw [acceptedMouse_append, acceptedMouse_rejected]
  rfl

theorem acceptedMouse_retried (act : TusbActuator) (n : Nat) :
    acceptedMouse (retriedCalls act.absMouseReport n) = [act.mouseFields] := by
  unfold retriedCalls
  rw [acceptedMouse_append, acceptedMouse_rejected, List.nil_append]
  exact List.filterMap_cons_some (acceptedFields_absMouseReport act)

theorem lastMouse_concat {calls new : List (HidReport × Bool)} {fields : MouseFields}
    (h : acceptedMouse new = acceptedMouse calls ++ [fields]) : lastMouse new = fields := by
  unfold lastMouse
  rw [h, List.getLast?_concat, Option.getD_some]

/-! ## What a send does to the last report -/

theorem sendKbReport_accepted {h h' : Hid} {report : List UInt8}
    (hsend : h.sendKbReport report = some h') :
    h'.act = h.act ∧ acceptedMouse h'.calls = acceptedMouse h.calls := by
  obtain ⟨n, rest, _, rfl⟩ := sendKbReport_spec hsend
  refine ⟨rfl, ?_⟩
  rw [acceptedMouse_append, acceptedMouse_keyboard, List.append_nil]

theorem tryMouse_accepted {h h' : Hid} (hsend : h.tryMouse = some h') :
    (h'.act = h.act ∧ acceptedMouse h'.calls = acceptedMouse h.calls) ∨
      (h'.act = h.act.mouseSent ∧
        acceptedMouse h'.calls = acceptedMouse h.calls ++ [h.act.mouseFields]) := by
  obtain ⟨answer, rest, _, rfl⟩ := tryMouse_spec hsend
  have haccepted : acceptedMouse [(h.act.absMouseReport, true)] = [h.act.mouseFields] :=
    acceptedMouse_retried h.act 0
  have hrejected : acceptedMouse [(h.act.absMouseReport, false)] = [] :=
    acceptedMouse_rejected h.act.absMouseReport 1
  cases answer with
  | true =>
      refine Or.inr ⟨rfl, ?_⟩
      rw [acceptedMouse_append, haccepted]
  | false =>
      refine Or.inl ⟨rfl, ?_⟩
      rw [acceptedMouse_append, hrejected, List.append_nil]

/-- A function that sends the mouse leaves the actuator as it is, or its report was accepted and
is remembered. -/
theorem sendMouse_accepted {h h' : Hid}
    (hsend : h.sendAbsMouseOnce = some h' ∨ h.sendAbsMouseRetry = some h') :
    (h'.act = h.act ∧ acceptedMouse h'.calls = acceptedMouse h.calls) ∨
      (h'.act = h.act.mouseSent ∧
        acceptedMouse h'.calls = acceptedMouse h.calls ++ [h.act.mouseFields]) := by
  rcases hsend with honce | hretry
  · rcases sendAbsMouseOnce_spec honce with ⟨rfl, _⟩ | htry
    · exact Or.inl ⟨rfl, rfl⟩
    · exact tryMouse_accepted htry
  · rcases sendAbsMouseRetry_spec hretry with ⟨n, rest, _, rfl⟩ | htry
    · refine Or.inr ⟨rfl, ?_⟩
      rw [acceptedMouse_append, acceptedMouse_retried]
    · exact tryMouse_accepted htry

/-! ## The memory is the last report -/

/-- What is remembered is the last accepted report. -/
structure LastSentInv (h : Hid) : Prop where
  x : h.act.lastSentHx = (lastMouse h.calls).x
  y : h.act.lastSentHy = (lastMouse h.calls).y
  buttons : h.act.lastSentButtons = (lastMouse h.calls).buttons

theorem lastSentInv_init (screenWidth screenHeight : UInt16) (layout : KeyboardLayout)
    (mounted : Bool) (answers : List Bool) :
    LastSentInv (Hid.init screenWidth screenHeight layout mounted answers) :=
  ⟨rfl, rfl, rfl⟩

theorem LastSentInv.edit {cmd : ActCmd} {h : Hid} {act : TusbActuator} (hinv : LastSentInv h)
    (hedit : Edits cmd h.act act) : LastSentInv { h with act := act } :=
  ⟨hedit.lastHx.trans hinv.x, hedit.lastHy.trans hinv.y, hedit.lastButtons.trans hinv.buttons⟩

/-- The invariant is about the memory and the accepted reports. -/
theorem LastSentInv.of_same {h h' : Hid} (hinv : LastSentInv h) (hact : h'.act = h.act)
    (haccepted : acceptedMouse h'.calls = acceptedMouse h.calls) : LastSentInv h' := by
  have hlast : lastMouse h'.calls = lastMouse h.calls := by
    unfold lastMouse
    rw [haccepted]
  refine ⟨?_, ?_, ?_⟩
  · rw [hact, hlast]
    exact hinv.x
  · rw [hact, hlast]
    exact hinv.y
  · rw [hact, hlast]
    exact hinv.buttons

theorem LastSentInv.keyboard {h h' : Hid} {report : List UInt8} (hinv : LastSentInv h)
    (hsend : h.sendKbReport report = some h') : LastSentInv h' := by
  obtain ⟨hact, haccepted⟩ := sendKbReport_accepted hsend
  exact hinv.of_same hact haccepted

theorem LastSentInv.mouse {h h' : Hid} (hinv : LastSentInv h)
    (hsend : h.sendAbsMouseOnce = some h' ∨ h.sendAbsMouseRetry = some h') : LastSentInv h' := by
  rcases sendMouse_accepted hsend with ⟨hact, haccepted⟩ | ⟨hact, haccepted⟩
  · exact hinv.of_same hact haccepted
  · have hlast := lastMouse_concat haccepted
    refine ⟨?_, ?_, ?_⟩
    · rw [hact, hlast]
      rfl
    · rw [hact, hlast]
      rfl
    · rw [hact, hlast]
      rfl

theorem LastSentInv.command {h h' : Hid} {cmd : ActCmd} (hinv : LastSentInv h)
    (hp : h.processCommand cmd = some h') : LastSentInv h' := by
  apply (processCommand_sends hp).keeps
  · exact fun _ _ hinv hedit => hinv.edit hedit
  · exact fun _ _ _ hinv hsend => hinv.keyboard hsend
  · exact fun _ _ hinv hsend => hinv.mouse hsend
  · exact hinv

theorem hidStep_lastSentInv (h : Hid) (label : HidLabel) (h' : Hid) (hinv : LastSentInv h)
    (hstep : hidStep h label = some h') : LastSentInv h' := by
  rcases hidStep_spec hstep with ⟨cmd, rest, _, _, _, hp⟩ | ⟨_, _, hsend⟩ |
      ⟨x, y, pending, queue, layout, rfl, _⟩
  · have hreceived : LastSentInv (h.receive cmd rest) := ⟨hinv.x, hinv.y, hinv.buttons⟩
    exact hreceived.command hp
  · have htaken : LastSentInv { h with act := { h.act with movementPending := 0 } } :=
      ⟨hinv.x, hinv.y, hinv.buttons⟩
    exact htaken.mouse (Or.inl hsend)
  · exact ⟨hinv.x, hinv.y, hinv.buttons⟩

/-! ## The buttons that are down -/

/-- The buttons that are down after a command, given those before it. -/
def buttonEffect (down : Finset Int8) : ActCmd → Finset Int8
  | .mouseDown id => insert id down
  | .mouseUp id => down.erase id
  | .leave | .disconnected => ∅
  | _ => down

/-- The buttons that are down after a sequence of commands. -/
def buttonsDown (cmds : List ActCmd) : Finset Int8 := cmds.foldl buttonEffect ∅

/-- The bits of the buttons 1, 2 and 3, as far as they are down. -/
def bitUnion (one two three : Bool) : UInt8 :=
  (if one then barrierButtonToHid 1 else 0) ||| (if two then barrierButtonToHid 2 else 0) |||
    (if three then barrierButtonToHid 3 else 0)

/-- The union of the bits of the buttons 1, 2 and 3 among these. -/
def buttonBits (down : Finset Int8) : UInt8 :=
  bitUnion (decide (1 ∈ down)) (decide (2 ∈ down)) (decide (3 ∈ down))

theorem buttonBits_empty : buttonBits ∅ = 0 := by decide

theorem buttonsDown_concat (cmds : List ActCmd) (cmd : ActCmd) :
    buttonsDown (cmds ++ [cmd]) = buttonEffect (buttonsDown cmds) cmd := by
  rw [buttonsDown, List.foldl_append]
  rfl

/-- Only the buttons 1, 2 and 3 have a bit. -/
theorem barrierButtonToHid_of_ne {id : Int8} (h1 : id ≠ 1) (h2 : id ≠ 2) (h3 : id ≠ 3) :
    barrierButtonToHid id = 0 := by
  unfold barrierButtonToHid
  rw [if_neg h1, if_neg h2, if_neg h3]

theorem barrierButtonToHid_cases (id : Int8) :
    id = 1 ∨ id = 2 ∨ id = 3 ∨ (id ≠ 1 ∧ id ≠ 2 ∧ id ≠ 3 ∧ barrierButtonToHid id = 0) := by
  by_cases h1 : id = 1
  · exact Or.inl h1
  by_cases h2 : id = 2
  · exact Or.inr (Or.inl h2)
  by_cases h3 : id = 3
  · exact Or.inr (Or.inr (Or.inl h3))
  · exact Or.inr (Or.inr (Or.inr ⟨h1, h2, h3, barrierButtonToHid_of_ne h1 h2 h3⟩))

theorem buttonBits_insert (down : Finset Int8) (id : Int8) :
    buttonBits (insert id down) = buttonBits down ||| barrierButtonToHid id := by
  have hbits : ∀ a b c : Bool,
      bitUnion true b c = bitUnion a b c ||| barrierButtonToHid 1 ∧
      bitUnion a true c = bitUnion a b c ||| barrierButtonToHid 2 ∧
      bitUnion a b true = bitUnion a b c ||| barrierButtonToHid 3 := by decide
  have h := hbits (decide (1 ∈ down)) (decide (2 ∈ down)) (decide (3 ∈ down))
  unfold buttonBits
  rcases barrierButtonToHid_cases id with rfl | rfl | rfl | ⟨h1, h2, h3, hzero⟩
  · simpa using h.1
  · simpa using h.2.1
  · simpa using h.2.2
  · simp [hzero, h1.symm, h2.symm, h3.symm]

theorem buttonBits_erase (down : Finset Int8) (id : Int8) :
    buttonBits (down.erase id) = buttonBits down &&& ~~~ barrierButtonToHid id := by
  have hbits : ∀ a b c : Bool,
      bitUnion false b c = bitUnion a b c &&& ~~~ barrierButtonToHid 1 ∧
      bitUnion a false c = bitUnion a b c &&& ~~~ barrierButtonToHid 2 ∧
      bitUnion a b false = bitUnion a b c &&& ~~~ barrierButtonToHid 3 := by decide
  have h := hbits (decide (1 ∈ down)) (decide (2 ∈ down)) (decide (3 ∈ down))
  unfold buttonBits
  rcases barrierButtonToHid_cases id with rfl | rfl | rfl | ⟨h1, h2, h3, hzero⟩
  · simpa using h.1
  · simpa using h.2.1
  · simpa using h.2.2
  · simp [hzero, h1.symm, h2.symm, h3.symm]

/-! ## Clicks -/

theorem SendFrame.mouseButtons {h h' : Hid} (hframe : SendFrame h h') :
    h'.act.mouseButtons = h.act.mouseButtons := by
  obtain ⟨hx, hy, buttons, wheel, hact⟩ := hframe.act
  rw [hact]

/-- What a command does to `mouse_buttons`. -/
def buttonCommand (buttons : UInt8) : ActCmd → UInt8
  | .mouseDown id => buttons ||| barrierButtonToHid id
  | .mouseUp id => buttons &&& ~~~ barrierButtonToHid id
  | .leave | .disconnected => 0
  | _ => buttons

/-- It has the same effect on the byte as on the buttons that are down. -/
theorem buttonBits_effect (down : Finset Int8) (cmd : ActCmd) :
    buttonBits (buttonEffect down cmd) = buttonCommand (buttonBits down) cmd := by
  cases cmd with
  | mouseDown id => exact buttonBits_insert down id
  | mouseUp id => exact buttonBits_erase down id
  | leave => exact buttonBits_empty
  | disconnected => exact buttonBits_empty
  | _ => rfl

theorem processCommand_mouseButtons {h h' : Hid} {cmd : ActCmd}
    (hp : h.processCommand cmd = some h') :
    h'.act.mouseButtons = buttonCommand h.act.mouseButtons cmd := by
  cases hset : cmd.setsButtons with
  | true =>
      cases cmd with
      | mouseDown id => exact (sendAbsMouseRetry_frame hp).mouseButtons
      | mouseUp id => exact (sendAbsMouseRetry_frame hp).mouseButtons
      | leave =>
          obtain ⟨m, _, hrest⟩ := Option.bind_eq_some_iff.mp hp
          exact (sendAbsMouseOnce_frame hrest).mouseButtons
      | disconnected =>
          cases hp
          rfl
      | _ => cases hset
  | false =>
      have hsame : h'.act.mouseButtons = h.act.mouseButtons := by
        apply (processCommand_sends hp).keeps
          (P := fun s => s.act.mouseButtons = h.act.mouseButtons)
        · exact fun _ _ hsame hedit => (hedit.buttons hset).trans hsame
        · exact fun _ _ _ hsame hsend => (sendKbReport_frame hsend).mouseButtons.trans hsame
        · rintro m m' hsame (hsend | hsend)
          · exact (sendAbsMouseOnce_frame hsend).mouseButtons.trans hsame
          · exact (sendAbsMouseRetry_frame hsend).mouseButtons.trans hsame
        · rfl
      rw [hsame]
      cases cmd <;> first | rfl | cases hset

/-- A function that sends a change of the buttons ends when the host has them. -/
theorem sendAbsMouseRetry_remembers {h h' : Hid} (hsend : h.sendAbsMouseRetry = some h') :
    h'.act.lastSentButtons = h'.act.mouseButtons := by
  by_cases hchanged : h.act.mouseButtons = h.act.lastSentButtons
  · rcases sendMouse_accepted (Or.inr hsend) with ⟨hact, _⟩ | ⟨hact, _⟩
    · rw [hact]
      exact hchanged.symm
    · rw [hact]
      rfl
  · unfold Hid.sendAbsMouseRetry at hsend
    rw [if_pos hchanged] at hsend
    obtain ⟨r, _, rfl⟩ := Option.map_eq_some_iff.mp hsend
    rfl

/-- `mouse_buttons` is the union of the bits of the buttons that are down. -/
structure ButtonBitsInv (h : Hid) : Prop where
  mounted : h.mounted = true
  bits : h.act.mouseButtons = buttonBits (buttonsDown h.processed)

theorem ButtonBitsInv.command {h h' : Hid} {cmd : ActCmd} {rest : List ActCmd}
    (hinv : ButtonBitsInv h) (hp : (h.receive cmd rest).processCommand cmd = some h') :
    ButtonBitsInv h' := by
  have hsame := processCommand_sameKeys hp
  have hprocessed : h'.processed = h.processed ++ [cmd] := hsame.processed
  refine ⟨hsame.mounted.trans hinv.mounted, ?_⟩
  have hbits : (h.receive cmd rest).act.mouseButtons = buttonBits (buttonsDown h.processed) :=
    hinv.bits
  rw [processCommand_mouseButtons hp, hprocessed, buttonsDown_concat, buttonBits_effect, hbits]

theorem hidStep_buttonBits (h : Hid) (label : HidLabel) (h' : Hid) (hinv : ButtonBitsInv h)
    (hstep : hidStep h label = some h') : ButtonBitsInv h' := by
  rcases hidStep_spec hstep with ⟨cmd, rest, _, _, _, hp⟩ | ⟨_, _, hsend⟩ |
      ⟨x, y, pending, queue, layout, rfl, _⟩
  · exact hinv.command hp
  · have hframe := sendAbsMouseOnce_frame hsend
    refine ⟨hframe.mounted.trans hinv.mounted, ?_⟩
    rw [hframe.mouseButtons, hframe.processed]
    exact hinv.bits
  · exact ⟨hinv.mounted, hinv.bits⟩

/-- The command presses or releases a button. -/
def ActCmd.isClick : ActCmd → Bool
  | .mouseDown _ | .mouseUp _ => true
  | _ => false

/-- In every state that the HID task reaches with the device mounted: what is remembered is the
last accepted mouse report; `mouse_buttons` is the union of the bits of the buttons that are down;
and when a click has been processed, the last accepted report shows them. -/
theorem lastReport_run {screenWidth screenHeight : UInt16} {layout : KeyboardLayout}
    {answers : List Bool} {labels : List HidLabel} {h : Hid}
    (hrun : run hidStep (Hid.init screenWidth screenHeight layout true answers) labels = some h) :
    (h.act.lastSentHx = (lastMouse h.calls).x ∧ h.act.lastSentHy = (lastMouse h.calls).y ∧
      h.act.lastSentButtons = (lastMouse h.calls).buttons) ∧
    h.act.mouseButtons = buttonBits (buttonsDown h.processed) ∧
    (∀ h' cmd rest, h.act.cmdQueue = cmd :: rest → cmd.isClick = true →
      hidStep h .command = some h' →
      (lastMouse h'.calls).buttons = h'.act.mouseButtons ∧
        h'.act.mouseButtons = buttonBits (buttonsDown (h.processed ++ [cmd]))) := by
  have hlast : LastSentInv h := run_invariant hidStep_lastSentInv (lastSentInv_init _ _ _ _ _) hrun
  have hinit : ButtonBitsInv (Hid.init screenWidth screenHeight layout true answers) :=
    ⟨rfl, buttonBits_empty.symm⟩
  have hbits : ButtonBitsInv h := run_invariant hidStep_buttonBits hinit hrun
  refine ⟨⟨hlast.x, hlast.y, hlast.buttons⟩, hbits.bits, ?_⟩
  intro h' cmd rest hqueue hclick hstep
  have hp := commandStep_spec hbits.mounted hqueue hstep
  have hlast' := hidStep_lastSentInv h .command h' hlast hstep
  have hprocessed : h'.processed = h.processed ++ [cmd] := (processCommand_sameKeys hp).processed
  have hremembers : h'.act.lastSentButtons = h'.act.mouseButtons := by
    cases cmd with
    | mouseDown id => exact sendAbsMouseRetry_remembers hp
    | mouseUp id => exact sendAbsMouseRetry_remembers hp
    | _ => cases hclick
  refine ⟨hlast'.buttons.symm.trans hremembers, ?_⟩
  rw [← hprocessed]
  exact (hbits.command hp).bits

/-- The left button is pressed, its report is rejected once, and the right one follows. -/
def twoButtonLabels : List HidLabel :=
  [.xQueueSend (.mouseDown 1), .command, .xQueueSend (.mouseDown 3)]

theorem lastReport_run_twoButtons :
    ∃ h, run hidStep (Hid.init 1920 1080 .us true [false, true, true]) twoButtonLabels = some h ∧
      h.act.mouseButtons = 1 ∧
      (h.act.lastSentHx = (lastMouse h.calls).x ∧ h.act.lastSentHy = (lastMouse h.calls).y ∧
        h.act.lastSentButtons = (lastMouse h.calls).buttons) ∧
      h.act.mouseButtons = buttonBits (buttonsDown h.processed) ∧
      ∀ h' cmd rest, h.act.cmdQueue = cmd :: rest → cmd.isClick = true →
        hidStep h .command = some h' →
        (lastMouse h'.calls).buttons = h'.act.mouseButtons ∧
          h'.act.mouseButtons = buttonBits (buttonsDown (h.processed ++ [cmd])) := by
  have hview : (run hidStep (Hid.init 1920 1080 .us true [false, true, true])
      twoButtonLabels).map (fun h => h.act.mouseButtons) = some 1 := by decide
  obtain ⟨h, hrun, hone⟩ := Option.map_eq_some_iff.mp hview
  exact ⟨h, hrun, hone, lastReport_run hrun⟩

end Esp32Deskflow.Tusb
