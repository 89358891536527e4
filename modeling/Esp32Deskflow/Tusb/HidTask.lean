/-
  Tusb/HidTask.lean --- `hid_task` and the report functions of `tusb_actuator.c`.

  `tud_hid_report` belongs to the USB stack.  Its answers are a script that the calls
  consume in order, and every call is logged with its answer.  A script that ends
  while a report still has to be sent is `none`: the task has not got that far.

  An iteration of the loop has two parts, the check for a pending movement and the
  command at the head of the queue.  The other tasks may act between them.

  The remote wakeup and its pending flag are left out: nothing here reads them.
-/
import Esp32Deskflow.Foundation.Transition
import Esp32Deskflow.Tusb.Actuator
import Esp32Deskflow.Tusb.Keycodes

set_option autoImplicit false

namespace Esp32Deskflow.Tusb

open Esp32Deskflow.Foundation.Transition

/-! ## The task and its surroundings -/

/-- A report and the report id it is sent under. -/
inductive HidReport where
  | keyboard (report : List UInt8)
  | absMouse (report : List UInt8)
  deriving DecidableEq, Repr

/-- What the HID task reads and writes. -/
structure Hid where
  act : TusbActuator
  /-- the layout that `s_table` belongs to -/
  layout : KeyboardLayout
  /-- `tud_mounted` -/
  mounted : Bool
  /-- the answers of `tud_hid_report` to come -/
  answers : List Bool
  /-- the calls of `tud_hid_report` so far with their answers -/
  calls : List (HidReport × Bool)
  /-- the commands processed so far, which nothing reads -/
  processed : List ActCmd
  deriving DecidableEq, Repr

/-! ## Sending reports -/

/-- `to_hid_x` and `to_hid_y`, for the screen size in that direction. -/
def toHid (size v : UInt16) : UInt16 :=
  if size - 1 = 0 then 0 else (v.toUInt32 * 32767 / (size - 1).toUInt32).toUInt16

/-- The calls of a loop that sends a report until it is accepted, and the answers left. -/
def sendUntilAccepted (report : HidReport) :
    List Bool → Option (List (HidReport × Bool) × List Bool)
  | [] => none
  | true :: answers => some ([(report, true)], answers)
  | false :: answers =>
      (sendUntilAccepted report answers).map fun r => ((report, false) :: r.1, r.2)

/-- `send_kb_report`. -/
def Hid.sendKbReport (h : Hid) (report : List UInt8) : Option Hid :=
  (sendUntilAccepted (.keyboard report) h.answers).map fun r =>
    { h with calls := h.calls ++ r.1, answers := r.2 }

/-- The report with the current buttons, position and wheel. -/
def TusbActuator.absMouseReport (act : TusbActuator) : HidReport :=
  let hx := toHid act.screenWidth act.targetX
  let hy := toHid act.screenHeight act.targetY
  .absMouse [act.mouseButtons, (hx &&& 0xFF).toUInt8, (hx >>> 8).toUInt8,
    (hy &&& 0xFF).toUInt8, (hy >>> 8).toUInt8, act.mouseWheel.toUInt8]

/-- What is remembered of an accepted mouse report. -/
def TusbActuator.mouseSent (act : TusbActuator) : TusbActuator :=
  { act with
    lastSentHx := toHid act.screenWidth act.targetX
    lastSentHy := toHid act.screenHeight act.targetY
    lastSentButtons := act.mouseButtons
    mouseWheel := 0 }

/-- One attempt to send the mouse report. -/
def Hid.tryMouse (h : Hid) : Option Hid :=
  match h.answers with
  | [] => none
  | true :: answers =>
      some { h with
        act := h.act.mouseSent
        calls := h.calls ++ [(h.act.absMouseReport, true)]
        answers := answers }
  | false :: answers =>
      some { h with calls := h.calls ++ [(h.act.absMouseReport, false)], answers := answers }

/-- `send_abs_mouse_retry`: a change of the buttons is sent until it is accepted. -/
def Hid.sendAbsMouseRetry (h : Hid) : Option Hid :=
  if h.act.mouseButtons ≠ h.act.lastSentButtons then
    (sendUntilAccepted h.act.absMouseReport h.answers).map fun r =>
      { h with act := h.act.mouseSent, calls := h.calls ++ r.1, answers := r.2 }
  else h.tryMouse

/-- `send_abs_mouse_once`: nothing is sent if nothing has changed. -/
def Hid.sendAbsMouseOnce (h : Hid) : Option Hid :=
  if toHid h.act.screenWidth h.act.targetX = h.act.lastSentHx ∧
      toHid h.act.screenHeight h.act.targetY = h.act.lastSentHy ∧
      h.act.mouseButtons = h.act.lastSentButtons ∧ h.act.mouseWheel = 0 then some h
  else h.tryMouse

/-! ## Keys -/

/-- The index of a key among the tracked keys. -/
def TusbActuator.findKey (act : TusbActuator) (key : UInt16) : Option Nat :=
  (act.pressedKeys.toList.take act.keyCount).findIdx? fun k => k == key

/-- No key is tracked any more. -/
def TusbActuator.clearKeys (act : TusbActuator) : TusbActuator :=
  { act with keyCount := 0, pressedKeys := Vector.replicate 6 0 }

/-- The tracking of a key that goes down: appended if it is new and there is room. -/
def TusbActuator.trackKeyDown (act : TusbActuator) (key : UInt16) : TusbActuator :=
  if act.keyCount < hidMaxKeys then
    match act.findKey key with
    | some _ => act
    | none =>
        { act with
          pressedKeys := act.pressedKeys.setIfInBounds act.keyCount key
          keyCount := act.keyCount + 1 }
  else act

/-- The last tracked key moves into slot `i`. -/
def TusbActuator.removeSlot (act : TusbActuator) (i : Nat) : TusbActuator :=
  let last := act.pressedKeys.toList.getD (act.keyCount - 1) 0
  { act with
    pressedKeys := (act.pressedKeys.setIfInBounds i last).setIfInBounds (act.keyCount - 1) 0
    keyCount := act.keyCount - 1 }

/-- The tracking of a key that goes up.  An unknown key clears them all. -/
def TusbActuator.trackKeyUp (act : TusbActuator) (key : UInt16) : TusbActuator :=
  match act.findKey key with
  | some i => act.removeSlot i
  | none => act.clearKeys

/-- The usage of a slot of `pressed_keys`. -/
def slotUsage (layout : KeyboardLayout) (k : UInt16) : UInt8 :=
  if k = 0 then 0 else barrierKeyToHid layout k

/-- A modifier key, which has a bit of its own in the report. -/
def isModifierUsage (hid : UInt8) : Bool := 0xE0 ≤ hid && hid ≤ 0xE7

/-- The loop that builds a keyboard report from the slots: the modifier byte and the
usages so far go in, those after the remaining slots come out. -/
def kbReportLoop (layout : KeyboardLayout) :
    List UInt16 → UInt8 → List UInt8 → UInt8 × List UInt8
  | [], modifier, usages => (modifier, usages)
  | k :: ks, modifier, usages =>
      let hid := slotUsage layout k
      if isModifierUsage hid then
        kbReportLoop layout ks (modifier ||| (1 <<< (hid - 0xE0))) (usages ++ [0])
      else kbReportLoop layout ks modifier (usages ++ [hid])

/-- The keyboard report of a KEY_DOWN or KEY_UP with this mask. -/
def kbReport (layout : KeyboardLayout) (keys : Vector UInt16 6) (mask : UInt16) : List UInt8 :=
  let r := kbReportLoop layout keys.toList (maskToTusbModifier mask) []
  r.1 :: 0 :: r.2

/-! ## Commands -/

/-- `barrier_button_to_hid`. -/
def barrierButtonToHid (button : Int8) : UInt8 :=
  if button = 1 then 0x01
  else if button = 2 then 0x04
  else if button = 3 then 0x02
  else 0

/-- The scroll distance of a wheel command. -/
def dampenWheel (dy : Int16) : Int8 :=
  if dy > 3 then 3 else if dy < -3 then -3 else dy.toInt8

/-- ACT_CMD_JIGGLE moves the target here and back. -/
def jiggleX (act : TusbActuator) : UInt16 :=
  if act.targetX.toNat + 1 < act.screenWidth.toNat then act.targetX + 1 else act.targetX - 1

/-- The body of the `switch` in `hid_task`. -/
def Hid.processCommand (h : Hid) : ActCmd → Option Hid
  | .keyDown key mask _ =>
      let act := h.act.trackKeyDown key
      { h with act := act }.sendKbReport (kbReport h.layout act.pressedKeys mask)
  | .keyUp key mask _ =>
      let act := h.act.trackKeyUp key
      { h with act := act }.sendKbReport (kbReport h.layout act.pressedKeys mask)
  | .keyRepeat _ _ _ _ => some h
  | .mouseDown id =>
      { h with act := { h.act with
          mouseButtons := h.act.mouseButtons ||| barrierButtonToHid id } }.sendAbsMouseRetry
  | .mouseUp id =>
      { h with act := { h.act with
          mouseButtons := h.act.mouseButtons &&& ~~~ barrierButtonToHid id } }.sendAbsMouseRetry
  | .mouseWheel _ dy =>
      { h with act := { h.act with mouseWheel := dampenWheel dy } }.sendAbsMouseRetry
  | .enter x y mask =>
      ({ h with act := { h.act with targetX := x, targetY := y } }.sendAbsMouseOnce).bind fun h =>
        if mask ≠ 0 then h.sendKbReport [maskToTusbModifier mask, 0, 0, 0, 0, 0, 0, 0]
        else some h
  | .leave =>
      ({ h with act := h.act.clearKeys }.sendKbReport [0, 0, 0, 0, 0, 0, 0, 0]).bind fun h =>
        { h with act := { h.act with mouseButtons := 0, mouseWheel := 0 } }.sendAbsMouseOnce
  | .jiggle =>
      let origX := h.act.targetX
      let origY := h.act.targetY
      ({ h with act := { h.act with
          targetX := jiggleX h.act, targetY := origY } }.sendAbsMouseOnce).bind fun h =>
        { h with act := { h.act with targetX := origX, targetY := origY } }.sendAbsMouseOnce
  | .connected => some h
  | .disconnected =>
      some { h with act := { h.act.clearKeys with mouseButtons := 0, mouseWheel := 0 } }
  | .setScreenSize w ht =>
      some { h with act := { h.act with screenWidth := w, screenHeight := ht } }
  | .setScaling scaling => some { h with act := { h.act with scaling := scaling } }

/-! ## The loop -/

/-- The first part of an iteration: a pending movement is taken up and sent once. -/
def Hid.movementStep (h : Hid) : Option Hid :=
  if h.act.movementPending = 1 then
    let h' := { h with act := { h.act with movementPending := 0 } }
    if h.mounted then h'.sendAbsMouseOnce else some h'
  else some h

/-- The second part: the command at the head of the queue, or a sleep. -/
def Hid.commandStep (h : Hid) : Option Hid :=
  match h.act.xQueueReceive with
  | none => some h
  | some (cmd, act) =>
      let h' := { h with act := act }
      if h.mounted then
        { h' with processed := h.processed ++ [cmd] }.processCommand cmd
      else some h'

/-- An iteration of `hid_task`. -/
def Hid.iteration (h : Hid) : Option Hid := h.movementStep.bind Hid.commandStep

/-- The steps of the HID task, and those that other tasks take on its state. -/
inductive HidLabel where
  /-- `hid_task`: the first part of an iteration -/
  | movement
  /-- `hid_task`: the second part -/
  | command
  /-- a command enters the queue -/
  | xQueueSend (cmd : ActCmd)
  /-- a command is taken out of the queue by another task -/
  | xQueueReceive
  /-- `actuator_set_movement` -/
  | setMovement (x y : UInt16)
  /-- `actuator_move_relative` -/
  | moveRelative (dx dy : Int16)
  /-- `keycodes_set_layout` -/
  | setLayout (layout : UInt8)
  deriving DecidableEq, Repr

/-- One step of the HID task or of its surroundings. -/
def hidStep (h : Hid) : HidLabel → Option Hid
  | .movement => h.movementStep
  | .command => h.commandStep
  | .xQueueSend cmd => (h.act.xQueueSend cmd).map fun act => { h with act := act }
  | .xQueueReceive => (h.act.xQueueReceive).map fun r => { h with act := r.2 }
  | .setMovement x y => some { h with act := actuatorSetMovement h.act x y }
  | .moveRelative dx dy => some { h with act := actuatorMoveRelative h.act dx dy }
  | .setLayout layout => some { h with layout := keycodesSetLayout h.layout layout }

/-- The state after `tusb_actuator_init`, with a script of answers. -/
def Hid.init (screenWidth screenHeight : UInt16) (layout : KeyboardLayout) (mounted : Bool)
    (answers : List Bool) : Hid where
  act := tusbActuatorInit screenWidth screenHeight
  layout := layout
  mounted := mounted
  answers := answers
  calls := []
  processed := []

/-! ## What a send function does -/

/-- The calls of a loop that was accepted after `n` rejections. -/
def retriedCalls (report : HidReport) (n : Nat) : List (HidReport × Bool) :=
  List.replicate n (report, false) ++ [(report, true)]

theorem sendUntilAccepted_spec {report : HidReport} {answers rest : List Bool}
    {calls : List (HidReport × Bool)}
    (h : sendUntilAccepted report answers = some (calls, rest)) :
    ∃ n, answers = List.replicate n false ++ true :: rest ∧ calls = retriedCalls report n := by
  induction answers generalizing calls with
  | nil => cases h
  | cons answer answers ih =>
      cases answer with
      | true =>
          cases h
          exact ⟨0, rfl, rfl⟩
      | false =>
          obtain ⟨r, hr, hcons⟩ := Option.map_eq_some_iff.mp h
          cases hcons
          obtain ⟨n, hanswers, hcalls⟩ := ih hr
          refine ⟨n + 1, ?_, ?_⟩
          · rw [hanswers]
            rfl
          · rw [hcalls]
            rfl

theorem sendKbReport_spec {h h' : Hid} {report : List UInt8}
    (hsend : h.sendKbReport report = some h') :
    ∃ n rest, h.answers = List.replicate n false ++ true :: rest ∧
      h' = { h with calls := h.calls ++ retriedCalls (.keyboard report) n, answers := rest } := by
  obtain ⟨⟨calls, rest⟩, hr, heq⟩ := Option.map_eq_some_iff.mp hsend
  obtain ⟨n, hanswers, hcalls⟩ := sendUntilAccepted_spec hr
  refine ⟨n, rest, hanswers, ?_⟩
  rw [← heq, ← hcalls]

theorem tryMouse_spec {h h' : Hid} (hsend : h.tryMouse = some h') :
    ∃ answer rest, h.answers = answer :: rest ∧
      h' = { h with
        act := if answer then h.act.mouseSent else h.act
        calls := h.calls ++ [(h.act.absMouseReport, answer)]
        answers := rest } := by
  unfold Hid.tryMouse at hsend
  split at hsend
  · cases hsend
  · rename_i rest hanswers
    cases hsend
    exact ⟨true, rest, hanswers, rfl⟩
  · rename_i rest hanswers
    cases hsend
    exact ⟨false, rest, hanswers, rfl⟩

/-- A mouse report is sent once, unless it would repeat the last one. -/
theorem sendAbsMouseOnce_spec {h h' : Hid} (hsend : h.sendAbsMouseOnce = some h') :
    (h' = h ∧ h.act.mouseButtons = h.act.lastSentButtons) ∨ h.tryMouse = some h' := by
  unfold Hid.sendAbsMouseOnce at hsend
  split at hsend
  · rename_i hsame
    cases hsend
    exact .inl ⟨rfl, hsame.2.2.1⟩
  · exact .inr hsend

/-- A mouse report is sent until it is accepted if the buttons have changed, and once
otherwise. -/
theorem sendAbsMouseRetry_spec {h h' : Hid} (hsend : h.sendAbsMouseRetry = some h') :
    (∃ n rest, h.answers = List.replicate n false ++ true :: rest ∧
      h' = { h with
        act := h.act.mouseSent
        calls := h.calls ++ retriedCalls h.act.absMouseReport n
        answers := rest }) ∨ h.tryMouse = some h' := by
  unfold Hid.sendAbsMouseRetry at hsend
  split at hsend
  · obtain ⟨⟨calls, rest⟩, hr, heq⟩ := Option.map_eq_some_iff.mp hsend
    obtain ⟨n, hanswers, hcalls⟩ := sendUntilAccepted_spec hr
    refine .inl ⟨n, rest, hanswers, ?_⟩
    rw [← heq, ← hcalls]
  · exact .inr hsend

/-- Two states of the task that differ in what a send function may change: the script and
log of the calls, and what is remembered of the last mouse report. -/
structure SendFrame (h h' : Hid) : Prop where
  act : ∃ hx hy buttons wheel, h'.act = { h.act with
    lastSentHx := hx, lastSentHy := hy, lastSentButtons := buttons, mouseWheel := wheel }
  layout : h'.layout = h.layout
  mounted : h'.mounted = h.mounted
  processed : h'.processed = h.processed

theorem SendFrame.refl (h : Hid) : SendFrame h h := ⟨⟨_, _, _, _, rfl⟩, rfl, rfl, rfl⟩

theorem sendKbReport_frame {h h' : Hid} {report : List UInt8}
    (hsend : h.sendKbReport report = some h') : SendFrame h h' := by
  obtain ⟨n, rest, -, rfl⟩ := sendKbReport_spec hsend
  exact ⟨⟨_, _, _, _, rfl⟩, rfl, rfl, rfl⟩

theorem tryMouse_frame {h h' : Hid} (hsend : h.tryMouse = some h') : SendFrame h h' := by
  obtain ⟨answer, rest, -, rfl⟩ := tryMouse_spec hsend
  cases answer <;> exact ⟨⟨_, _, _, _, rfl⟩, rfl, rfl, rfl⟩

theorem sendAbsMouseOnce_frame {h h' : Hid} (hsend : h.sendAbsMouseOnce = some h') :
    SendFrame h h' := by
  rcases sendAbsMouseOnce_spec hsend with ⟨rfl, -⟩ | htry
  · exact .refl _
  · exact tryMouse_frame htry

theorem sendAbsMouseRetry_frame {h h' : Hid} (hsend : h.sendAbsMouseRetry = some h') :
    SendFrame h h' := by
  rcases sendAbsMouseRetry_spec hsend with ⟨n, rest, -, rfl⟩ | htry
  · exact ⟨⟨_, _, _, _, rfl⟩, rfl, rfl, rfl⟩
  · exact tryMouse_frame htry

/-- Tracking a key changes the tracked keys. -/
theorem trackKeyDown_frame (act : TusbActuator) (key : UInt16) :
    ∃ keys count, act.trackKeyDown key = { act with pressedKeys := keys, keyCount := count } := by
  unfold TusbActuator.trackKeyDown
  split
  · split <;> exact ⟨_, _, rfl⟩
  · exact ⟨_, _, rfl⟩

theorem trackKeyUp_frame (act : TusbActuator) (key : UInt16) :
    ∃ keys count, act.trackKeyUp key = { act with pressedKeys := keys, keyCount := count } := by
  unfold TusbActuator.trackKeyUp
  split <;> exact ⟨_, _, rfl⟩

/-! ## What a step does -/

/-- The task after it has taken a command from the queue. -/
def Hid.receive (h : Hid) (cmd : ActCmd) (rest : List ActCmd) : Hid :=
  { h with act := { h.act with cmdQueue := rest }, processed := h.processed ++ [cmd] }

/-- The command part of an iteration processes the head of the queue. -/
theorem commandStep_spec {h h' : Hid} {cmd : ActCmd} {rest : List ActCmd}
    (hmounted : h.mounted = true) (hqueue : h.act.cmdQueue = cmd :: rest)
    (hstep : h.commandStep = some h') :
    (h.receive cmd rest).processCommand cmd = some h' := by
  unfold Hid.commandStep TusbActuator.xQueueReceive at hstep
  rw [hqueue] at hstep
  dsimp only at hstep
  rw [if_pos hmounted] at hstep
  exact hstep

/-- It does nothing if the queue is empty. -/
theorem commandStep_empty {h : Hid} (hqueue : h.act.cmdQueue = []) : h.commandStep = some h := by
  unfold Hid.commandStep TusbActuator.xQueueReceive
  rw [hqueue]

/-- The task after others have changed what they may: the target, its pending flag, the queue and
the layout. -/
def Hid.outside (h : Hid) (x y : UInt16) (pending : UInt32) (queue : List ActCmd)
    (layout : KeyboardLayout) : Hid :=
  { h with
    act := { h.act with
      targetX := x, targetY := y, movementPending := pending, cmdQueue := queue }
    layout := layout }

theorem notifyMovement_outside (h : Hid) (x y : UInt16) :
    ∃ pending, { h with act := { h.act with targetX := x, targetY := y }.notifyMovement } =
      h.outside x y pending h.act.cmdQueue h.layout := by
  unfold TusbActuator.notifyMovement
  split
  · exact ⟨1, rfl⟩
  · exact ⟨h.act.movementPending, rfl⟩

/-- A step processes the command at the head of the queue, sends a pending movement, or changes
only what other tasks may change as well, the layout only by `keycodes_set_layout`. -/
theorem hidStep_spec {h h' : Hid} {label : HidLabel} (hstep : hidStep h label = some h') :
    (∃ cmd rest, label = .command ∧ h.mounted = true ∧ h.act.cmdQueue = cmd :: rest ∧
      (h.receive cmd rest).processCommand cmd = some h') ∨
    (label = .movement ∧ h.mounted = true ∧
      Hid.sendAbsMouseOnce { h with act := { h.act with movementPending := 0 } } = some h') ∨
    ∃ x y pending queue layout, h' = h.outside x y pending queue layout ∧
      (layout = h.layout ∨ ∃ l, label = .setLayout l ∧ layout = keycodesSetLayout h.layout l) := by
  cases label with
  | movement =>
      simp only [hidStep, Hid.movementStep] at hstep
      split at hstep
      · split at hstep
        · rename_i hmounted
          exact .inr (.inl ⟨rfl, hmounted, hstep⟩)
        · cases hstep
          exact .inr (.inr ⟨_, _, 0, _, _, rfl, .inl rfl⟩)
      · cases hstep
        exact .inr (.inr ⟨_, _, _, _, _, rfl, .inl rfl⟩)
  | command =>
      simp only [hidStep, Hid.commandStep] at hstep
      split at hstep
      · cases hstep
        exact .inr (.inr ⟨_, _, _, _, _, rfl, .inl rfl⟩)
      · rename_i cmd act hreceive
        obtain ⟨rest, hqueue, rfl⟩ := xQueueReceive_spec hreceive
        split at hstep
        · rename_i hmounted
          exact .inl ⟨cmd, rest, rfl, hmounted, hqueue, hstep⟩
        · cases hstep
          exact .inr (.inr ⟨_, _, _, rest, _, rfl, .inl rfl⟩)
  | xQueueSend cmd =>
      obtain ⟨act, hsend, rfl⟩ := Option.map_eq_some_iff.mp hstep
      obtain ⟨-, rfl⟩ := xQueueSend_spec hsend
      exact .inr (.inr ⟨_, _, _, h.act.cmdQueue ++ [cmd], _, rfl, .inl rfl⟩)
  | xQueueReceive =>
      obtain ⟨⟨cmd, act⟩, hreceive, rfl⟩ := Option.map_eq_some_iff.mp hstep
      obtain ⟨rest, -, rfl⟩ := xQueueReceive_spec hreceive
      exact .inr (.inr ⟨_, _, _, rest, _, rfl, .inl rfl⟩)
  | setMovement x y =>
      cases hstep
      obtain ⟨pending, heq⟩ := notifyMovement_outside h x y
      exact .inr (.inr ⟨x, y, pending, _, _, heq, .inl rfl⟩)
  | moveRelative dx dy =>
      cases hstep
      obtain ⟨pending, heq⟩ := notifyMovement_outside h
        (clampU16 (h.act.targetX.toNat + dx.toInt) (h.act.screenWidth - 1))
        (clampU16 (h.act.targetY.toNat + dy.toInt) (h.act.screenHeight - 1))
      exact .inr (.inr ⟨_, _, pending, _, _, heq, .inl rfl⟩)
  | setLayout layout =>
      cases hstep
      exact .inr (.inr ⟨_, _, _, _, keycodesSetLayout h.layout layout, rfl,
        .inr ⟨layout, rfl, rfl⟩⟩)

/-- Two states of the task that differ at most in the target, its pending flag, the queue,
the screen, the duplicate check and the layout. -/
structure SameInput (h h' : Hid) : Prop where
  slots : h'.act.pressedKeys = h.act.pressedKeys
  count : h'.act.keyCount = h.act.keyCount
  buttons : h'.act.mouseButtons = h.act.mouseButtons
  lastButtons : h'.act.lastSentButtons = h.act.lastSentButtons
  mounted : h'.mounted = h.mounted
  calls : h'.calls = h.calls
  processed : h'.processed = h.processed

/-- A step processes the command at the head of the queue, sends a pending movement, or
leaves the input state alone. -/
theorem hidStep_cases {h h' : Hid} {label : HidLabel} (hstep : hidStep h label = some h') :
    (∃ cmd rest, label = .command ∧ h.mounted = true ∧ h.act.cmdQueue = cmd :: rest ∧
      (h.receive cmd rest).processCommand cmd = some h') ∨
    (label = .movement ∧ h.mounted = true ∧
      Hid.sendAbsMouseOnce { h with act := { h.act with movementPending := 0 } } = some h') ∨
    SameInput h h' := by
  rcases hidStep_spec hstep with hcommand | hmovement | ⟨x, y, pending, queue, layout, rfl, _⟩
  · exact .inl hcommand
  · exact .inr (.inl hmovement)
  · exact .inr (.inr ⟨rfl, rfl, rfl, rfl, rfl, rfl, rfl⟩)

/-! ## What a command is made of -/

/-- The commands that write `mouse_buttons`. -/
def ActCmd.setsButtons : ActCmd → Bool
  | .mouseDown _ | .mouseUp _ | .leave | .disconnected => true
  | _ => false

/-- The commands that write `mouse_wheel`. -/
def ActCmd.setsWheel : ActCmd → Bool
  | .mouseWheel _ _ | .leave | .disconnected => true
  | _ => false

/-- What a command may write to the actuator beside its reports: nothing that is remembered of
the last one, and the buttons and the wheel only if they are its subject. -/
structure Edits (cmd : ActCmd) (act act' : TusbActuator) : Prop where
  lastHx : act'.lastSentHx = act.lastSentHx
  lastHy : act'.lastSentHy = act.lastSentHy
  lastButtons : act'.lastSentButtons = act.lastSentButtons
  buttons : cmd.setsButtons = false → act'.mouseButtons = act.mouseButtons
  wheel : cmd.setsWheel = false → act'.mouseWheel = act.mouseWheel

/-- Reports sent one after the other, with edits of the actuator in between. -/
inductive Sends (cmd : ActCmd) : Hid → Hid → Prop where
  | done (h : Hid) : Sends cmd h h
  | edit {h h' : Hid} (act : TusbActuator) (hedit : Edits cmd h.act act)
      (hrest : Sends cmd { h with act := act } h') : Sends cmd h h'
  | keyboard {h m h' : Hid} {report : List UInt8} (hsend : h.sendKbReport report = some m)
      (hrest : Sends cmd m h') : Sends cmd h h'
  | once {h m h' : Hid} (hsend : h.sendAbsMouseOnce = some m) (hrest : Sends cmd m h') :
      Sends cmd h h'
  | retry {h m h' : Hid} (hsend : h.sendAbsMouseRetry = some m) (hrest : Sends cmd m h') :
      Sends cmd h h'

/-- Every command is made of edits and reports. -/
theorem processCommand_sends {h h' : Hid} {cmd : ActCmd} (hp : h.processCommand cmd = some h') :
    Sends cmd h h' := by
  cases cmd with
  | keyDown key mask button =>
      obtain ⟨keys, count, htrack⟩ := trackKeyDown_frame h.act key
      refine .edit (h.act.trackKeyDown key) ?_ (.keyboard hp (.done h'))
      rw [htrack]
      exact ⟨rfl, rfl, rfl, fun _ => rfl, fun _ => rfl⟩
  | keyUp key mask button =>
      obtain ⟨keys, count, htrack⟩ := trackKeyUp_frame h.act key
      refine .edit (h.act.trackKeyUp key) ?_ (.keyboard hp (.done h'))
      rw [htrack]
      exact ⟨rfl, rfl, rfl, fun _ => rfl, fun _ => rfl⟩
  | keyRepeat key mask button count =>
      cases hp
      exact .done h
  | mouseDown id =>
      exact .edit { h.act with mouseButtons := h.act.mouseButtons ||| barrierButtonToHid id }
        ⟨rfl, rfl, rfl, nofun, fun _ => rfl⟩ (.retry hp (.done h'))
  | mouseUp id =>
      exact .edit { h.act with mouseButtons := h.act.mouseButtons &&& ~~~ barrierButtonToHid id }
        ⟨rfl, rfl, rfl, nofun, fun _ => rfl⟩ (.retry hp (.done h'))
  | mouseWheel dx dy =>
      exact .edit { h.act with mouseWheel := dampenWheel dy }
        ⟨rfl, rfl, rfl, fun _ => rfl, nofun⟩ (.retry hp (.done h'))
  | enter x y mask =>
      obtain ⟨m, hm, hrest⟩ := Option.bind_eq_some_iff.mp hp
      refine .edit { h.act with targetX := x, targetY := y }
        ⟨rfl, rfl, rfl, fun _ => rfl, fun _ => rfl⟩ (.once hm ?_)
      split at hrest
      · exact .keyboard hrest (.done h')
      · cases hrest
        exact .done h'
  | leave =>
      obtain ⟨m, hm, hrest⟩ := Option.bind_eq_some_iff.mp hp
      refine .edit h.act.clearKeys ⟨rfl, rfl, rfl, nofun, nofun⟩ (.keyboard hm ?_)
      exact .edit { m.act with mouseButtons := 0, mouseWheel := 0 }
        ⟨rfl, rfl, rfl, nofun, nofun⟩ (.once hrest (.done h'))
  | jiggle =>
      obtain ⟨m, hm, hrest⟩ := Option.bind_eq_some_iff.mp hp
      refine .edit { h.act with targetX := jiggleX h.act, targetY := h.act.targetY }
        ⟨rfl, rfl, rfl, fun _ => rfl, fun _ => rfl⟩ (.once hm ?_)
      exact .edit { m.act with targetX := h.act.targetX, targetY := h.act.targetY }
        ⟨rfl, rfl, rfl, fun _ => rfl, fun _ => rfl⟩ (.once hrest (.done h'))
  | connected =>
      cases hp
      exact .done h
  | disconnected =>
      cases hp
      exact .edit { h.act.clearKeys with mouseButtons := 0, mouseWheel := 0 }
        ⟨rfl, rfl, rfl, nofun, nofun⟩ (.done _)
  | setScreenSize w ht =>
      cases hp
      exact .edit { h.act with screenWidth := w, screenHeight := ht }
        ⟨rfl, rfl, rfl, fun _ => rfl, fun _ => rfl⟩ (.done _)
  | setScaling scaling =>
      cases hp
      exact .edit { h.act with scaling := scaling }
        ⟨rfl, rfl, rfl, fun _ => rfl, fun _ => rfl⟩ (.done _)

/-- What the edits of a command and every report keep, the command keeps. -/
theorem Sends.keeps {cmd : ActCmd} {P : Hid → Prop} {h h' : Hid} (hsends : Sends cmd h h')
    (hedit : ∀ h act, P h → Edits cmd h.act act → P { h with act := act })
    (hkeyboard : ∀ h h' report, P h → h.sendKbReport report = some h' → P h')
    (hmouse : ∀ h h', P h → h.sendAbsMouseOnce = some h' ∨ h.sendAbsMouseRetry = some h' → P h')
    (hstart : P h) : P h' := by
  induction hsends with
  | done h => exact hstart
  | edit act hact _ ih => exact ih (hedit _ act hstart hact)
  | keyboard hsend _ ih => exact ih (hkeyboard _ _ _ hstart hsend)
  | once hsend _ ih => exact ih (hmouse _ _ hstart (Or.inl hsend))
  | retry hsend _ ih => exact ih (hmouse _ _ hstart (Or.inr hsend))

end Esp32Deskflow.Tusb
