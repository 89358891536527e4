/-
  Tusb/Actuator.lean --- `tusb_actuator.h` and the network task's side of
  `tusb_actuator.c`: the actuator state and the `actuator_*` calls.

  An `actuator_queue_*` call first decides whether the command is a duplicate and
  then gives it to `_q`.  The two halves are kept apart: `enterCall` is the first one,
  and `q` the second one as a single step.  `Tusb/Delivery.lean` takes `_q`
  apart into its accesses to the queue.

  The notifications of the HID task are left out: they only end its sleep.
-/
import Esp32Deskflow.Foundation.EspErr
import Mathlib.Data.Vector.Basic

set_option autoImplicit false

namespace Esp32Deskflow.Tusb

open Esp32Deskflow.Foundation

/-! ## Commands and state -/

/-- `act_cmd_type_t`. -/
inductive ActCmdType where
  | keyDown | keyUp | keyRepeat | mouseDown | mouseUp | mouseWheel | enter | leave | jiggle
  | connected | disconnected | setScreenSize | setScaling
  deriving DecidableEq, Repr, Inhabited

/-- `act_cmd_t`: a type tag over a union. -/
inductive ActCmd where
  | keyDown (key mask button : UInt16)
  | keyUp (key mask button : UInt16)
  | keyRepeat (key mask button count : UInt16)
  | mouseDown (id : Int8)
  | mouseUp (id : Int8)
  | mouseWheel (dx dy : Int16)
  | enter (x y mask : UInt16)
  | leave
  | jiggle
  | connected
  | disconnected
  | setScreenSize (w h : UInt16)
  | setScaling (scaling : UInt16)
  deriving DecidableEq, Repr, Inhabited

/-- `ACT_IMPORTANT_QUEUE_DEPTH`. -/
def actImportantQueueDepth : Nat := 32

/-- `HID_MAX_KEYS`. -/
def hidMaxKeys : Nat := 6

/-- `ACT_DEDUP_MS`. -/
def actDedupMs : UInt64 := 30

/-- `tusb_actuator_t`, with the contents of its queue in place of the handle. -/
structure TusbActuator where
  screenWidth : UInt16
  screenHeight : UInt16
  scaling : UInt16
  targetX : UInt16
  targetY : UInt16
  /-- 0 = clear, 1 = pending movement -/
  movementPending : UInt32
  mouseButtons : UInt8
  mouseWheel : Int8
  pressedKeys : Vector UInt16 6
  keyCount : Nat
  lastSentHx : UInt16
  lastSentHy : UInt16
  lastSentButtons : UInt8
  lastQueuedKbTime : UInt64
  lastQueuedKbKey : UInt16
  lastQueuedKbMask : UInt16
  lastQueuedKbType : ActCmdType
  lastQueuedBtnTime : UInt64
  lastQueuedBtnId : Int8
  lastQueuedBtnType : ActCmdType
  lastQueuedWheelTime : UInt64
  cmdQueue : List ActCmd
  deriving DecidableEq, Repr

/-- `tusb_actuator_init` on a zeroed structure. -/
def tusbActuatorInit (screenWidth screenHeight : UInt16) : TusbActuator where
  screenWidth := screenWidth
  screenHeight := screenHeight
  scaling := 100
  targetX := 0
  targetY := 0
  movementPending := 0
  mouseButtons := 0
  mouseWheel := 0
  pressedKeys := Vector.replicate 6 0
  keyCount := 0
  lastSentHx := 0
  lastSentHy := 0
  lastSentButtons := 0
  lastQueuedKbTime := 0
  lastQueuedKbKey := 0
  lastQueuedKbMask := 0
  lastQueuedKbType := .keyDown
  lastQueuedBtnTime := 0
  lastQueuedBtnId := 0
  lastQueuedBtnType := .keyDown
  lastQueuedWheelTime := 0
  cmdQueue := []

/-! ## The queue -/

/-- `xQueueSend` on the command queue; `none` is a queue that stayed full. -/
def TusbActuator.xQueueSend (act : TusbActuator) (cmd : ActCmd) : Option TusbActuator :=
  if act.cmdQueue.length < actImportantQueueDepth then
    some { act with cmdQueue := act.cmdQueue ++ [cmd] }
  else none

/-- `xQueueReceive` on the command queue without waiting. -/
def TusbActuator.xQueueReceive (act : TusbActuator) : Option (ActCmd × TusbActuator) :=
  match act.cmdQueue with
  | [] => none
  | cmd :: rest => some (cmd, { act with cmdQueue := rest })

theorem xQueueSend_spec {act act' : TusbActuator} {cmd : ActCmd}
    (h : act.xQueueSend cmd = some act') :
    act.cmdQueue.length < actImportantQueueDepth ∧
      act' = { act with cmdQueue := act.cmdQueue ++ [cmd] } := by
  unfold TusbActuator.xQueueSend at h
  split at h
  · rename_i hroom
    cases h
    exact ⟨hroom, rfl⟩
  · cases h

theorem xQueueReceive_spec {act act' : TusbActuator} {cmd : ActCmd}
    (h : act.xQueueReceive = some (cmd, act')) :
    ∃ rest, act.cmdQueue = cmd :: rest ∧ act' = { act with cmdQueue := rest } := by
  unfold TusbActuator.xQueueReceive at h
  split at h
  · cases h
  · rename_i hqueue
    cases h
    exact ⟨_, hqueue, rfl⟩

theorem xQueueReceive_none {act : TusbActuator} (h : act.xQueueReceive = none) :
    act.cmdQueue = [] := by
  unfold TusbActuator.xQueueReceive at h
  split at h
  · rename_i hqueue
    exact hqueue
  · cases h

/-- `_dump_queue`: it receives as many commands as were waiting, and drops them. -/
def TusbActuator.dumpQueue (act : TusbActuator) : TusbActuator :=
  { act with cmdQueue := [] }

/-- `_q`. -/
def TusbActuator.q (act : TusbActuator) (cmd : ActCmd) : EspErr × TusbActuator :=
  match act.xQueueSend cmd with
  | none => (.timeout, act.dumpQueue)
  | some act' => (.ok, act')

/-! ## The `actuator_queue_*` calls up to `_q` -/

/-- How an `actuator_queue_*` call goes on after its first half. -/
inductive QueueCall where
  /-- `return ESP_OK` -/
  | returns
  /-- `return _q(act, cmd)` -/
  | sends (cmd : ActCmd)
  /-- empty the queue, then `return _q(act, cmd)` -/
  | flushes (cmd : ActCmd)
  deriving DecidableEq, Repr

/-- The duplicate check of the keyboard calls. -/
def TusbActuator.queueKey (act : TusbActuator) (type : ActCmdType) (cmd : ActCmd)
    (key mask : UInt16) (now : UInt64) : TusbActuator × QueueCall :=
  if act.lastQueuedKbType = type ∧ act.lastQueuedKbKey = key ∧ act.lastQueuedKbMask = mask ∧
      now - act.lastQueuedKbTime < actDedupMs then (act, .returns)
  else
    ({ act with
        lastQueuedKbKey := key
        lastQueuedKbMask := mask
        lastQueuedKbType := type
        lastQueuedKbTime := now }, .sends cmd)

/-- The duplicate check of the mouse button calls. -/
def TusbActuator.queueButton (act : TusbActuator) (type : ActCmdType) (cmd : ActCmd)
    (button : Int8) (now : UInt64) : TusbActuator × QueueCall :=
  if act.lastQueuedBtnType = type ∧ act.lastQueuedBtnId = button ∧
      now - act.lastQueuedBtnTime < actDedupMs then (act, .returns)
  else
    ({ act with
        lastQueuedBtnId := button
        lastQueuedBtnType := type
        lastQueuedBtnTime := now }, .sends cmd)

/-- `actuator_queue_key_down`. -/
def actuatorQueueKeyDown (act : TusbActuator) (key mask button : UInt16) (now : UInt64) :
    TusbActuator × QueueCall :=
  act.queueKey .keyDown (.keyDown key mask button) key mask now

/-- `actuator_queue_key_up`. -/
def actuatorQueueKeyUp (act : TusbActuator) (key mask button : UInt16) (now : UInt64) :
    TusbActuator × QueueCall :=
  act.queueKey .keyUp (.keyUp key mask button) key mask now

/-- `actuator_queue_key_repeat`: repeats are never queued. -/
def actuatorQueueKeyRepeat (act : TusbActuator) (_key _mask _button _count : UInt16) :
    TusbActuator × QueueCall :=
  (act, .returns)

/-- `actuator_queue_mouse_down`. -/
def actuatorQueueMouseDown (act : TusbActuator) (button : Int8) (now : UInt64) :
    TusbActuator × QueueCall :=
  act.queueButton .mouseDown (.mouseDown button) button now

/-- `actuator_queue_mouse_up`. -/
def actuatorQueueMouseUp (act : TusbActuator) (button : Int8) (now : UInt64) :
    TusbActuator × QueueCall :=
  act.queueButton .mouseUp (.mouseUp button) button now

/-- `actuator_queue_mouse_wheel`: only the time counts as a duplicate. -/
def actuatorQueueMouseWheel (act : TusbActuator) (dx dy : Int16) (now : UInt64) :
    TusbActuator × QueueCall :=
  if now - act.lastQueuedWheelTime < actDedupMs then (act, .returns)
  else ({ act with lastQueuedWheelTime := now }, .sends (.mouseWheel dx dy))

/-- `actuator_queue_enter`. -/
def actuatorQueueEnter (act : TusbActuator) (x y mask : UInt16) : TusbActuator × QueueCall :=
  (act, .sends (.enter x y mask))

/-- `actuator_queue_leave`. -/
def actuatorQueueLeave (act : TusbActuator) : TusbActuator × QueueCall := (act, .sends .leave)

/-- `actuator_queue_jiggle`. -/
def actuatorQueueJiggle (act : TusbActuator) : TusbActuator × QueueCall := (act, .sends .jiggle)

/-- `actuator_queue_connected`. -/
def actuatorQueueConnected (act : TusbActuator) : TusbActuator × QueueCall :=
  (act, .sends .connected)

/-- `actuator_queue_disconnected`: flushes the queue first. -/
def actuatorQueueDisconnected (act : TusbActuator) : TusbActuator × QueueCall :=
  (act, .flushes .disconnected)

/-- `actuator_queue_set_screen_size`. -/
def actuatorQueueSetScreenSize (act : TusbActuator) (w h : UInt16) : TusbActuator × QueueCall :=
  (act, .sends (.setScreenSize w h))

/-- `actuator_queue_set_scaling`. -/
def actuatorQueueSetScaling (act : TusbActuator) (scaling : UInt16) : TusbActuator × QueueCall :=
  (act, .sends (.setScaling scaling))

/-- The first half of the call that wants to queue `cmd`, at time `now`. -/
def enterCall (act : TusbActuator) (cmd : ActCmd) (now : UInt64) : TusbActuator × QueueCall :=
  match cmd with
  | .keyDown key mask button => actuatorQueueKeyDown act key mask button now
  | .keyUp key mask button => actuatorQueueKeyUp act key mask button now
  | .keyRepeat key mask button count => actuatorQueueKeyRepeat act key mask button count
  | .mouseDown id => actuatorQueueMouseDown act id now
  | .mouseUp id => actuatorQueueMouseUp act id now
  | .mouseWheel dx dy => actuatorQueueMouseWheel act dx dy now
  | .enter x y mask => actuatorQueueEnter act x y mask
  | .leave => actuatorQueueLeave act
  | .jiggle => actuatorQueueJiggle act
  | .connected => actuatorQueueConnected act
  | .disconnected => actuatorQueueDisconnected act
  | .setScreenSize w h => actuatorQueueSetScreenSize act w h
  | .setScaling scaling => actuatorQueueSetScaling act scaling

theorem queueKey_cmdQueue (act : TusbActuator) (type : ActCmdType) (cmd : ActCmd)
    (key mask : UInt16) (now : UInt64) :
    (act.queueKey type cmd key mask now).1.cmdQueue = act.cmdQueue := by
  unfold TusbActuator.queueKey
  split <;> rfl

theorem queueButton_cmdQueue (act : TusbActuator) (type : ActCmdType) (cmd : ActCmd)
    (button : Int8) (now : UInt64) :
    (act.queueButton type cmd button now).1.cmdQueue = act.cmdQueue := by
  unfold TusbActuator.queueButton
  split <;> rfl

/-- The first half of a call does not touch the queue. -/
theorem enterCall_cmdQueue (act : TusbActuator) (cmd : ActCmd) (now : UInt64) :
    (enterCall act cmd now).1.cmdQueue = act.cmdQueue := by
  cases cmd with
  | keyDown key mask button => exact queueKey_cmdQueue _ _ _ _ _ _
  | keyUp key mask button => exact queueKey_cmdQueue _ _ _ _ _ _
  | mouseDown id => exact queueButton_cmdQueue _ _ _ _ _
  | mouseUp id => exact queueButton_cmdQueue _ _ _ _ _
  | mouseWheel dx dy =>
      unfold enterCall actuatorQueueMouseWheel
      dsimp only
      split <;> rfl
  | _ => rfl

/-- A whole `actuator_queue_*` call as one step. -/
def actuatorQueue (act : TusbActuator) (cmd : ActCmd) (now : UInt64) : EspErr × TusbActuator :=
  match enterCall act cmd now with
  | (act', .returns) => (.ok, act')
  | (act', .sends cmd') => act'.q cmd'
  | (act', .flushes cmd') => { act' with cmdQueue := [] }.q cmd'

/-! ## Movement -/

/-- `clamp_u16`. -/
def clampU16 (v : Int) (max : UInt16) : UInt16 :=
  if v < 0 then 0
  else if v > max.toNat then max
  else UInt16.ofInt v

/-- `_notify_movement`. -/
def TusbActuator.notifyMovement (act : TusbActuator) : TusbActuator :=
  if act.movementPending = 0 then { act with movementPending := 1 } else act

/-- `actuator_set_movement`. -/
def actuatorSetMovement (act : TusbActuator) (x y : UInt16) : TusbActuator :=
  { act with targetX := x, targetY := y }.notifyMovement

/-- `actuator_move_relative`. -/
def actuatorMoveRelative (act : TusbActuator) (dx dy : Int16) : TusbActuator :=
  { act with
    targetX := clampU16 (act.targetX.toNat + dx.toInt) (act.screenWidth - 1)
    targetY := clampU16 (act.targetY.toNat + dy.toInt) (act.screenHeight - 1) }.notifyMovement

end Esp32Deskflow.Tusb
