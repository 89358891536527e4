/-
  Tusb/Wakeups.lean --- how `hid_task` sleeps and is woken.

  Three parties share the task notification of `hid_task` and the flags of
  `tusb_device.c`: the network task, `hid_task`, and the task of the USB stack that runs
  the callbacks.  Every access to the notification, to `movement_pending`, to the queue
  and to a flag is a step of its own, in one order for all parties.

  A notification is a single bit: it is set by whoever gives it and cleared by the wait
  that returns, so `hid_task` may use up in one wait what was given for another.

  The USB stack refuses a report while the last one is in flight, or if the device is not
  ready.  A reset of the bus drops the report in flight without a callback.
-/
import Esp32Deskflow.Tusb.Statements
import Esp32Deskflow.Tusb.Unmounted

set_option autoImplicit false

namespace Esp32Deskflow.Tusb

open Esp32Deskflow.Foundation Esp32Deskflow.Foundation.Transition

/-! ## The parties -/

/-- A report function that waits, after it has read what it sends. -/
inductive HidSend where
  /-- `send_kb_report` -/
  | keyboard (report : List UInt8)
  /-- `send_abs_mouse_retry`, with `hx`, `hy` and `important` -/
  | mouse (report : HidReport) (hx hy : UInt16) (important : Bool)
  deriving DecidableEq, Repr

/-- The report that is sent. -/
def HidSend.report : HidSend → HidReport
  | .keyboard report => .keyboard report
  | .mouse report _ _ _ => report

/-- Whether a refused report is tried again. -/
def HidSend.retries : HidSend → Bool
  | .keyboard _ => true
  | .mouse _ _ _ important => important

/-- What is remembered of the accepted report. -/
def HidSend.sent (act : TusbActuator) : HidSend → TusbActuator
  | .keyboard _ => act
  | .mouse _ hx hy _ =>
      { act with
        lastSentHx := hx
        lastSentHy := hy
        lastSentButtons := act.mouseButtons
        mouseWheel := 0 }

/-- The start of `send_abs_mouse_retry`. -/
def TusbActuator.mouseSend (act : TusbActuator) : HidSend :=
  .mouse act.absMouseReport (toHid act.screenWidth act.targetX) (toHid act.screenHeight act.targetY)
    (act.mouseButtons ≠ act.lastSentButtons)

/-- Where `hid_task` stands in a report function that waits. -/
inductive SendPc where
  /-- before `tusb_set_pending_send(true)` -/
  | raise
  /-- in `tusb_try_remote_wakeup`, before each of its reads -/
  | readSuspended
  | readEnabled
  | readPending
  /-- before `tud_remote_wakeup` -/
  | wakeup
  /-- before `tud_hid_report` -/
  | report
  /-- in `xTaskNotifyWait` without a timeout, the device having been ready or not -/
  | waiting (ready : Bool)
  /-- before `tusb_set_pending_send(false)` -/
  | lower
  deriving DecidableEq, Repr

/-- Where `hid_task` stands. -/
inductive HidTaskPc where
  /-- before the compare-exchange on `movement_pending` -/
  | loopTop
  /-- after it has succeeded -/
  | moving
  /-- before `xQueueReceive`; `missed` if the compare-exchange has failed spuriously -/
  | receive (missed : Bool)
  /-- in `xTaskNotifyWait` for at most a second -/
  | idle (missed : Bool)
  /-- before the check of `tud_mounted` -/
  | received (cmd : ActCmd)
  /-- in the `switch`, with the statements left -/
  | stmts (rest : List HidStmt)
  | sending (send : HidSend) (pc : SendPc) (rest : List HidStmt)
  deriving DecidableEq, Repr

/-- Where the network task stands in a notification. -/
inductive NetNotify where
  | idle
  /-- in `_notify_movement`, before the compare-exchange -/
  | exchange
  /-- before `xTaskNotifyGive` -/
  | giving
  deriving DecidableEq, Repr

/-- Where the task of the USB stack stands in a callback. -/
inductive UsbPc where
  | idle
  /-- `tud_suspend_cb`, before `g_remote_wakeup_en` is written -/
  | suspending (enabled : Bool)
  /-- before `g_pending_send` is read -/
  | readPending
  /-- before `g_remote_wakeup_en` is read -/
  | readEnabled
  /-- before `tud_remote_wakeup` -/
  | wakeup
  /-- `tud_hid_report_complete_cb`, before `xTaskNotifyGive` -/
  | completing
  deriving DecidableEq, Repr

/-- The three parties and what they share. -/
structure Wakeups where
  /-- the actuator, and the network task at its queue -/
  delivery : Delivery
  net : NetNotify
  hid : HidTaskPc
  usb : UsbPc
  layout : KeyboardLayout
  /-- `tud_mounted` -/
  mounted : Bool
  /-- the notification state of `hid_task` -/
  notified : Bool
  /-- `g_suspended` -/
  suspended : Bool
  /-- `g_remote_wakeup_en` -/
  remoteWakeupEn : Bool
  /-- `g_pending_send` -/
  pendingSend : Bool
  /-- the stack still has the last report -/
  inFlight : Bool
  /-- the calls of `tud_hid_report` with their answers -/
  calls : List (HidReport × Bool)
  /-- `tud_remote_wakeup` was called since the device was last suspended, which nothing reads -/
  wakeRequested : Bool
  /-- a report in flight was dropped since the last call of `tud_hid_report`, which nothing reads -/
  dropped : Bool
  deriving Repr

namespace Wakeups

/-- The actuator. -/
def act (w : Wakeups) : TusbActuator := w.delivery.act

/-- The commands waiting in the queue. -/
def queue (w : Wakeups) : List ActCmd := w.delivery.act.cmdQueue

/-- The state with another actuator. -/
def withAct (w : Wakeups) (act : TusbActuator) : Wakeups :=
  { w with delivery := { w.delivery with act := act } }

/-- `tud_hid_report`: its answer, and the state after it. -/
def tudHidReport (w : Wakeups) (report : HidReport) (ready : Bool) : Bool × Wakeups :=
  let accepted := ready && !w.inFlight
  (accepted, { w with
    inFlight := w.inFlight || accepted
    calls := w.calls ++ [(report, accepted)]
    dropped := false })

/-- `send_abs_mouse_once`. -/
def sendAbsMouseOnce (w : Wakeups) (ready : Bool) : Wakeups :=
  if toHid w.act.screenWidth w.act.targetX = w.act.lastSentHx ∧
      toHid w.act.screenHeight w.act.targetY = w.act.lastSentHy ∧
      w.act.mouseButtons = w.act.lastSentButtons ∧ w.act.mouseWheel = 0 then w
  else
    match w.tudHidReport w.act.absMouseReport ready with
    | (true, w') => w'.withAct w.act.mouseSent
    | (false, w') => w'

end Wakeups

/-- Who moves, with what the outside decides. -/
inductive WakeupsLabel where
  /-- `hid_task`: the compare-exchange on `movement_pending` -/
  | hidExchange (spurious : Bool)
  /-- `hid_task`: a call of `tud_hid_report`, the device being ready or not -/
  | hidReport (ready : Bool)
  /-- `hid_task`: the wait for work times out -/
  | hidTimeout
  /-- `hid_task`: any other step -/
  | hid
  /-- an access of the network task to the queue -/
  | net (label : DeliveryLabel)
  /-- `actuator_set_movement`, up to `_notify_movement` -/
  | setMovement (x y : UInt16)
  /-- `actuator_move_relative`, up to `_notify_movement` -/
  | moveRelative (dx dy : Int16)
  /-- the network task: the compare-exchange on `movement_pending` -/
  | netExchange (spurious : Bool)
  /-- the network task: `xTaskNotifyGive` -/
  | netGive
  /-- the USB stack calls `tud_suspend_cb`, which writes `g_suspended` -/
  | suspend (enabled : Bool)
  /-- `tud_resume_cb` -/
  | resume
  /-- the report in flight is sent, and the stack calls `tud_hid_report_complete_cb` -/
  | complete
  /-- the next access of the callback -/
  | usb
  /-- the bus is reset, or the device configured -/
  | reset (mounted : Bool)
  /-- `keycodes_set_layout` -/
  | setLayout (layout : UInt8)
  deriving DecidableEq, Repr

/-! ## Steps -/

/-- A step of `hid_task` in a report function that waits. -/
def sendStep (w : Wakeups) (send : HidSend) (rest : List HidStmt) : SendPc → Option Wakeups
  | .raise => some { w with pendingSend := true, hid := .sending send .readSuspended rest }
  | .readSuspended =>
      some { w with hid := .sending send (if w.suspended then .readEnabled else .report) rest }
  | .readEnabled =>
      some { w with hid := .sending send (if w.remoteWakeupEn then .readPending else .report) rest }
  | .readPending =>
      some { w with hid := .sending send (if w.pendingSend then .wakeup else .report) rest }
  | .wakeup => some { w with wakeRequested := true, hid := .sending send .report rest }
  | .report => none
  | .waiting _ =>
      if w.notified then some { w with notified := false, hid := .sending send .report rest }
      else none
  | .lower => some { w with pendingSend := false, hid := .stmts rest }

/-- A step of `hid_task` at a statement. -/
def stmtsStep (w : Wakeups) : List HidStmt → Option Wakeups
  | [] => some { w with hid := .loopTop }
  | .sendKbReport report :: rest => some { w with hid := .sending (.keyboard report) .raise rest }
  | .sendAbsMouseRetry :: rest => some { w with hid := .sending w.act.mouseSend .raise rest }
  | .sendAbsMouseOnce :: _ => none
  | .setTarget x y :: rest =>
      some { w.withAct { w.act with targetX := x, targetY := y } with hid := .stmts rest }
  | .releaseButtons :: rest =>
      some { w.withAct { w.act with mouseButtons := 0, mouseWheel := 0 } with hid := .stmts rest }

/-- `xQueueReceive` in `hid_task`. -/
def Wakeups.receive (w : Wakeups) (missed : Bool) : Wakeups :=
  match w.act.xQueueReceive with
  | none => { w with hid := .idle missed }
  | some (cmd, act) => { w with delivery := w.delivery.take .hid cmd act, hid := .received cmd }

/-- `hid_task` between `xQueueReceive` and the first statement of the command. -/
def Wakeups.dispatch (w : Wakeups) (cmd : ActCmd) : Wakeups :=
  if w.mounted then
    let body := commandBody w.layout w.act cmd
    { w.withAct body.1 with hid := .stmts body.2 }
  else { w with hid := .loopTop }

/-- A step of `hid_task` that nobody else has a say in. -/
def hidTaskStep (w : Wakeups) : Option Wakeups :=
  match w.hid with
  | .loopTop => none
  | .moving => none
  | .receive missed => some (w.receive missed)
  | .idle _ => if w.notified then some { w with notified := false, hid := .loopTop } else none
  | .received cmd => some (w.dispatch cmd)
  | .stmts rest => stmtsStep w rest
  | .sending send pc rest => sendStep w send rest pc

/-- A call of `tud_hid_report`, and where `hid_task` goes from there. -/
def hidReportStep (w : Wakeups) (ready : Bool) : Option Wakeups :=
  match w.hid with
  | .moving =>
      let w' := if w.mounted then w.sendAbsMouseOnce ready else w
      some { w' with hid := .receive false }
  | .stmts (.sendAbsMouseOnce :: rest) =>
      some { w.sendAbsMouseOnce ready with hid := .stmts rest }
  | .sending send .report rest =>
      match w.tudHidReport send.report ready with
      | (true, w') => some { w'.withAct (send.sent w.act) with hid := .sending send .lower rest }
      | (false, w') =>
          some { w' with
            hid := .sending send (if send.retries then .waiting ready else .lower) rest }
  | _ => none

/-- The compare-exchange of `hid_task`: 1 to 0. -/
def hidExchangeStep (w : Wakeups) (spurious : Bool) : Option Wakeups :=
  match w.hid with
  | .loopTop =>
      if w.act.movementPending = 1 then
        if spurious then some { w with hid := .receive true }
        else some { w.withAct { w.act with movementPending := 0 } with hid := .moving }
      else some { w with hid := .receive false }
  | _ => none

/-- The next access of a callback. -/
def usbStep (w : Wakeups) : Option Wakeups :=
  match w.usb with
  | .idle => none
  | .suspending enabled => some { w with remoteWakeupEn := enabled, usb := .readPending }
  | .readPending => some { w with usb := if w.pendingSend then .readEnabled else .idle }
  | .readEnabled => some { w with usb := if w.remoteWakeupEn then .wakeup else .idle }
  | .wakeup => some { w with wakeRequested := true, usb := .idle }
  | .completing => some { w with notified := true, usb := .idle }

/-- The network task is not in the middle of a call. -/
def Wakeups.NetIdle (w : Wakeups) : Prop := w.net = .idle ∧ w.delivery.pc = .idle

instance (w : Wakeups) : Decidable w.NetIdle := inferInstanceAs (Decidable (_ ∧ _))

/-- One step of one of the parties. -/
def wakeupsStep (w : Wakeups) : WakeupsLabel → Option Wakeups
  | .hidExchange spurious => hidExchangeStep w spurious
  | .hidReport ready => hidReportStep w ready
  | .hidTimeout =>
      match w.hid with
      | .idle _ => some { w with hid := .loopTop }
      | _ => none
  | .hid => hidTaskStep w
  | .net label =>
      if w.net = .idle ∧ label ≠ .hidReceive then
        (deliveryStep w.delivery label).map fun d =>
          { w with delivery := d, net := if label = .send then .giving else .idle }
      else none
  | .setMovement x y =>
      if w.NetIdle then
        some { w.withAct { w.act with targetX := x, targetY := y } with net := .exchange }
      else none
  | .moveRelative dx dy =>
      if w.NetIdle then
        some { w.withAct { w.act with
            targetX := clampU16 (w.act.targetX.toNat + dx.toInt) (w.act.screenWidth - 1)
            targetY := clampU16 (w.act.targetY.toNat + dy.toInt) (w.act.screenHeight - 1) } with
          net := .exchange }
      else none
  | .netExchange spurious =>
      if w.net = .exchange then
        if w.act.movementPending = 0 ∧ spurious = false then
          some { w.withAct { w.act with movementPending := 1 } with net := .giving }
        else some { w with net := .idle }
      else none
  | .netGive => if w.net = .giving then some { w with notified := true, net := .idle } else none
  | .suspend enabled =>
      if w.usb = .idle then
        some { w with suspended := true, wakeRequested := false, usb := .suspending enabled }
      else none
  | .resume => if w.usb = .idle then some { w with suspended := false } else none
  | .complete =>
      if w.usb = .idle ∧ w.inFlight then some { w with inFlight := false, usb := .completing }
      else none
  | .usb => usbStep w
  | .reset mounted =>
      if w.usb = .idle then
        some { w with mounted := mounted, inFlight := false, dropped := w.dropped || w.inFlight }
      else none
  | .setLayout layout => some { w with layout := keycodesSetLayout w.layout layout }

/-- After `actuator_hid_task_start`, with an actuator as `barrier_client_create` has left it. -/
def Wakeups.init (act : TusbActuator) (layout : KeyboardLayout) (mounted : Bool) : Wakeups where
  delivery := { Delivery.init act.screenWidth act.screenHeight with act := act }
  net := .idle
  hid := .loopTop
  usb := .idle
  layout := layout
  mounted := mounted
  notified := false
  suspended := true
  remoteWakeupEn := true
  pendingSend := false
  inFlight := false
  calls := []
  wakeRequested := false
  dropped := false

end Esp32Deskflow.Tusb
