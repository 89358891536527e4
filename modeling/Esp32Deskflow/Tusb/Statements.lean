/-
  Tusb/Statements.lean --- a command of `hid_task` as a list of statements.

  `processCommand` runs the body of the `switch` in one go.  Where the task can block
  inside a report function, the rest of the body has to be said: here a command gives
  the actuator it starts with and the statements that are left, and running these in
  order is `processCommand`.
-/
import Esp32Deskflow.Tusb.HidTask

set_option autoImplicit false

namespace Esp32Deskflow.Tusb

/-- A statement of the `switch` in `hid_task` that can send a report, or that comes after one. -/
inductive HidStmt where
  | sendKbReport (report : List UInt8)
  | sendAbsMouseRetry
  | sendAbsMouseOnce
  /-- the assignments to `target_x` and `target_y` -/
  | setTarget (x y : UInt16)
  /-- `mouse_buttons = 0` and `mouse_wheel = 0` -/
  | releaseButtons
  deriving DecidableEq, Repr

/-- The body of a `case`: the assignments before the first report, and what follows them. -/
def commandBody (layout : KeyboardLayout) (act : TusbActuator) :
    ActCmd → TusbActuator × List HidStmt
  | .keyDown key mask _ =>
      let act := act.trackKeyDown key
      (act, [.sendKbReport (kbReport layout act.pressedKeys mask)])
  | .keyUp key mask _ =>
      let act := act.trackKeyUp key
      (act, [.sendKbReport (kbReport layout act.pressedKeys mask)])
  | .keyRepeat _ _ _ _ => (act, [])
  | .mouseDown id =>
      ({ act with mouseButtons := act.mouseButtons ||| barrierButtonToHid id },
        [.sendAbsMouseRetry])
  | .mouseUp id =>
      ({ act with mouseButtons := act.mouseButtons &&& ~~~ barrierButtonToHid id },
        [.sendAbsMouseRetry])
  | .mouseWheel _ dy => ({ act with mouseWheel := dampenWheel dy }, [.sendAbsMouseRetry])
  | .enter x y mask =>
      ({ act with targetX := x, targetY := y },
        .sendAbsMouseOnce :: if mask ≠ 0 then
          [.sendKbReport [maskToTusbModifier mask, 0, 0, 0, 0, 0, 0, 0]] else [])
  | .leave =>
      (act.clearKeys,
        [.sendKbReport [0, 0, 0, 0, 0, 0, 0, 0], .releaseButtons, .sendAbsMouseOnce])
  | .jiggle =>
      ({ act with targetX := jiggleX act, targetY := act.targetY },
        [.sendAbsMouseOnce, .setTarget act.targetX act.targetY, .sendAbsMouseOnce])
  | .connected => (act, [])
  | .disconnected => ({ act.clearKeys with mouseButtons := 0, mouseWheel := 0 }, [])
  | .setScreenSize w h => ({ act with screenWidth := w, screenHeight := h }, [])
  | .setScaling scaling => ({ act with scaling := scaling }, [])

/-- A statement in one go. -/
def Hid.runStmt (h : Hid) (stmt : HidStmt) : Option Hid :=
  match stmt with
  | .sendKbReport report => h.sendKbReport report
  | .sendAbsMouseRetry => h.sendAbsMouseRetry
  | .sendAbsMouseOnce => h.sendAbsMouseOnce
  | .setTarget x y => some { h with act := { h.act with targetX := x, targetY := y } }
  | .releaseButtons => some { h with act := { h.act with mouseButtons := 0, mouseWheel := 0 } }

/-- Statements in order. -/
def Hid.runStmts (h : Hid) : List HidStmt → Option Hid
  | [] => some h
  | stmt :: rest => (h.runStmt stmt).bind fun h => h.runStmts rest

/-- Processing a command is running its statements. -/
theorem processCommand_eq_runStmts (h : Hid) (cmd : ActCmd) :
    h.processCommand cmd =
      { h with act := (commandBody h.layout h.act cmd).1 }.runStmts
        (commandBody h.layout h.act cmd).2 := by
  cases cmd with
  | enter x y mask =>
      simp only [Hid.processCommand, commandBody, Hid.runStmts, Hid.runStmt]
      refine congrArg _ (funext fun m => ?_)
      by_cases hmask : mask ≠ 0
      · simp only [if_pos hmask, Hid.runStmts, Hid.runStmt, Option.bind_fun_some]
      · simp only [if_neg hmask, Hid.runStmts]
  | _ =>
      simp only [Hid.processCommand, commandBody, Hid.runStmts, Hid.runStmt, Option.bind_some,
        Option.bind_fun_some]

end Esp32Deskflow.Tusb
