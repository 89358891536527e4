/-
  Tusb/Movement.lean --- pointer movement, one access at a time.

  The two coordinates of the target are written and read one by one, without a lock.
  Here every read and write of a coordinate and every compare-exchange on
  `movement_pending` is a step of its own, so that either task may come between any two
  of them.

  The network task writes the target before it raises the flag, and `hid_task` lowers
  the flag before it reads: a movement that comes too late for a read leaves the flag
  raised, and the target is read again.
-/
import Esp32Deskflow.Tusb.Unmounted

set_option autoImplicit false

namespace Esp32Deskflow.Tusb

open Esp32Deskflow.Foundation Esp32Deskflow.Foundation.Transition

/-! ## Sending what has been read -/

/-- The mouse report at a scaled position. -/
def TusbActuator.mouseReportAt (act : TusbActuator) (hx hy : UInt16) : HidReport :=
  .absMouse [act.mouseButtons, (hx &&& 0xFF).toUInt8, (hx >>> 8).toUInt8,
    (hy &&& 0xFF).toUInt8, (hy >>> 8).toUInt8, act.mouseWheel.toUInt8]

/-- The actuator after that report is accepted. -/
def TusbActuator.mouseSentAt (act : TusbActuator) (hx hy : UInt16) : TusbActuator :=
  { act with
    lastSentHx := hx
    lastSentHy := hy
    lastSentButtons := act.mouseButtons
    mouseWheel := 0 }

/-- One attempt to send the mouse report. -/
def Hid.tryMouseAt (h : Hid) (hx hy : UInt16) : Option Hid :=
  match h.answers with
  | [] => none
  | true :: answers =>
      some { h with
        act := h.act.mouseSentAt hx hy
        calls := h.calls ++ [(h.act.mouseReportAt hx hy, true)]
        answers := answers }
  | false :: answers =>
      some { h with calls := h.calls ++ [(h.act.mouseReportAt hx hy, false)], answers := answers }

/-- `send_abs_mouse_once` after `hx` and `hy` are computed. -/
def Hid.sendOnceAt (h : Hid) (hx hy : UInt16) : Option Hid :=
  if hx = h.act.lastSentHx ∧ hy = h.act.lastSentHy ∧
      h.act.mouseButtons = h.act.lastSentButtons ∧ h.act.mouseWheel = 0 then some h
  else h.tryMouseAt hx hy

/-- `send_abs_mouse_retry` after `hx` and `hy` are computed. -/
def Hid.sendRetryAt (h : Hid) (hx hy : UInt16) : Option Hid :=
  if h.act.mouseButtons ≠ h.act.lastSentButtons then
    (sendUntilAccepted (h.act.mouseReportAt hx hy) h.answers).map fun r =>
      { h with act := h.act.mouseSentAt hx hy, calls := h.calls ++ r.1, answers := r.2 }
  else h.tryMouseAt hx hy

theorem sendOnceAt_target (h : Hid) :
    h.sendOnceAt (toHid h.act.screenWidth h.act.targetX) (toHid h.act.screenHeight h.act.targetY) =
      h.sendAbsMouseOnce := rfl

theorem sendRetryAt_target (h : Hid) :
    h.sendRetryAt (toHid h.act.screenWidth h.act.targetX) (toHid h.act.screenHeight h.act.targetY) =
      h.sendAbsMouseRetry := rfl

theorem tryMouseAt_frame {h h' : Hid} {hx hy : UInt16} (hsend : h.tryMouseAt hx hy = some h') :
    SendFrame h h' := by
  unfold Hid.tryMouseAt at hsend
  split at hsend
  · cases hsend
  · cases hsend
    exact ⟨⟨_, _, _, _, rfl⟩, rfl, rfl, rfl⟩
  · cases hsend
    exact ⟨⟨_, _, _, _, rfl⟩, rfl, rfl, rfl⟩

theorem sendOnceAt_frame {h h' : Hid} {hx hy : UInt16} (hsend : h.sendOnceAt hx hy = some h') :
    SendFrame h h' := by
  unfold Hid.sendOnceAt at hsend
  split at hsend
  · cases hsend
    exact .refl h
  · exact tryMouseAt_frame hsend

theorem sendRetryAt_frame {h h' : Hid} {hx hy : UInt16} (hsend : h.sendRetryAt hx hy = some h') :
    SendFrame h h' := by
  unfold Hid.sendRetryAt at hsend
  split at hsend
  · obtain ⟨r, _, rfl⟩ := Option.map_eq_some_iff.mp hsend
    exact ⟨⟨_, _, _, _, rfl⟩, rfl, rfl, rfl⟩
  · exact tryMouseAt_frame hsend

/-! ## The accesses -/

/-- Where the network task stands in a movement call. -/
inductive MovePc where
  | idle
  /-- `actuator_set_movement`, before the write of `target_x` -/
  | setX (x y : UInt16)
  | setY (y : UInt16)
  /-- `actuator_move_relative`, before the read of `target_x` -/
  | readX (dx dy : Int16)
  | readY (nx : Int) (dy : Int16)
  /-- before the write of the clamped `target_x` -/
  | writeX (nx ny : Int)
  | writeY (ny : Int)
  /-- `_notify_movement`, before the compare-exchange -/
  | notify
  deriving DecidableEq, Repr

/-- Where `hid_task` goes on after `send_abs_mouse_once`. -/
inductive AfterOnce where
  /-- to `xQueueReceive` -/
  | receive
  /-- to the end of a command -/
  | endCommand
  /-- ACT_CMD_ENTER: to the report of the modifiers -/
  | enterMask (mask : UInt16)
  /-- ACT_CMD_JIGGLE: back to the original target -/
  | jiggleBack (origX origY : UInt16)
  deriving DecidableEq, Repr

/-- Where `hid_task` stands. -/
inductive HidPc where
  /-- before the compare-exchange -/
  | loopHead
  /-- the compare-exchange has lowered the flag -/
  | lowered
  /-- `send_abs_mouse_once`, before the read of `target_x` -/
  | onceX (next : AfterOnce)
  | onceY (next : AfterOnce) (hx : UInt16)
  | onceSend (next : AfterOnce) (hx hy : UInt16)
  | receive
  /-- before the `switch` -/
  | command
  /-- `send_abs_mouse_retry`, before the read of `target_x` -/
  | retryX
  | retryY (hx : UInt16)
  | retrySend (hx hy : UInt16)
  | enterX (x y mask : UInt16)
  | enterY (y mask : UInt16)
  | enterMask (mask : UInt16)
  | jiggleReadX
  | jiggleReadY (origX : UInt16)
  | jiggleX (origX origY : UInt16)
  | jiggleY (origX origY : UInt16)
  | jiggleBackX (origX origY : UInt16)
  | jiggleBackY (origY : UInt16)
  | endCommand
  deriving DecidableEq, Repr

/-- The place after `send_abs_mouse_once`. -/
def AfterOnce.pc : AfterOnce → HidPc
  | .receive => .receive
  | .endCommand => .endCommand
  | .enterMask mask => .enterMask mask
  | .jiggleBack origX origY => .jiggleBackX origX origY

/-- The two tasks, each in the middle of what it does. -/
structure Movement where
  tasks : Tasks
  netPc : MovePc
  hidPc : HidPc
  /-- a movement call has been made -/
  moved : Bool
  /-- the `target_x` read in the last `send_abs_mouse_once` -/
  readX : UInt16
  /-- the target from which the last `send_abs_mouse_once` computed `hx` and `hy` -/
  lastOnce : Option Position

/-- `hid_task` and what it works on. -/
def Movement.hid (m : Movement) : Hid := m.tasks.hid

/-- The actuator. -/
def Movement.act (m : Movement) : TusbActuator := m.tasks.hid.act

/-- The state with another `hid_task`. -/
def Movement.withHid (m : Movement) (h : Hid) : Movement :=
  { m with tasks := { m.tasks with hid := h } }

/-- The state with another actuator. -/
def Movement.withAct (m : Movement) (act : TusbActuator) : Movement :=
  m.withHid { m.hid with act := act }

/-- An access of the network task in a movement call. -/
def Movement.netStep (m : Movement) : Option Movement :=
  match m.netPc with
  | .idle => none
  | .setX x y => some { m.withAct { m.act with targetX := x } with netPc := .setY y }
  | .setY y => some { m.withAct { m.act with targetY := y } with netPc := .notify }
  | .readX dx dy => some { m with netPc := .readY (m.act.targetX.toNat + dx.toInt) dy }
  | .readY nx dy => some { m with netPc := .writeX nx (m.act.targetY.toNat + dy.toInt) }
  | .writeX nx ny =>
      some { m.withAct { m.act with targetX := clampU16 nx (m.act.screenWidth - 1) } with
        netPc := .writeY ny }
  | .writeY ny =>
      some { m.withAct { m.act with targetY := clampU16 ny (m.act.screenHeight - 1) } with
        netPc := .notify }
  | .notify => some { m.withAct m.act.notifyMovement with netPc := .idle }

/-- The `switch` of `hid_task`, up to the first access to the target. -/
def Movement.switch (m : Movement) : ActCmd → Option Movement
  | .mouseDown id =>
      some { m.withAct { m.act with
          mouseButtons := m.act.mouseButtons ||| barrierButtonToHid id } with hidPc := .retryX }
  | .mouseUp id =>
      some { m.withAct { m.act with
          mouseButtons := m.act.mouseButtons &&& ~~~ barrierButtonToHid id } with
        hidPc := .retryX }
  | .mouseWheel _ dy =>
      some { m.withAct { m.act with mouseWheel := dampenWheel dy } with hidPc := .retryX }
  | .enter x y mask => some { m with hidPc := .enterX x y mask }
  | .leave =>
      ({ m.hid with act := m.act.clearKeys }.sendKbReport [0, 0, 0, 0, 0, 0, 0, 0]).map fun h =>
        { (m.withHid h).withAct { h.act with mouseButtons := 0, mouseWheel := 0 } with
          hidPc := .onceX .endCommand }
  | .jiggle => some { m with hidPc := .jiggleReadX }
  | cmd => (m.hid.processCommand cmd).map fun h => { m.withHid h with hidPc := .endCommand }

/-- `hid_task` is through with the command that it has received. -/
def Tasks.endCommand (t : Tasks) : Tasks :=
  { t with
    working := none
    finished := t.finished ++ (t.working.map fun cmd => (cmd, t.hid.mounted)).toList }

/-- An access of `hid_task`. -/
def Movement.hidStep (m : Movement) : Option Movement :=
  match m.hidPc with
  | .loopHead =>
      if m.act.movementPending = 1 then
        some { m.withAct { m.act with movementPending := 0 } with hidPc := .lowered }
      else some { m with hidPc := .receive }
  | .lowered =>
      if m.hid.mounted then some { m with hidPc := .onceX .receive }
      else some { m with hidPc := .receive }
  | .onceX next =>
      some { m with
        hidPc := .onceY next (toHid m.act.screenWidth m.act.targetX)
        readX := m.act.targetX }
  | .onceY next hx =>
      some { m with
        hidPc := .onceSend next hx (toHid m.act.screenHeight m.act.targetY)
        lastOnce := some (m.readX, m.act.targetY) }
  | .onceSend next hx hy =>
      (m.hid.sendOnceAt hx hy).map fun h => { m.withHid h with hidPc := next.pc }
  | .receive =>
      some { m with
        tasks := m.tasks.receive
        hidPc := if m.tasks.receive.working = none then .loopHead else .command }
  | .command =>
      m.tasks.working.bind fun cmd =>
        if m.hid.mounted then
          (m.withHid { m.hid with processed := m.hid.processed ++ [cmd] }).switch cmd
        else some { m with hidPc := .endCommand }
  | .retryX => some { m with hidPc := .retryY (toHid m.act.screenWidth m.act.targetX) }
  | .retryY hx => some { m with hidPc := .retrySend hx (toHid m.act.screenHeight m.act.targetY) }
  | .retrySend hx hy =>
      (m.hid.sendRetryAt hx hy).map fun h => { m.withHid h with hidPc := .endCommand }
  | .enterX x y mask => some { m.withAct { m.act with targetX := x } with hidPc := .enterY y mask }
  | .enterY y mask =>
      some { m.withAct { m.act with targetY := y } with hidPc := .onceX (.enterMask mask) }
  | .enterMask mask =>
      if mask ≠ 0 then
        (m.hid.sendKbReport [maskToTusbModifier mask, 0, 0, 0, 0, 0, 0, 0]).map fun h =>
          { m.withHid h with hidPc := .endCommand }
      else some { m with hidPc := .endCommand }
  | .jiggleReadX => some { m with hidPc := .jiggleReadY m.act.targetX }
  | .jiggleReadY origX => some { m with hidPc := .jiggleX origX m.act.targetY }
  | .jiggleX origX origY =>
      some { m.withAct { m.act with targetX := jiggleX { m.act with targetX := origX } } with
        hidPc := .jiggleY origX origY }
  | .jiggleY origX origY =>
      some { m.withAct { m.act with targetY := origY } with
        hidPc := .onceX (.jiggleBack origX origY) }
  | .jiggleBackX origX origY =>
      some { m.withAct { m.act with targetX := origX } with hidPc := .jiggleBackY origY }
  | .jiggleBackY origY =>
      some { m.withAct { m.act with targetY := origY } with hidPc := .onceX .endCommand }
  | .endCommand => some { m with tasks := m.tasks.endCommand, hidPc := .loopHead }

/-- Whose access is next. -/
inductive MovementLabel where
  /-- the network task calls `actuator_set_movement` -/
  | setMovement (x y : UInt16)
  /-- the network task calls `actuator_move_relative` -/
  | moveRelative (dx dy : Int16)
  /-- the next access of a movement call -/
  | net
  /-- an access of the network task to the queue -/
  | queue (label : DeliveryLabel)
  /-- the next access of `hid_task` -/
  | hid
  deriving DecidableEq, Repr

/-- One access. -/
def movementAccess (m : Movement) : MovementLabel → Option Movement
  | .setMovement x y =>
      if m.netPc = .idle ∧ m.tasks.pc = .idle then
        some { m with netPc := .setX x y, moved := true }
      else none
  | .moveRelative dx dy =>
      if m.netPc = .idle ∧ m.tasks.pc = .idle then
        some { m with netPc := .readX dx dy, moved := true }
      else none
  | .net => m.netStep
  | .queue label =>
      if m.netPc = .idle then
        (tasksStep m.tasks (.net label)).map fun t => { m with tasks := t }
      else none
  | .hid => m.hidStep

/-- After `tusb_actuator_init`, with USB mounted. -/
def Movement.init (screenWidth screenHeight : UInt16) (layout : KeyboardLayout)
    (answers : List Bool) : Movement where
  tasks := Tasks.init screenWidth screenHeight layout true answers
  netPc := .idle
  hidPc := .loopHead
  moved := false
  readX := 0
  lastOnce := none

/-! ## What holds between any two accesses -/

/-- ENTER and JIGGLE write the target from `hid_task`. -/
def ActCmd.movesTarget : ActCmd → Bool
  | .enter _ _ _ | .jiggle => true
  | _ => false

/-- The target is written after this `send_abs_mouse_once`. -/
def AfterOnce.movesTarget : AfterOnce → Bool
  | .jiggleBack _ _ => true
  | _ => false

/-- `hid_task` is about to write the target. -/
def HidPc.movesTarget : HidPc → Bool
  | .enterX _ _ _ | .enterY _ _ | .jiggleReadX | .jiggleReadY _ | .jiggleX _ _ | .jiggleY _ _
  | .jiggleBackX _ _ | .jiggleBackY _ => true
  | .onceX next | .onceY next _ | .onceSend next _ _ => next.movesTarget
  | _ => false

/-- No ENTER and no JIGGLE was queued. -/
def Movement.OnlyCalls (m : Movement) : Prop :=
  ∀ cmd ∈ m.tasks.accepted, cmd.movesTarget = false

/-- What the last `send_abs_mouse_once` has to do with the target, when no movement is pending
and `hid_task` stands at `pc`. -/
def Movement.FreshAt (m : Movement) : HidPc → Prop
  | .lowered | .onceX _ => True
  | .onceY _ _ => m.readX = m.act.targetX
  | _ => m.moved = false ∨ m.lastOnce = some m.hid.target

/-- The commands are in order, and no movement is lost while only the movement calls write the
target. -/
structure MovementInv (m : Movement) : Prop where
  inOrder : m.tasks.accepted = m.tasks.taken.map Prod.fst ++ m.tasks.queue
  working : ∀ cmd, m.tasks.working = some cmd → cmd ∈ m.tasks.accepted
  mounted : m.hid.mounted = true
  fresh : m.OnlyCalls → m.hidPc.movesTarget = false ∧
    (m.netPc = .idle → m.act.movementPending = 0 → m.FreshAt m.hidPc)

theorem movementInv_init (screenWidth screenHeight : UInt16) (layout : KeyboardLayout)
    (answers : List Bool) :
    MovementInv (Movement.init screenWidth screenHeight layout answers) where
  inOrder := rfl
  working := by
    intro cmd hcmd
    cases hcmd
  mounted := rfl
  fresh := fun _ => ⟨rfl, fun _ _ => Or.inl rfl⟩

/-- Two states of the HID task with the same target, flag and queue. -/
structure KeepsMovement (h h' : Hid) : Prop where
  target : h'.target = h.target
  pending : h'.act.movementPending = h.act.movementPending
  queue : h'.act.cmdQueue = h.act.cmdQueue
  mounted : h'.mounted = h.mounted

theorem SendFrame.keepsMovement {h h' : Hid} (hframe : SendFrame h h') : KeepsMovement h h' := by
  have hsame := hframe.sameTarget
  obtain ⟨hx, hy, buttons, wheel, hact⟩ := hframe.act
  exact ⟨Prod.ext hsame.targetX hsame.targetY, (congrArg TusbActuator.movementPending hact :),
    hsame.queue, hsame.mounted⟩

/-- Where a command starts that does not write the target. -/
theorem switch_spec {m m' : Movement} {cmd : ActCmd} (hswitch : m.switch cmd = some m')
    (hkeeps : cmd.movesTarget = false) :
    ∃ h pc, m' = { m.withHid h with hidPc := pc } ∧ KeepsMovement m.hid h ∧
      (pc = .retryX ∨ pc = .onceX .endCommand ∨ pc = .endCommand) := by
  cases cmd with
  | keyDown key mask button =>
      obtain ⟨h, hp, rfl⟩ := Option.map_eq_some_iff.mp hswitch
      obtain ⟨keys, count, htrack⟩ := trackKeyDown_frame m.hid.act key
      have hsame := (sendKbReport_frame hp).keepsMovement
      rw [htrack] at hsame
      exact ⟨h, _, rfl, ⟨hsame.target, hsame.pending, hsame.queue, hsame.mounted⟩, by simp⟩
  | keyUp key mask button =>
      obtain ⟨h, hp, rfl⟩ := Option.map_eq_some_iff.mp hswitch
      obtain ⟨keys, count, htrack⟩ := trackKeyUp_frame m.hid.act key
      have hsame := (sendKbReport_frame hp).keepsMovement
      rw [htrack] at hsame
      exact ⟨h, _, rfl, ⟨hsame.target, hsame.pending, hsame.queue, hsame.mounted⟩, by simp⟩
  | leave =>
      obtain ⟨h, hp, rfl⟩ := Option.map_eq_some_iff.mp hswitch
      have hsame := (sendKbReport_frame hp).keepsMovement
      exact ⟨{ h with act := { h.act with mouseButtons := 0, mouseWheel := 0 } }, _, rfl,
        ⟨hsame.target, hsame.pending, hsame.queue, hsame.mounted⟩, by simp⟩
  | enter x y mask => cases hkeeps
  | jiggle => cases hkeeps
  | mouseDown id | mouseUp id | mouseWheel dx dy | keyRepeat key mask button count | connected
  | disconnected | setScreenSize w ht | setScaling scaling =>
      cases hswitch
      exact ⟨_, _, rfl, ⟨rfl, rfl, rfl, rfl⟩, by simp⟩

/-- A step of `hid_task` to `pc` that leaves the queue alone. -/
theorem MovementInv.of_hid {m : Movement} {h : Hid} {pc : HidPc} (hinv : MovementInv m)
    (hqueue : h.act.cmdQueue = m.act.cmdQueue) (hmounted : h.mounted = m.hid.mounted)
    (hfresh : m.OnlyCalls → pc.movesTarget = false ∧
      (m.netPc = .idle → h.act.movementPending = 0 → (m.withHid h).FreshAt pc)) :
    MovementInv { m.withHid h with hidPc := pc } where
  inOrder := hinv.inOrder.trans (congrArg (m.tasks.taken.map Prod.fst ++ ·) hqueue.symm)
  working := hinv.working
  mounted := hmounted.trans hinv.mounted
  fresh := hfresh

/-- Where a settled target is enough. -/
theorem freshAt_of_settled {m : Movement} {pc : HidPc}
    (hsettled : m.moved = false ∨ m.lastOnce = some m.hid.target)
    (hpc : ∀ next hx, pc ≠ .onceY next hx) : m.FreshAt pc := by
  cases pc with
  | onceY next hx => exact absurd rfl (hpc next hx)
  | lowered | onceX next => trivial
  | _ => exact hsettled

theorem afterOnce_pc {next : AfterOnce} (hkeeps : next.movesTarget = false) :
    next.pc.movesTarget = false ∧ ∀ after hx, next.pc ≠ .onceY after hx := by
  cases next with
  | jiggleBack origX origY => cases hkeeps
  | _ => exact ⟨rfl, nofun⟩

/-- A send keeps a settled target. -/
theorem MovementInv.send {m : Movement} {h : Hid} {pc : HidPc} (hinv : MovementInv m)
    (hkeeps : KeepsMovement m.hid h)
    (hfresh : m.OnlyCalls → pc.movesTarget = false ∧ (∀ next hx, pc ≠ .onceY next hx) ∧
      (m.netPc = .idle → m.act.movementPending = 0 →
        m.moved = false ∨ m.lastOnce = some m.hid.target)) :
    MovementInv { m.withHid h with hidPc := pc } := by
  refine hinv.of_hid hkeeps.queue hkeeps.mounted fun honly => ?_
  obtain ⟨hpc, hno, hsettled⟩ := hfresh honly
  refine ⟨hpc, fun hidle hpending => freshAt_of_settled ?_ hno⟩
  have hpending' : m.act.movementPending = 0 := hkeeps.pending.symm.trans hpending
  rcases hsettled hidle hpending' with hmoved | hlast
  · exact Or.inl hmoved
  · exact Or.inr (hlast.trans (congrArg some hkeeps.target.symm))

theorem receive_cases (t : Tasks) :
    t.receive = t ∨ ∃ cmd rest, t.queue = cmd :: rest ∧ t.receive = { t with
      hid := { t.hid with act := { t.hid.act with cmdQueue := rest } }
      taken := t.taken ++ [(cmd, .hid)]
      working := some cmd } := by
  unfold Tasks.receive
  split
  · exact Or.inl rfl
  · next cmd act hreceive =>
      obtain ⟨rest, hqueue, rfl⟩ := xQueueReceive_spec hreceive
      exact Or.inr ⟨cmd, rest, hqueue, rfl⟩

theorem MovementInv.receive {m : Movement} (hinv : MovementInv m) (hpc : m.hidPc = .receive) :
    MovementInv { m with
      tasks := m.tasks.receive
      hidPc := if m.tasks.receive.working = none then .loopHead else .command } := by
  have hfresh : m.OnlyCalls → m.netPc = .idle → m.act.movementPending = 0 →
      m.moved = false ∨ m.lastOnce = some m.hid.target := by
    intro honly hidle hpending
    have hat := (hinv.fresh honly).2 hidle hpending
    rwa [hpc] at hat
  rcases receive_cases m.tasks with hsame | ⟨cmd, rest, hqueue, hreceive⟩
  · rw [hsame]
    refine ⟨hinv.inOrder, hinv.working, hinv.mounted, fun honly => ⟨?_, ?_⟩⟩
    · split <;> rfl
    · intro hidle hpending
      refine freshAt_of_settled (hfresh honly hidle hpending) ?_
      intro next hx
      split <;> exact nofun
  · have horder := hinv.inOrder
    rw [hqueue] at horder
    rw [hreceive]
    refine ⟨?_, ?_, hinv.mounted, fun honly => ⟨rfl, ?_⟩⟩
    · rw [List.map_append, List.append_assoc]
      exact horder
    · intro cmd' hcmd'
      cases hcmd'
      dsimp only
      rw [horder]
      simp
    · exact hfresh honly

/-- The steps of `hid_task` within a command that writes the target. -/
theorem MovementInv.moves {m m' : Movement} (hinv : MovementInv m)
    (hpc : m.hidPc.movesTarget = true)
    (hinOrder : m'.tasks.accepted = m'.tasks.taken.map Prod.fst ++ m'.tasks.queue)
    (haccepted : m'.tasks.accepted = m.tasks.accepted)
    (hworking : m'.tasks.working = m.tasks.working) (hmounted : m'.hid.mounted = m.hid.mounted) :
    MovementInv m' where
  inOrder := hinOrder
  working := by
    rw [haccepted, hworking]
    exact hinv.working
  mounted := hmounted.trans hinv.mounted
  fresh := by
    intro honly
    unfold Movement.OnlyCalls at honly
    rw [haccepted] at honly
    have hno := (hinv.fresh honly).1
    rw [hpc] at hno
    cases hno

/-- A command starts. -/
theorem MovementInv.switch {m m' : Movement} {cmd : ActCmd} (hinv : MovementInv m)
    (hworking : m.tasks.working = some cmd) (hpc : m.hidPc = .command)
    (hswitch : (m.withHid { m.hid with processed := m.hid.processed ++ [cmd] }).switch cmd =
      some m') : MovementInv m' := by
  cases hmoves : cmd.movesTarget with
  | true =>
      have hnot : ¬ m.OnlyCalls := by
        intro honly
        have hno := honly cmd (hinv.working cmd hworking)
        rw [hmoves] at hno
        cases hno
      cases cmd with
      | enter x y mask =>
          cases hswitch
          exact hinv.of_hid rfl rfl fun honly => absurd honly hnot
      | jiggle =>
          cases hswitch
          exact hinv.of_hid rfl rfl fun honly => absurd honly hnot
      | _ => cases hmoves
  | false =>
      obtain ⟨h, pc, rfl, hkeeps, hnext⟩ := switch_spec hswitch hmoves
      refine hinv.send ⟨hkeeps.target, hkeeps.pending, hkeeps.queue, hkeeps.mounted⟩ fun honly => ?_
      have hsettled := (hinv.fresh honly).2
      rw [hpc] at hsettled
      rcases hnext with rfl | rfl | rfl
      · exact ⟨rfl, nofun, hsettled⟩
      · exact ⟨rfl, nofun, hsettled⟩
      · exact ⟨rfl, nofun, hsettled⟩

theorem hidStep_inv {m m' : Movement} (hinv : MovementInv m) (hstep : m.hidStep = some m') :
    MovementInv m' := by
  have hkeep : ∀ pc, m.hidPc = pc → m.OnlyCalls → pc.movesTarget = false ∧
      (m.netPc = .idle → m.act.movementPending = 0 → m.FreshAt pc) := by
    rintro pc rfl
    exact hinv.fresh
  unfold Movement.hidStep at hstep
  split at hstep
  case h_1 hpc =>
    have hsettled := hkeep _ hpc
    split at hstep
    · cases hstep
      exact hinv.of_hid rfl rfl fun _ => ⟨rfl, fun _ _ => trivial⟩
    · cases hstep
      exact hinv.of_hid (h := m.hid) rfl rfl hsettled
  case h_2 hpc =>
    rw [if_pos hinv.mounted] at hstep
    cases hstep
    exact hinv.of_hid (h := m.hid) rfl rfl fun _ => ⟨rfl, fun _ _ => trivial⟩
  case h_3 next hpc =>
    cases hstep
    refine ⟨hinv.inOrder, hinv.working, hinv.mounted, fun honly => ?_⟩
    exact ⟨(hkeep _ hpc honly).1, fun _ _ => rfl⟩
  case h_4 next hx hpc =>
    cases hstep
    refine ⟨hinv.inOrder, hinv.working, hinv.mounted, fun honly => ?_⟩
    obtain ⟨hno, hread⟩ := hkeep _ hpc honly
    refine ⟨hno, fun hidle hpending => Or.inr ?_⟩
    have hreadX : m.readX = m.act.targetX := hread hidle hpending
    dsimp only
    rw [hreadX]
    rfl
  case h_5 next hx hy hpc =>
    obtain ⟨h, hsend, rfl⟩ := Option.map_eq_some_iff.mp hstep
    refine hinv.send (sendOnceAt_frame hsend).keepsMovement fun honly => ?_
    obtain ⟨hno, hsettled⟩ := hkeep _ hpc honly
    obtain ⟨hpc', hno'⟩ := afterOnce_pc hno
    exact ⟨hpc', hno', hsettled⟩
  case h_6 hpc =>
    cases hstep
    exact hinv.receive hpc
  case h_7 hpc =>
    obtain ⟨cmd, hworking, hcommand⟩ := Option.bind_eq_some_iff.mp hstep
    rw [if_pos hinv.mounted] at hcommand
    exact hinv.switch hworking hpc hcommand
  case h_8 hpc =>
    have hsettled := hkeep _ hpc
    cases hstep
    exact hinv.of_hid (h := m.hid) rfl rfl hsettled
  case h_9 hx hpc =>
    have hsettled := hkeep _ hpc
    cases hstep
    exact hinv.of_hid (h := m.hid) rfl rfl hsettled
  case h_10 hx hy hpc =>
    obtain ⟨h, hsend, rfl⟩ := Option.map_eq_some_iff.mp hstep
    refine hinv.send (sendRetryAt_frame hsend).keepsMovement fun honly => ?_
    exact ⟨rfl, nofun, (hkeep _ hpc honly).2⟩
  case h_13 mask hpc =>
    split at hstep
    · obtain ⟨h, hsend, rfl⟩ := Option.map_eq_some_iff.mp hstep
      refine hinv.send (sendKbReport_frame hsend).keepsMovement fun honly => ?_
      exact ⟨rfl, nofun, (hkeep _ hpc honly).2⟩
    · have hsettled := hkeep _ hpc
      cases hstep
      exact hinv.of_hid (h := m.hid) rfl rfl hsettled
  case h_20 hpc =>
    have hsettled := hkeep _ hpc
    cases hstep
    exact ⟨hinv.inOrder, nofun, hinv.mounted, hsettled⟩
  -- the others are within an ENTER or a JIGGLE
  all_goals
    rename_i hpc
    cases hstep
    exact hinv.moves (by rw [hpc]; rfl) hinv.inOrder rfl rfl rfl

/-- After an access of a movement call, the call is still in progress or the flag is raised. -/
theorem netStep_spec {m m' : Movement} (hstep : m.netStep = some m') :
    (∃ act pc, m' = { m.withAct act with netPc := pc } ∧ act.cmdQueue = m.act.cmdQueue) ∧
      (m'.netPc = .idle → m'.act.movementPending ≠ 0) := by
  unfold Movement.netStep at hstep
  split at hstep
  case h_8 hpc =>
    cases hstep
    refine ⟨⟨_, _, rfl, notifyMovement_cmdQueue _⟩, fun _ => ?_⟩
    show m.act.notifyMovement.movementPending ≠ 0
    unfold TusbActuator.notifyMovement
    split
    · show (1 : UInt32) ≠ 0
      decide
    · next hraised => exact hraised
  case h_1 => cases hstep
  all_goals
    cases hstep
    exact ⟨⟨_, _, rfl, rfl⟩, nofun⟩

/-- What is accepted stays accepted. -/
theorem tasksStep_accepted {t t' : Tasks} {label : TasksLabel} (hstep : tasksStep t label = some t')
    {cmd : ActCmd} (hcmd : cmd ∈ t.accepted) : cmd ∈ t'.accepted := by
  rcases tasksStep_queue hstep with ⟨l, hl⟩ | ⟨_, haccepted, _⟩
  · have hgrows : ∃ more, t'.accepted = t.accepted ++ more := by
      rcases deliveryStep_cases hl with ⟨_, ha, _, _⟩ | ⟨cmd', _, ha, _, _⟩ | ⟨_, _, _, ha, _, _⟩
      · exact ⟨[], ha.trans (List.append_nil _).symm⟩
      · exact ⟨[cmd'], ha⟩
      · exact ⟨[], ha.trans (List.append_nil _).symm⟩
    obtain ⟨more, hmore⟩ := hgrows
    rw [hmore]
    exact List.mem_append_left more hcmd
  · rw [haccepted]
    exact hcmd

theorem queueStep_inv {m : Movement} {t : Tasks} {label : DeliveryLabel} (hinv : MovementInv m)
    (hstep : tasksStep m.tasks (.net label) = some t) : MovementInv { m with tasks := t } := by
  have hinOrder := tasksStep_inOrder hinv.inOrder hstep
  have haccepted : ∀ cmd ∈ m.tasks.accepted, cmd ∈ t.accepted :=
    fun cmd hcmd => tasksStep_accepted hstep hcmd
  unfold tasksStep at hstep
  simp only at hstep
  split at hstep
  · cases hstep
  · next hne =>
      obtain ⟨d, hd, rfl⟩ := Option.map_eq_some_iff.mp hstep
      have hdevice : d.act.withoutQueue = m.act.withoutQueue := (deliveryStep_device hne hd).1
      have hpending : d.act.movementPending = m.act.movementPending :=
        (congrArg TusbActuator.movementPending hdevice :)
      have htargetX : d.act.targetX = m.act.targetX := (congrArg TusbActuator.targetX hdevice :)
      have htargetY : d.act.targetY = m.act.targetY := (congrArg TusbActuator.targetY hdevice :)
      refine ⟨hinOrder, ?_, hinv.mounted, ?_⟩
      · intro cmd hcmd
        exact haccepted cmd (hinv.working cmd hcmd)
      · intro honly
        obtain ⟨hno, hfresh⟩ := hinv.fresh fun cmd hcmd => honly cmd (haccepted cmd hcmd)
        refine ⟨hno, fun hidle hzero => ?_⟩
        have hat := hfresh hidle (hpending.symm.trans hzero)
        have htarget : ({ m.hid with act := d.act } : Hid).target = m.hid.target :=
          Prod.ext htargetX htargetY
        revert hat
        show m.FreshAt m.hidPc → Movement.FreshAt { m with tasks := m.tasks.withDelivery d } m.hidPc
        cases m.hidPc with
        | lowered | onceX next => exact id
        | onceY next hx => exact fun hread => hread.trans htargetX.symm
        | _ => exact Or.imp_right fun hlast => hlast.trans (congrArg some htarget.symm)

theorem movementAccess_inv (m : Movement) (label : MovementLabel) (m' : Movement)
    (hinv : MovementInv m) (hstep : movementAccess m label = some m') : MovementInv m' := by
  unfold movementAccess at hstep
  cases label with
  | setMovement x y =>
      simp only at hstep
      split at hstep
      · cases hstep
        exact ⟨hinv.inOrder, hinv.working, hinv.mounted,
          fun honly => ⟨(hinv.fresh honly).1, nofun⟩⟩
      · cases hstep
  | moveRelative dx dy =>
      simp only at hstep
      split at hstep
      · cases hstep
        exact ⟨hinv.inOrder, hinv.working, hinv.mounted,
          fun honly => ⟨(hinv.fresh honly).1, nofun⟩⟩
      · cases hstep
  | net =>
      obtain ⟨⟨act, pc, rfl, hqueue⟩, hraised⟩ := netStep_spec hstep
      refine ⟨?_, hinv.working, hinv.mounted, fun honly => ⟨(hinv.fresh honly).1, ?_⟩⟩
      · exact hinv.inOrder.trans (congrArg (m.tasks.taken.map Prod.fst ++ ·) hqueue.symm)
      · exact fun hidle hzero => absurd hzero (hraised hidle)
  | queue label =>
      simp only at hstep
      split at hstep
      · obtain ⟨t, ht, rfl⟩ := Option.map_eq_some_iff.mp hstep
        exact queueStep_inv hinv ht
      · cases hstep
  | hid => exact hidStep_inv hinv hstep

/-! ## No movement is lost -/

/-- `hid_task` is inside `send_abs_mouse_once`, or between the compare-exchange that lowers the
flag and that call. -/
def HidPc.insideOnce : HidPc → Bool
  | .lowered | .onceX _ | .onceY _ _ | .onceSend _ _ _ => true
  | _ => false

/-- Whenever no movement call is in progress, no movement is pending and `hid_task` is not about
to read: the last `send_abs_mouse_once` has computed its position from the current target. -/
theorem movement_not_lost {screenWidth screenHeight : UInt16} {layout : KeyboardLayout}
    {answers : List Bool} {labels : List MovementLabel} {m : Movement}
    (hrun : run movementAccess (Movement.init screenWidth screenHeight layout answers) labels =
      some m)
    (honly : m.OnlyCalls) (hidle : m.netPc = .idle) (hpending : m.act.movementPending = 0)
    (houtside : m.hidPc.insideOnce = false) :
    m.moved = false ∨ m.lastOnce = some m.hid.target := by
  have hinv := run_invariant movementAccess_inv
    (movementInv_init screenWidth screenHeight layout answers) hrun
  have hfresh := (hinv.fresh honly).2 hidle hpending
  revert hfresh houtside
  cases m.hidPc with
  | lowered | onceX next | onceY next hx | onceSend next hx hy => exact nofun
  | _ => exact fun _ hsettled => hsettled

/-- A move to (100, 100) is taken up between the two writes of a move to (200, 200): `hid_task`
reads (200, 100), and once more when the flag is raised again. -/
def tornMoveLabels : List MovementLabel :=
  [.setMovement 100 100, .net, .net, .net, .setMovement 200 200, .net, .hid, .hid, .hid, .hid, .hid,
    .net, .net, .hid, .hid, .hid, .hid, .hid, .hid, .hid]

theorem movement_not_lost_torn :
    ∃ m, run movementAccess (Movement.init 1920 1080 .us [true, true]) tornMoveLabels = some m ∧
      m.moved = true ∧ (m.moved = false ∨ m.lastOnce = some m.hid.target) := by
  have hview : (run movementAccess (Movement.init 1920 1080 .us [true, true]) tornMoveLabels).map
      (fun m => (m.tasks.accepted, m.netPc, m.act.movementPending, m.hidPc.insideOnce, m.moved)) =
      some ([], .idle, 0, false, true) := by
    rfl
  obtain ⟨m, hrun, hends⟩ := Option.map_eq_some_iff.mp hview
  simp only [Prod.mk.injEq] at hends
  obtain ⟨haccepted, hidle, hpending, houtside, hmoved⟩ := hends
  have honly : m.OnlyCalls := by
    unfold Movement.OnlyCalls
    rw [haccepted]
    exact nofun
  exact ⟨m, hrun, hmoved, movement_not_lost hrun honly hidle hpending houtside⟩

/-! ## Undisturbed calls -/

/-- A movement call that `hid_task` does not interrupt is one step of `tasksStep`. -/
theorem run_setMovement (m : Movement) (x y : UInt16) (hidle : m.netPc = .idle)
    (hqueue : m.tasks.pc = .idle) :
    ∃ t, tasksStep m.tasks (.setMovement x y) = some t ∧
      run movementAccess m [.setMovement x y, .net, .net, .net] =
        some { m with tasks := t, netPc := .idle, moved := true } := by
  refine ⟨_, if_pos hqueue, ?_⟩
  have hcall : movementAccess m (.setMovement x y) =
      some { m with netPc := .setX x y, moved := true } := if_pos ⟨hidle, hqueue⟩
  exact run_cons_iff.mpr ⟨_, hcall, rfl⟩

theorem run_moveRelative (m : Movement) (dx dy : Int16) (hidle : m.netPc = .idle)
    (hqueue : m.tasks.pc = .idle) :
    ∃ t, tasksStep m.tasks (.moveRelative dx dy) = some t ∧
      run movementAccess m [.moveRelative dx dy, .net, .net, .net, .net, .net] =
        some { m with tasks := t, netPc := .idle, moved := true } := by
  refine ⟨_, if_pos hqueue, ?_⟩
  have hcall : movementAccess m (.moveRelative dx dy) =
      some { m with netPc := .readX dx dy, moved := true } := if_pos ⟨hidle, hqueue⟩
  exact run_cons_iff.mpr ⟨_, hcall, rfl⟩

/-- `hid_task` gets from `m` to a state with these tasks, at `pc`, when it runs alone. -/
def Movement.Reaches (m : Movement) (t : Tasks) (pc : HidPc) : Prop :=
  ∃ n m', run movementAccess m (List.replicate n .hid) = some m' ∧ m'.tasks = t ∧ m'.hidPc = pc

theorem reaches_of_step {m m₁ : Movement} {t : Tasks} {pc : HidPc} (hstep : m.hidStep = some m₁)
    (hreaches : m₁.Reaches t pc) : m.Reaches t pc := by
  obtain ⟨n, m', hrun, htasks, hpc⟩ := hreaches
  exact ⟨n + 1, m', run_cons_iff.mpr ⟨m₁, hstep, hrun⟩, htasks, hpc⟩

theorem hidStep_eq {m : Movement} {pc : HidPc} (hpc : m.hidPc = pc) :
    m.hidStep = Movement.hidStep { m with hidPc := pc } := by
  rw [← hpc]

/-- `send_abs_mouse_once` and what follows it. -/
theorem reaches_once {m : Movement} {h : Hid} {next : AfterOnce} {t : Tasks} {pc : HidPc}
    (hpc : m.hidPc = .onceX next) (hsend : m.hid.sendAbsMouseOnce = some h)
    (hrest : ∀ m' : Movement, m'.tasks = (m.withHid h).tasks → m'.hidPc = next.pc →
      m'.Reaches t pc) : m.Reaches t pc := by
  refine reaches_of_step (hidStep_eq hpc) (reaches_of_step rfl (reaches_of_step ?_
    (hrest { m.withHid h with
      hidPc := next.pc, readX := m.act.targetX, lastOnce := some m.hid.target } rfl rfl)))
  exact Option.map_eq_some_iff.mpr ⟨h, (sendOnceAt_target m.hid).trans hsend, rfl⟩

/-- The end of a command. -/
theorem reaches_end {m : Movement} {t : Tasks} (htasks : m.tasks = t)
    (hpc : m.hidPc = .endCommand) : m.Reaches t.endCommand .loopHead := by
  subst htasks
  exact reaches_of_step (hidStep_eq hpc)
    ⟨0, { m with tasks := m.tasks.endCommand, hidPc := .loopHead }, rfl, rfl, rfl⟩

/-- `send_abs_mouse_retry` and the end of the command. -/
theorem reaches_retry {m : Movement} {h : Hid} (hpc : m.hidPc = .retryX)
    (hsend : m.hid.sendAbsMouseRetry = some h) :
    m.Reaches (m.withHid h).tasks.endCommand .loopHead := by
  refine reaches_of_step (hidStep_eq hpc) (reaches_of_step rfl (reaches_of_step ?_
    (reaches_end (m := { m.withHid h with hidPc := .endCommand }) rfl rfl)))
  exact Option.map_eq_some_iff.mpr ⟨h, (sendRetryAt_target m.hid).trans hsend, rfl⟩

/-- The movement part of an iteration that nothing interrupts is one step of `tasksStep`. -/
theorem reaches_movementStep {m : Movement} {t : Tasks} (hpc : m.hidPc = .loopHead)
    (hstep : tasksStep m.tasks .movement = some t) : m.Reaches t .receive := by
  have hlast : ∀ m' : Movement, m'.tasks = t → m'.hidPc = .receive → m'.Reaches t .receive :=
    fun m' htasks hpc' => ⟨0, m', rfl, htasks, hpc'⟩
  unfold tasksStep at hstep
  simp only at hstep
  split at hstep
  · obtain ⟨h, hmove, rfl⟩ := Option.map_eq_some_iff.mp hstep
    unfold Hid.movementStep at hmove
    split at hmove
    · next hraised =>
        refine reaches_of_step ((hidStep_eq hpc).trans (if_pos hraised)) ?_
        simp only at hmove
        split at hmove
        · next hmounted =>
            exact reaches_of_step (if_pos hmounted) (reaches_once rfl hmove hlast)
        · next hunmounted =>
            cases hmove
            exact reaches_of_step (if_neg hunmounted) (hlast _ rfl rfl)
    · next hlow =>
        cases hmove
        exact reaches_of_step ((hidStep_eq hpc).trans (if_neg hlow)) (hlast _ rfl rfl)
  · cases hstep

/-- A command that is switched on and that nothing interrupts. -/
theorem reaches_switch {m m₁ : Movement} {h : Hid} {cmd : ActCmd}
    (hp : m.hid.processCommand cmd = some h) (hswitch : m.switch cmd = some m₁) :
    m₁.Reaches (m.withHid h).tasks.endCommand .loopHead := by
  cases cmd with
  | mouseDown id | mouseUp id | mouseWheel dx dy =>
      cases hswitch
      exact reaches_retry rfl hp
  | enter x y mask =>
      obtain ⟨h₁, hsend, hrest⟩ := Option.bind_eq_some_iff.mp hp
      cases hswitch
      refine reaches_of_step rfl (reaches_of_step rfl (reaches_once rfl hsend ?_))
      rintro ⟨tasks, netPc, hidPc, moved, readX, lastOnce⟩ htasks hpc
      cases htasks
      cases hpc
      split at hrest
      · next hmask =>
          refine reaches_of_step ((if_pos hmask).trans ?_) (reaches_end
            (m := ⟨{ m.tasks with hid := h }, netPc, .endCommand, moved, readX, lastOnce⟩) rfl rfl)
          exact Option.map_eq_some_iff.mpr ⟨h, hrest, rfl⟩
      · next hmask =>
          cases hrest
          exact reaches_of_step (if_neg hmask) (reaches_end rfl rfl)
  | leave =>
      obtain ⟨h₁, hkb, hsend⟩ := Option.bind_eq_some_iff.mp hp
      obtain ⟨h₂, hkb', rfl⟩ := Option.map_eq_some_iff.mp hswitch
      cases hkb.symm.trans hkb'
      exact reaches_once rfl hsend fun m' htasks hpc => reaches_end htasks hpc
  | jiggle =>
      obtain ⟨h₁, hsend, hrest⟩ := Option.bind_eq_some_iff.mp hp
      cases hswitch
      refine reaches_of_step rfl (reaches_of_step rfl (reaches_of_step rfl (reaches_of_step rfl
        (reaches_once rfl hsend ?_))))
      rintro ⟨tasks, netPc, hidPc, moved, readX, lastOnce⟩ htasks hpc
      cases htasks
      cases hpc
      refine reaches_of_step rfl (reaches_of_step rfl (reaches_once rfl hrest ?_))
      exact fun m' htasks hpc => reaches_end htasks hpc
  | keyRepeat key mask button count | connected | disconnected | setScreenSize w ht
  | setScaling scaling =>
      cases hp
      cases hswitch
      exact reaches_end rfl rfl
  | keyDown key mask button | keyUp key mask button =>
      obtain ⟨h₁, hp', rfl⟩ := Option.map_eq_some_iff.mp hswitch
      cases hp.symm.trans hp'
      exact reaches_end rfl rfl

/-- `switch` stops for want of answers only if `processCommand` does. -/
theorem switch_of_processCommand {m : Movement} {h : Hid} {cmd : ActCmd}
    (hp : m.hid.processCommand cmd = some h) : ∃ m₁, m.switch cmd = some m₁ := by
  cases cmd with
  | leave =>
      obtain ⟨h₁, hkb, _⟩ := Option.bind_eq_some_iff.mp hp
      exact ⟨_, Option.map_eq_some_iff.mpr ⟨h₁, hkb, rfl⟩⟩
  | keyDown key mask button | keyUp key mask button =>
      exact ⟨_, Option.map_eq_some_iff.mpr ⟨h, hp, rfl⟩⟩
  | _ => exact ⟨_, rfl⟩

/-- A command that nothing interrupts is one step of `tasksStep`. -/
theorem reaches_finish {m : Movement} {t : Tasks} (hpc : m.hidPc = .command)
    (hstep : tasksStep m.tasks .finish = some t) : m.Reaches t .loopHead := by
  obtain ⟨cmd, hworking, hfinish⟩ := Option.bind_eq_some_iff.mp hstep
  have hcommand : m.hidStep = (if m.tasks.hid.mounted then
      (m.withHid { m.hid with processed := m.hid.processed ++ [cmd] }).switch cmd
      else some { m with hidPc := .endCommand }) := by
    rw [hidStep_eq hpc]
    show m.tasks.working.bind _ = _
    rw [hworking]
    rfl
  have hend : ∀ h : Hid, h.mounted = m.hid.mounted →
      Tasks.endCommand { m.tasks with hid := h } =
        { m.tasks with
          hid := h
          working := none
          finished := m.tasks.finished ++ [(cmd, m.hid.mounted)] } := by
    intro h hmounted
    simp [Tasks.endCommand, hworking, hmounted]
  unfold Tasks.finish at hfinish
  simp only at hfinish
  split at hfinish
  · next hmounted =>
      obtain ⟨h, hp, rfl⟩ := Option.map_eq_some_iff.mp hfinish
      have hp' : (m.withHid { m.hid with processed := m.hid.processed ++ [cmd] }).hid.processCommand
          cmd = some h := hp
      obtain ⟨m₁, hswitch⟩ := switch_of_processCommand hp'
      rw [if_pos hmounted, hswitch] at hcommand
      have hlast := reaches_of_step hcommand (reaches_switch hp' hswitch)
      have hsame : h.mounted = m.hid.mounted := (processCommand_sameKeys hp').mounted
      exact hend h hsame ▸ hlast
  · next hunmounted =>
      cases hfinish
      rw [if_neg hunmounted] at hcommand
      have hlast : m.Reaches m.tasks.endCommand .loopHead :=
        reaches_of_step hcommand (reaches_end rfl rfl)
      have hend' : m.tasks.endCommand = _ := hend m.hid rfl
      rwa [hend'] at hlast

end Esp32Deskflow.Tusb
