/-
  Tusb/Pointer.lean --- where the pointer ends up.

  Moves are written to `target_x` and `target_y` at once, the position of an ENTER
  only when the HID task takes the command from the queue.  A write that waits in the
  queue overwrites whatever was written after it, so the target follows the packets
  in runs where no move is handled while an ENTER waits, and no ENTER is dropped.
-/
import Esp32Deskflow.Tusb.TrackedKeys

set_option autoImplicit false

namespace Esp32Deskflow.Tusb

open Esp32Deskflow.Foundation.Transition

/-! ## The two tasks and the position -/

/-- A position in screen coordinates. -/
abbrev Position : Type := UInt16 × UInt16

/-- A step of one of the tasks. -/
inductive PointerLabel where
  /-- DMMV is handled: `actuator_set_movement` -/
  | dmmv (x y : UInt16)
  /-- DMRM is handled: `actuator_move_relative` -/
  | dmrm (dx dy : Int16)
  /-- CINN is handled: `actuator_queue_enter` -/
  | cinn (x y mask : UInt16)
  /-- a keep-alive jiggle: `actuator_queue_jiggle` -/
  | jiggle
  /-- an iteration of `hid_task` -/
  | iteration
  deriving DecidableEq, Repr

/-- `target_x` and `target_y`. -/
def Hid.target (h : Hid) : Position := (h.act.targetX, h.act.targetY)

/-- One step. -/
def pointerStep (h : Hid) : PointerLabel → Option Hid
  | .dmmv x y => some { h with act := actuatorSetMovement h.act x y }
  | .dmrm dx dy => some { h with act := actuatorMoveRelative h.act dx dy }
  | .cinn x y mask => some { h with act := (actuatorQueue h.act (.enter x y mask) 0).2 }
  | .jiggle => some { h with act := (actuatorQueue h.act .jiggle 0).2 }
  | .iteration => h.iteration

/-- A relative move on a screen of this size, as `actuator_move_relative` clamps it. -/
def moveBy (width height : UInt16) (pos : Position) (dx dy : Int16) : Position :=
  (clampU16 (pos.1.toNat + dx.toInt) (width - 1), clampU16 (pos.2.toNat + dy.toInt) (height - 1))

/-- Where a packet moves the pointer. -/
def applyPacket (width height : UInt16) (pos : Position) : PointerLabel → Position
  | .dmmv x y => (x, y)
  | .dmrm dx dy => moveBy width height pos dx dy
  | .cinn x y _ => (x, y)
  | .jiggle => pos
  | .iteration => pos

/-- The position after the packets of a run, applied one after the other. -/
def wirePosition (width height : UInt16) (labels : List PointerLabel) : Position :=
  labels.foldl (applyPacket width height) (0, 0)

/-! ## Writes that wait -/

/-- The value of a cell after the writes that still wait for it. -/
def settled {α : Type} (cell : α) (waiting : List α) : α := waiting.getLast?.getD cell

theorem settled_concat {α : Type} (cell : α) (waiting : List α) (value : α) :
    settled cell (waiting ++ [value]) = value := by
  unfold settled
  rw [List.getLast?_concat, Option.getD_some]

/-- Carrying out the first write changes nothing in the end. -/
theorem settled_cons {α : Type} (cell value : α) (waiting : List α) :
    settled cell (value :: waiting) = settled value waiting := by
  unfold settled
  cases waiting with
  | nil => rfl
  | cons w waiting =>
      rw [List.getLast?_cons_cons]
      obtain ⟨last, hlast⟩ := Option.isSome_iff_exists.mp (List.getLast?_isSome.mpr
        (List.cons_ne_nil w waiting))
      rw [hlast]
      rfl

/-- The position that an ENTER writes. -/
def ActCmd.enterPosition : ActCmd → Option Position
  | .enter x y _ => some (x, y)
  | _ => none

/-- The positions of the ENTERs in the queue. -/
def TusbActuator.enters (act : TusbActuator) : List Position :=
  act.cmdQueue.filterMap ActCmd.enterPosition

/-! ## What an iteration does to the target -/

/-- Two states of the task with the same target, screen and queue. -/
structure SameTarget (h h' : Hid) : Prop where
  targetX : h'.act.targetX = h.act.targetX
  targetY : h'.act.targetY = h.act.targetY
  width : h'.act.screenWidth = h.act.screenWidth
  height : h'.act.screenHeight = h.act.screenHeight
  queue : h'.act.cmdQueue = h.act.cmdQueue
  mounted : h'.mounted = h.mounted

theorem SendFrame.sameTarget {h h' : Hid} (hframe : SendFrame h h') : SameTarget h h' := by
  obtain ⟨hx, hy, buttons, wheel, hact⟩ := hframe.act
  refine ⟨?_, ?_, ?_, ?_, ?_, hframe.mounted⟩
  · rw [hact]
  · rw [hact]
  · rw [hact]
  · rw [hact]
  · rw [hact]

theorem SameTarget.trans {h₁ h₂ h₃ : Hid} (h : SameTarget h₁ h₂) (h' : SameTarget h₂ h₃) :
    SameTarget h₁ h₃ :=
  ⟨h'.targetX.trans h.targetX, h'.targetY.trans h.targetY, h'.width.trans h.width,
    h'.height.trans h.height, h'.queue.trans h.queue, h'.mounted.trans h.mounted⟩

theorem movementStep_sameTarget {h h' : Hid} (hstep : h.movementStep = some h') :
    SameTarget h h' := by
  unfold Hid.movementStep at hstep
  split at hstep
  · split at hstep
    · have hsame := (sendAbsMouseOnce_frame hstep).sameTarget
      exact ⟨hsame.targetX, hsame.targetY, hsame.width, hsame.height, hsame.queue, hsame.mounted⟩
    · cases hstep
      exact ⟨rfl, rfl, rfl, rfl, rfl, rfl⟩
  · cases hstep
    exact ⟨rfl, rfl, rfl, rfl, rfl, rfl⟩

/-- ENTER writes its position to the target. -/
theorem processCommand_enter_target {h h' : Hid} {x y mask : UInt16}
    (hp : h.processCommand (.enter x y mask) = some h') :
    SameTarget { h with act := { h.act with targetX := x, targetY := y } } h' := by
  obtain ⟨m, hm, hrest⟩ := Option.bind_eq_some_iff.mp hp
  have hfirst := (sendAbsMouseOnce_frame hm).sameTarget
  split at hrest
  · exact hfirst.trans (sendKbReport_frame hrest).sameTarget
  · cases hrest
    exact hfirst

/-- JIGGLE moves the target away and back. -/
theorem processCommand_jiggle_target {h h' : Hid} (hp : h.processCommand .jiggle = some h') :
    SameTarget h h' := by
  obtain ⟨m, hm, hrest⟩ := Option.bind_eq_some_iff.mp hp
  have hfirst := (sendAbsMouseOnce_frame hm).sameTarget
  have hlast := (sendAbsMouseOnce_frame hrest).sameTarget
  exact ⟨hlast.targetX, hlast.targetY, hlast.width.trans hfirst.width,
    hlast.height.trans hfirst.height, hlast.queue.trans hfirst.queue,
    hlast.mounted.trans hfirst.mounted⟩

/-! ## Runs in step with the packets -/

/-- A step that keeps the target in step with the packets: no move is handled while an ENTER
waits, and no full queue drops an ENTER. -/
def InStep (h : Hid) : PointerLabel → Prop
  | .dmmv _ _ => h.act.enters = []
  | .dmrm _ _ => h.act.enters = []
  | .cinn _ _ _ => h.act.cmdQueue.length < actImportantQueueDepth
  | .jiggle => h.act.cmdQueue.length < actImportantQueueDepth ∨ h.act.enters = []
  | .iteration => True

instance (h : Hid) : (label : PointerLabel) → Decidable (InStep h label)
  | .dmmv _ _ => inferInstanceAs (Decidable (_ = []))
  | .dmrm _ _ => inferInstanceAs (Decidable (_ = []))
  | .cinn _ _ _ => inferInstanceAs (Decidable (_ < _))
  | .jiggle => inferInstanceAs (Decidable (_ ∨ _))
  | .iteration => inferInstanceAs (Decidable True)

/-- The position is the target after the ENTERs that wait. -/
structure PointerInv (width height : UInt16) (h : Hid) (pos : Position) : Prop where
  mounted : h.mounted = true
  width : h.act.screenWidth = width
  height : h.act.screenHeight = height
  only : ∀ cmd ∈ h.act.cmdQueue, cmd = .jiggle ∨ ∃ x y mask, cmd = .enter x y mask
  position : pos = settled h.target h.act.enters

theorem notifyMovement_eq (act : TusbActuator) :
    ∃ pending, act.notifyMovement = { act with movementPending := pending } := by
  unfold TusbActuator.notifyMovement
  split
  · exact ⟨1, rfl⟩
  · exact ⟨act.movementPending, rfl⟩

/-- A move writes the target at once. -/
theorem pointerInv_move {width height : UInt16} {h : Hid} {pos : Position} {x y : UInt16}
    (hinv : PointerInv width height h pos) (hnone : h.act.enters = []) :
    PointerInv width height
      { h with act := TusbActuator.notifyMovement { h.act with targetX := x, targetY := y } }
      (x, y) := by
  obtain ⟨pending, heq⟩ := notifyMovement_eq { h.act with targetX := x, targetY := y }
  have hnone' : TusbActuator.enters { h.act with
      targetX := x, targetY := y, movementPending := pending } = [] := hnone
  rw [heq]
  refine ⟨hinv.mounted, hinv.width, hinv.height, hinv.only, ?_⟩
  rw [hnone']
  rfl

theorem enters_concat (act : TusbActuator) (cmd : ActCmd) :
    TusbActuator.enters { act with cmdQueue := act.cmdQueue ++ [cmd] } =
      act.enters ++ cmd.enterPosition.toList := by
  unfold TusbActuator.enters
  rw [List.filterMap_append, List.filterMap_cons, List.filterMap_nil]
  cases cmd.enterPosition <;> rfl

theorem q_of_room {act : TusbActuator} (cmd : ActCmd)
    (hroom : act.cmdQueue.length < actImportantQueueDepth) :
    (act.q cmd).2 = { act with cmdQueue := act.cmdQueue ++ [cmd] } := by
  unfold TusbActuator.q TusbActuator.xQueueSend
  rw [if_pos hroom]

theorem q_of_full {act : TusbActuator} (cmd : ActCmd)
    (hfull : ¬ act.cmdQueue.length < actImportantQueueDepth) :
    (act.q cmd).2 = { act with cmdQueue := [] } := by
  unfold TusbActuator.q TusbActuator.xQueueSend
  rw [if_neg hfull]
  rfl

/-- The invariant is about the target, the screen and the queue. -/
theorem PointerInv.of_sameTarget {width height : UInt16} {h h' : Hid} {pos : Position}
    (hinv : PointerInv width height h pos) (hsame : SameTarget h h') :
    PointerInv width height h' pos := by
  have htarget : h'.target = h.target := Prod.ext hsame.targetX hsame.targetY
  have henters : h'.act.enters = h.act.enters := by
    unfold TusbActuator.enters
    rw [hsame.queue]
  refine ⟨hsame.mounted.trans hinv.mounted, hsame.width.trans hinv.width,
    hsame.height.trans hinv.height, ?_, ?_⟩
  · rw [hsame.queue]
    exact hinv.only
  · rw [htarget, henters]
    exact hinv.position

/-- An iteration of the HID task carries out at most one of the ENTERs that wait. -/
theorem pointerInv_iteration {width height : UInt16} {h h' : Hid} {pos : Position}
    (hinv : PointerInv width height h pos) (hstep : h.iteration = some h') :
    PointerInv width height h' pos := by
  obtain ⟨m, hm, hcommand⟩ := Option.bind_eq_some_iff.mp hstep
  have hmoved := hinv.of_sameTarget (movementStep_sameTarget hm)
  cases hqueue : m.act.cmdQueue with
  | nil =>
      rw [commandStep_empty hqueue] at hcommand
      cases hcommand
      exact hmoved
  | cons cmd rest =>
      have hp := commandStep_spec hmoved.mounted hqueue hcommand
      have hrest : ∀ c ∈ rest, c = .jiggle ∨ ∃ x y mask, c = .enter x y mask := by
        intro c hc
        exact hmoved.only c (hqueue ▸ List.mem_cons_of_mem cmd hc)
      have hposition := hmoved.position
      rcases hmoved.only cmd (hqueue ▸ List.mem_cons_self) with rfl | ⟨x, y, mask, rfl⟩
      · have henters : m.act.enters = (m.receive .jiggle rest).act.enters := by
          unfold TusbActuator.enters
          rw [hqueue]
          rfl
        rw [henters] at hposition
        have hreceived : PointerInv width height (m.receive .jiggle rest) pos :=
          ⟨hmoved.mounted, hmoved.width, hmoved.height, hrest, hposition⟩
        exact hreceived.of_sameTarget (processCommand_jiggle_target hp)
      · have henters : m.act.enters = (x, y) :: (m.receive (.enter x y mask) rest).act.enters := by
          unfold TusbActuator.enters
          rw [hqueue]
          rfl
        rw [henters, settled_cons] at hposition
        refine PointerInv.of_sameTarget ?_ (processCommand_enter_target hp)
        exact ⟨hmoved.mounted, hmoved.width, hmoved.height, hrest, hposition⟩

/-- A command that enters the queue. -/
theorem PointerInv.queued {width height : UInt16} {h : Hid} {pos pos' : Position} {cmd : ActCmd}
    (hinv : PointerInv width height h pos)
    (hcmd : cmd = .jiggle ∨ ∃ x y mask, cmd = .enter x y mask)
    (hposition : pos' = settled h.target (h.act.enters ++ cmd.enterPosition.toList)) :
    PointerInv width height
      { h with act := { h.act with cmdQueue := h.act.cmdQueue ++ [cmd] } } pos' := by
  refine ⟨hinv.mounted, hinv.width, hinv.height, ?_, ?_⟩
  · intro c hc
    rcases List.mem_append.mp hc with hc | hc
    · exact hinv.only c hc
    · exact List.mem_singleton.mp hc ▸ hcmd
  · rw [enters_concat]
    exact hposition

/-- DMRM moves the target by the distance, as the packets do. -/
theorem pointerInv_dmrm {width height : UInt16} {h : Hid} {pos : Position} {dx dy : Int16}
    (hinv : PointerInv width height h pos) (hnone : h.act.enters = []) :
    PointerInv width height { h with act := actuatorMoveRelative h.act dx dy }
      (moveBy width height pos dx dy) := by
  have hposition : pos = h.target := by
    rw [hinv.position, hnone]
    rfl
  have hmoved := pointerInv_move (x := clampU16 (h.act.targetX.toNat + dx.toInt)
    (h.act.screenWidth - 1)) (y := clampU16 (h.act.targetY.toNat + dy.toInt)
    (h.act.screenHeight - 1)) hinv hnone
  have htarget : moveBy width height pos dx dy =
      (clampU16 (h.act.targetX.toNat + dx.toInt) (h.act.screenWidth - 1),
        clampU16 (h.act.targetY.toNat + dy.toInt) (h.act.screenHeight - 1)) := by
    rw [hposition, hinv.width, hinv.height]
    rfl
  rw [htarget]
  exact hmoved

/-- A jiggle changes the queue, but none of the ENTERs that wait in it. -/
theorem pointerInv_jiggle {width height : UInt16} {h : Hid} {pos : Position}
    (hinv : PointerInv width height h pos)
    (hgood : h.act.cmdQueue.length < actImportantQueueDepth ∨ h.act.enters = []) :
    PointerInv width height { h with act := (actuatorQueue h.act .jiggle 0).2 } pos := by
  by_cases hroom : h.act.cmdQueue.length < actImportantQueueDepth
  · have hact : (actuatorQueue h.act .jiggle 0).2 =
        { h.act with cmdQueue := h.act.cmdQueue ++ [.jiggle] } := q_of_room _ hroom
    rw [hact]
    refine hinv.queued (Or.inl rfl) ?_
    rw [show ActCmd.jiggle.enterPosition.toList = [] from rfl, List.append_nil]
    exact hinv.position
  · have hact : (actuatorQueue h.act .jiggle 0).2 = { h.act with cmdQueue := [] } :=
      q_of_full _ hroom
    have hnone : h.act.enters = [] := hgood.resolve_left hroom
    rw [hact]
    refine ⟨hinv.mounted, hinv.width, hinv.height, ?_, ?_⟩
    · intro cmd hcmd
      cases hcmd
    · refine hinv.position.trans ?_
      rw [hnone]
      rfl

/-- A step in step with the packets keeps the invariant. -/
theorem pointerStep_inv {width height : UInt16} {h h' : Hid} {pos : Position}
    {label : PointerLabel} (hinv : PointerInv width height h pos) (hgood : InStep h label)
    (hstep : pointerStep h label = some h') :
    PointerInv width height h' (applyPacket width height pos label) := by
  cases label with
  | dmmv x y =>
      cases hstep
      exact pointerInv_move hinv hgood
  | dmrm dx dy =>
      cases hstep
      exact pointerInv_dmrm hinv hgood
  | cinn x y mask =>
      cases hstep
      have hact : (actuatorQueue h.act (.enter x y mask) 0).2 =
          { h.act with cmdQueue := h.act.cmdQueue ++ [.enter x y mask] } := q_of_room _ hgood
      rw [hact]
      exact hinv.queued (Or.inr ⟨x, y, mask, rfl⟩) (settled_concat _ _ _).symm
  | jiggle =>
      cases hstep
      exact pointerInv_jiggle hinv hgood
  | iteration => exact pointerInv_iteration hinv hstep

theorem run_pointerInv {width height : UInt16} {labels : List PointerLabel} :
    ∀ {h h' : Hid} {pos : Position}, PointerInv width height h pos →
      AllSteps pointerStep InStep h labels → run pointerStep h labels = some h' →
      PointerInv width height h' (labels.foldl (applyPacket width height) pos) := by
  induction labels with
  | nil =>
      intro h h' pos hinv _ hrun
      cases hrun
      exact hinv
  | cons label labels ih =>
      intro h h' pos hinv hgood hrun
      obtain ⟨m, hm, hrest⟩ := run_cons_iff.mp hrun
      exact ih (pointerStep_inv hinv hgood.1 hm) (hgood.2 m hm) hrest

/-- In every run whose steps are all in step with the packets, the target is the position
after the packets whenever the queue is empty. -/
theorem target_eq_wirePosition {width height : UInt16} {layout : KeyboardLayout}
    {answers : List Bool} {labels : List PointerLabel} {h : Hid}
    (hgood : AllSteps pointerStep InStep (Hid.init width height layout true answers) labels)
    (hrun : run pointerStep (Hid.init width height layout true answers) labels = some h)
    (hempty : h.act.cmdQueue = []) : h.target = wirePosition width height labels := by
  have hinit : PointerInv width height (Hid.init width height layout true answers) (0, 0) := by
    refine ⟨rfl, rfl, rfl, ?_, rfl⟩
    intro cmd hcmd
    cases hcmd
  have hinv := run_pointerInv hinit hgood hrun
  have hnone : h.act.enters = [] := by
    unfold TusbActuator.enters
    rw [hempty]
    rfl
  have hposition := hinv.position
  rw [hnone] at hposition
  exact hposition.symm

/-- The pointer enters at (100, 100), and moves once the HID task has caught up. -/
def enterThenMoveLabels : List PointerLabel :=
  [.cinn 100 100 0, .iteration, .dmmv 200 200, .iteration]

theorem target_eq_wirePosition_enterThenMove :
    ∃ h, run pointerStep (Hid.init 1920 1080 .us true [true, true]) enterThenMoveLabels = some h ∧
      h.act.cmdQueue = [] ∧ h.target = wirePosition 1920 1080 enterThenMoveLabels ∧
      wirePosition 1920 1080 enterThenMoveLabels = (200, 200) := by
  have hend : (run pointerStep (Hid.init 1920 1080 .us true [true, true])
      enterThenMoveLabels).map (fun h => h.act.cmdQueue) = some [] := by decide
  obtain ⟨h, hrun, hempty⟩ := Option.map_eq_some_iff.mp hend
  have hgood : AllSteps pointerStep InStep (Hid.init 1920 1080 .us true [true, true])
      enterThenMoveLabels := by decide
  exact ⟨h, hrun, hempty, target_eq_wirePosition hgood hrun hempty, by decide⟩

/-- The pointer enters at (100, 100) and moves to (200, 200) before the HID task runs: it
ends where it entered. -/
theorem target_stale_after_enter :
    ∃ h, run pointerStep (Hid.init 1920 1080 .us true [true, true])
        [.cinn 100 100 0, .dmmv 200 200, .iteration, .iteration] = some h ∧
      h.act.cmdQueue = [] ∧ h.act.movementPending = 0 ∧ h.target = (100, 100) ∧
      wirePosition 1920 1080 [.cinn 100 100 0, .dmmv 200 200, .iteration, .iteration] =
        (200, 200) := by
  have hend : (run pointerStep (Hid.init 1920 1080 .us true [true, true])
      [.cinn 100 100 0, .dmmv 200 200, .iteration, .iteration]).map
        (fun h => (h.act.cmdQueue, h.act.movementPending, h.target)) =
      some ([], 0, (100, 100)) := by decide
  obtain ⟨h, hrun, hends⟩ := Option.map_eq_some_iff.mp hend
  simp only [Prod.mk.injEq] at hends
  obtain ⟨hqueue, hpending, htarget⟩ := hends
  exact ⟨h, hrun, hqueue, hpending, htarget, by decide⟩

end Esp32Deskflow.Tusb
