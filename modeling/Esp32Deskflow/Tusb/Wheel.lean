/-
  Tusb/Wheel.lean --- the scroll amounts between the queue and the host.

  An amount waits in `mouse_wheel` until a mouse report is accepted, and any of the
  functions that send one takes it along.  The sum of what was accepted and what waits is
  kept by every report.  It is changed by the commands that write `mouse_wheel`, and it
  stays right exactly if they find nothing there to overwrite.
-/
import Esp32Deskflow.Tusb.LastReport
import Mathlib.Algebra.Ring.Int.Defs

set_option autoImplicit false

namespace Esp32Deskflow.Tusb

open Esp32Deskflow.Foundation.Transition

/-! ## Amounts -/

/-- What a command asks the host to scroll, clamped to three lines. -/
def ActCmd.scroll : ActCmd → Int
  | .mouseWheel _ dy => max (-3) (min 3 dy.toInt)
  | _ => 0

/-- What a sequence of commands asks the host to scroll. -/
def asked (cmds : List ActCmd) : Int := (cmds.map ActCmd.scroll).sum

/-- What the host has scrolled by the reports that it accepted. -/
def scrolled (calls : List (HidReport × Bool)) : Int :=
  ((acceptedMouse calls).map fun fields => fields.wheel.toInt).sum

/-- What the host has scrolled, and what waits. -/
def Hid.total (h : Hid) : Int := scrolled h.calls + h.act.mouseWheel.toInt

/-- The host has scrolled, or will scroll, what the processed commands have asked for. -/
def Conserved (h : Hid) : Prop := h.total = asked h.processed

theorem asked_concat (cmds : List ActCmd) (cmd : ActCmd) :
    asked (cmds ++ [cmd]) = asked cmds + cmd.scroll := by
  unfold asked
  rw [List.map_append, List.sum_append, List.map_singleton, List.sum_singleton]

theorem dampenWheel_toInt (dy : Int16) : (dampenWheel dy).toInt = max (-3) (min 3 dy.toInt) := by
  have h3 : (3 : Int16).toInt = 3 := rfl
  have h3' : (-3 : Int16).toInt = -3 := rfl
  unfold dampenWheel
  split
  · next hhigh =>
      rw [gt_iff_lt, Int16.lt_iff_toInt_lt] at hhigh
      have hthree : (3 : Int8).toInt = 3 := rfl
      omega
  · next hhigh =>
      rw [gt_iff_lt, Int16.lt_iff_toInt_lt] at hhigh
      split
      · next hlow =>
          rw [Int16.lt_iff_toInt_lt] at hlow
          have hthree : (-3 : Int8).toInt = -3 := rfl
          omega
      · next hlow =>
          rw [Int16.lt_iff_toInt_lt] at hlow
          rw [Int16.toInt_toInt8, Int.bmod_eq_of_le (by omega) (by omega)]
          omega

/-! ## Reports keep the total -/

theorem sendKbReport_scrolled {h h' : Hid} {report : List UInt8}
    (hsend : h.sendKbReport report = some h') :
    h'.act = h.act ∧ scrolled h'.calls = scrolled h.calls := by
  obtain ⟨hact, haccepted⟩ := sendKbReport_accepted hsend
  refine ⟨hact, ?_⟩
  unfold scrolled
  rw [haccepted]

/-- An accepted report turns what waits into what was scrolled. -/
theorem sendMouse_total {h h' : Hid}
    (hsend : h.sendAbsMouseOnce = some h' ∨ h.sendAbsMouseRetry = some h') :
    h'.total = h.total := by
  unfold Hid.total scrolled
  rcases sendMouse_accepted hsend with ⟨hact, haccepted⟩ | ⟨hact, haccepted⟩
  · rw [hact, haccepted]
  · have hzero : h.act.mouseSent.mouseWheel.toInt = 0 := rfl
    have hwheel : h.act.mouseFields.wheel = h.act.mouseWheel := rfl
    rw [hact, haccepted, List.map_append, List.sum_append, List.map_singleton, List.sum_singleton,
      hzero, hwheel, Int.add_zero]

/-- What a command does to the total: its own amount takes the place of the one that waits, if it
writes `mouse_wheel`. -/
theorem processCommand_total {h h' : Hid} {cmd : ActCmd} (hp : h.processCommand cmd = some h') :
    h'.total = (if cmd.setsWheel then scrolled h.calls else h.total) + cmd.scroll := by
  cases hset : cmd.setsWheel with
  | false =>
      have hnone : cmd.scroll = 0 := by
        cases cmd <;> first | rfl | cases hset
      have hkept : h'.total = h.total := by
        apply (processCommand_sends hp).keeps (P := fun s => s.total = h.total)
        · intro s act hsame hedit
          have hwheel : act.mouseWheel = s.act.mouseWheel := hedit.wheel hset
          rw [← hsame, Hid.total, Hid.total, hwheel]
        · intro s s' report hsame hsend
          obtain ⟨hact, hscrolled⟩ := sendKbReport_scrolled hsend
          rw [← hsame, Hid.total, Hid.total, hact, hscrolled]
        · exact fun s s' hsame hsend => (sendMouse_total hsend).trans hsame
        · rfl
      rw [hkept, hnone, if_neg Bool.false_ne_true, Int.add_zero]
  | true =>
      rw [if_pos rfl]
      cases cmd with
      | mouseWheel dx dy =>
          rw [sendMouse_total (Or.inr hp), ActCmd.scroll, ← dampenWheel_toInt]
          rfl
      | leave =>
          obtain ⟨m, hm, hrest⟩ := Option.bind_eq_some_iff.mp hp
          obtain ⟨_, hscrolled⟩ := sendKbReport_scrolled hm
          rw [sendMouse_total (Or.inl hrest), Hid.total]
          exact congrArg (· + 0) hscrolled
      | disconnected =>
          cases hp
          rfl
      | _ => cases hset

/-! ## Runs -/

/-- The command at the head of the queue, if a step processes it and it writes `mouse_wheel`, finds
no amount there that waits. -/
def OverwritesNothing (h : Hid) (label : HidLabel) : Prop :=
  label = .command → ∀ cmd ∈ h.act.cmdQueue.head?, cmd.setsWheel = true → h.act.mouseWheel = 0

/-- A command from a state in which nothing is lost loses nothing exactly if it finds `mouse_wheel`
0 or leaves it alone. -/
theorem processCommand_conserved_iff {h h' : Hid} {cmd : ActCmd} {rest : List ActCmd}
    (hconserved : Conserved h) (hp : (h.receive cmd rest).processCommand cmd = some h') :
    Conserved h' ↔ (cmd.setsWheel = true → h.act.mouseWheel = 0) := by
  have htotal := processCommand_total hp
  have hprocessed : h'.processed = h.processed ++ [cmd] := (processCommand_sameKeys hp).processed
  have hscrolled : scrolled (h.receive cmd rest).calls = scrolled h.calls := rfl
  have hreceived : (h.receive cmd rest).total = h.total := rfl
  have hbefore : scrolled h.calls + h.act.mouseWheel.toInt = asked h.processed := hconserved
  have hzero : h.act.mouseWheel = 0 ↔ h.act.mouseWheel.toInt = 0 := Int8.toInt_inj.symm
  unfold Conserved
  rw [htotal, hprocessed, asked_concat, hscrolled, hreceived, hconserved]
  cases hset : cmd.setsWheel with
  | false => exact iff_of_true rfl nofun
  | true =>
      rw [if_pos rfl, hzero]
      constructor
      · intro heq _
        omega
      · intro hnone
        have hnone := hnone rfl
        omega

theorem hidStep_conserved_iff {h h' : Hid} {label : HidLabel} (hconserved : Conserved h)
    (hmounted : h.mounted = true) (hstep : hidStep h label = some h') :
    Conserved h' ↔ OverwritesNothing h label := by
  by_cases hlabel : label = .command
  · subst hlabel
    cases hqueue : h.act.cmdQueue with
    | nil =>
        have hsleep := (commandStep_empty hqueue).symm.trans hstep
        cases hsleep
        refine iff_of_true hconserved fun _ cmd hcmd => ?_
        rw [hqueue] at hcmd
        cases hcmd
    | cons cmd rest =>
        rw [processCommand_conserved_iff hconserved (commandStep_spec hmounted hqueue hstep)]
        unfold OverwritesNothing
        rw [hqueue]
        simp
  · refine iff_of_true ?_ fun heq => absurd heq hlabel
    rcases hidStep_spec hstep with ⟨_, _, hcommand, _⟩ | ⟨_, _, hsend⟩ |
        ⟨x, y, pending, queue, layout, rfl, _⟩
    · exact absurd hcommand hlabel
    · unfold Conserved
      rw [sendMouse_total (Or.inl hsend), (sendAbsMouseOnce_frame hsend).processed]
      exact hconserved
    · exact hconserved

theorem hidStep_mounted {h h' : Hid} {label : HidLabel} (hstep : hidStep h label = some h') :
    h'.mounted = h.mounted := by
  rcases hidStep_keys hstep with hsame | ⟨cmd, queue, hsame⟩
  · exact hsame.mounted
  · exact hsame.mounted

/-- In every run with the device mounted: no scroll amount is lost at any point between the steps
exactly if every command that writes `mouse_wheel` finds it 0. -/
theorem conserved_run_iff {screenWidth screenHeight : UInt16} {layout : KeyboardLayout}
    {answers : List Bool} {labels : List HidLabel} {h : Hid}
    (hrun : run hidStep (Hid.init screenWidth screenHeight layout true answers) labels = some h) :
    AllStates hidStep Conserved (Hid.init screenWidth screenHeight layout true answers) labels ↔
      AllSteps hidStep OverwritesNothing (Hid.init screenWidth screenHeight layout true answers)
        labels := by
  have hmounted : ∀ (s : Hid) (label : HidLabel) (t : Hid), s.mounted = true →
      hidStep s label = some t → t.mounted = true :=
    fun _ _ _ hs hstep => (hidStep_mounted hstep).trans hs
  have hiff : ∀ (s : Hid) (label : HidLabel) (t : Hid), s.mounted = true → Conserved s →
      hidStep s label = some t → (Conserved t ↔ OverwritesNothing s label) :=
    fun _ _ _ hs hconserved hstep => hidStep_conserved_iff hconserved hs hstep
  exact run_allStates_iff hmounted hiff rfl rfl hrun

/-- One line up is rejected, and goes with the next click. -/
def scrollClickLabels : List HidLabel :=
  [.xQueueSend (.mouseWheel 0 120), .command, .xQueueSend (.mouseDown 1), .command]

theorem conserved_run_iff_scrollClick :
    ∃ h, run hidStep (Hid.init 1920 1080 .us true [false, true]) scrollClickLabels = some h ∧
      scrolled h.calls = 3 ∧
      (AllStates hidStep Conserved (Hid.init 1920 1080 .us true [false, true]) scrollClickLabels ↔
        AllSteps hidStep OverwritesNothing (Hid.init 1920 1080 .us true [false, true])
          scrollClickLabels) := by
  have hview : (run hidStep (Hid.init 1920 1080 .us true [false, true]) scrollClickLabels).map
      (fun h => scrolled h.calls) = some 3 := by decide +kernel
  obtain ⟨h, hrun, hscrolled⟩ := Option.map_eq_some_iff.mp hview
  exact ⟨h, hrun, hscrolled, conserved_run_iff hrun⟩

/-- Two scroll commands, the first report rejected: one line is lost. -/
theorem not_conserved_twoScrolls :
    ∃ h, run hidStep (Hid.init 1920 1080 .us true [false, true])
        [.xQueueSend (.mouseWheel 0 1), .command, .xQueueSend (.mouseWheel 0 1), .command] =
          some h ∧
      h.processed = [.mouseWheel 0 1, .mouseWheel 0 1] ∧ asked h.processed = 2 ∧
      scrolled h.calls = 1 ∧ h.act.mouseWheel = 0 ∧ ¬ Conserved h := by
  have hview : (run hidStep (Hid.init 1920 1080 .us true [false, true])
      [.xQueueSend (.mouseWheel 0 1), .command, .xQueueSend (.mouseWheel 0 1), .command]).map
        (fun h => (h.processed, scrolled h.calls, h.act.mouseWheel)) =
      some ([.mouseWheel 0 1, .mouseWheel 0 1], 1, 0) := by decide +kernel
  obtain ⟨h, hrun, hends⟩ := Option.map_eq_some_iff.mp hview
  simp only [Prod.mk.injEq] at hends
  obtain ⟨hprocessed, hscrolled, hwheel⟩ := hends
  have hasked : asked h.processed = 2 := by
    rw [hprocessed]
    rfl
  refine ⟨h, hrun, hprocessed, hasked, hscrolled, hwheel, ?_⟩
  unfold Conserved Hid.total
  rw [hasked, hscrolled, hwheel]
  decide

end Esp32Deskflow.Tusb
