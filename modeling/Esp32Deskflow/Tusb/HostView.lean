/-
  Tusb/HostView.lean --- what the host sees of the keys and buttons.

  The host's view of a report id is the last report it accepted under that id.  The
  buttons it sees are always those of `last_sent_buttons`, so the view after a command
  that releases everything can be read off the state before it and the answers to come.
-/
import Esp32Deskflow.Tusb.TrackedKeys

set_option autoImplicit false

namespace Esp32Deskflow.Tusb

open Esp32Deskflow.Foundation.Transition

/-! ## The view of the host -/

/-- The keyboard report that the host holds after a call. -/
def seeKeyboard (view : List UInt8) : HidReport × Bool → List UInt8
  | (.keyboard report, true) => report
  | _ => view

/-- The mouse report that the host holds after a call. -/
def seeMouse (view : List UInt8) : HidReport × Bool → List UInt8
  | (.absMouse report, true) => report
  | _ => view

/-- The last keyboard report the host accepted, initially all zero. -/
def hostKeyboard (calls : List (HidReport × Bool)) : List UInt8 :=
  calls.foldl seeKeyboard (List.replicate 8 0)

/-- The last mouse report the host accepted, initially all zero. -/
def hostMouse (calls : List (HidReport × Bool)) : List UInt8 :=
  calls.foldl seeMouse (List.replicate 6 0)

/-- The button byte that the host sees. -/
def hostButtons (calls : List (HidReport × Bool)) : UInt8 := (hostMouse calls).headD 0

/-- The host sees no modifier, no key and no button. -/
def HostQuiet (h : Hid) : Prop :=
  (∀ b ∈ hostKeyboard h.calls, b = 0) ∧ hostButtons h.calls = 0

/-- Rejected reports change nothing on the host. -/
theorem seeMouse_rejected (report : HidReport) (n : Nat) (view : List UInt8) :
    (List.replicate n (report, false)).foldl seeMouse view = view := by
  induction n with
  | zero => rfl
  | succ n ih =>
      rw [List.replicate_succ, List.foldl_cons]
      cases report <;> exact ih

theorem hostKeyboard_retried (calls : List (HidReport × Bool)) (report : List UInt8) (n : Nat) :
    hostKeyboard (calls ++ retriedCalls (.keyboard report) n) = report := by
  unfold hostKeyboard retriedCalls
  rw [List.foldl_append, List.foldl_append]
  rfl

theorem hostMouse_keyboard (calls : List (HidReport × Bool)) (report : List UInt8) (n : Nat) :
    hostMouse (calls ++ retriedCalls (.keyboard report) n) = hostMouse calls := by
  unfold hostMouse retriedCalls
  rw [List.foldl_append, List.foldl_append, seeMouse_rejected]
  rfl

theorem hostMouse_retried (calls : List (HidReport × Bool)) (report : List UInt8) (n : Nat) :
    hostMouse (calls ++ retriedCalls (.absMouse report) n) = report := by
  unfold hostMouse retriedCalls
  rw [List.foldl_append, List.foldl_append]
  rfl

theorem hostKeyboard_mouse (calls : List (HidReport × Bool)) (act : TusbActuator) (answer : Bool) :
    hostKeyboard (calls ++ [(act.absMouseReport, answer)]) = hostKeyboard calls := by
  unfold hostKeyboard
  rw [List.foldl_append]
  cases answer <;> rfl

/-- A mouse report shows the buttons of the state it was built from. -/
theorem hostButtons_tried (calls : List (HidReport × Bool)) (act : TusbActuator) (answer : Bool) :
    hostButtons (calls ++ [(act.absMouseReport, answer)]) =
      if answer then act.mouseButtons else hostButtons calls := by
  unfold hostButtons hostMouse
  rw [List.foldl_append]
  cases answer <;> rfl

/-! ## The buttons of the host -/

/-- `last_sent_buttons` is what the host sees. -/
def ButtonsInv (h : Hid) : Prop := hostButtons h.calls = h.act.lastSentButtons

theorem sendKbReport_buttons {h h' : Hid} {report : List UInt8} (hinv : ButtonsInv h)
    (hsend : h.sendKbReport report = some h') : ButtonsInv h' := by
  obtain ⟨n, rest, -, rfl⟩ := sendKbReport_spec hsend
  unfold ButtonsInv hostButtons
  rw [hostMouse_keyboard]
  exact hinv

theorem tryMouse_buttons {h h' : Hid} (hinv : ButtonsInv h) (hsend : h.tryMouse = some h') :
    ButtonsInv h' := by
  obtain ⟨answer, rest, -, rfl⟩ := tryMouse_spec hsend
  unfold ButtonsInv
  rw [hostButtons_tried]
  cases answer with
  | true => rfl
  | false => exact hinv

theorem sendAbsMouseOnce_buttons {h h' : Hid} (hinv : ButtonsInv h)
    (hsend : h.sendAbsMouseOnce = some h') : ButtonsInv h' := by
  rcases sendAbsMouseOnce_spec hsend with ⟨rfl, -⟩ | htry
  · exact hinv
  · exact tryMouse_buttons hinv htry

theorem sendAbsMouseRetry_buttons {h h' : Hid} (hinv : ButtonsInv h)
    (hsend : h.sendAbsMouseRetry = some h') : ButtonsInv h' := by
  rcases sendAbsMouseRetry_spec hsend with ⟨n, rest, -, rfl⟩ | htry
  · unfold ButtonsInv hostButtons TusbActuator.absMouseReport
    rw [hostMouse_retried]
    rfl
  · exact tryMouse_buttons hinv htry

theorem processCommand_buttons {h h' : Hid} {cmd : ActCmd} (hinv : ButtonsInv h)
    (hp : h.processCommand cmd = some h') : ButtonsInv h' := by
  refine (processCommand_sends hp).keeps ?_ ?_ ?_ hinv
  · exact fun m act hm hedit => hm.trans hedit.lastButtons.symm
  · exact fun m m' report hm hsend => sendKbReport_buttons hm hsend
  · rintro m m' hm (hsend | hsend)
    · exact sendAbsMouseOnce_buttons hm hsend
    · exact sendAbsMouseRetry_buttons hm hsend

theorem hidStep_buttons (h : Hid) (label : HidLabel) (h' : Hid) (hinv : ButtonsInv h)
    (hstep : hidStep h label = some h') : ButtonsInv h' := by
  rcases hidStep_cases hstep with ⟨cmd, rest, -, -, -, hp⟩ | ⟨-, -, hsend⟩ | hsame
  · exact processCommand_buttons (by exact hinv) hp
  · exact sendAbsMouseOnce_buttons (by exact hinv) hsend
  · unfold ButtonsInv
    rw [hsame.calls, hsame.lastButtons]
    exact hinv

/-! ## The releasing commands -/

/-- The answers left after the first acceptance. -/
def afterAcceptance : List Bool → List Bool
  | [] => []
  | true :: answers => answers
  | false :: answers => afterAcceptance answers

theorem afterAcceptance_retried (n : Nat) (rest : List Bool) :
    afterAcceptance (List.replicate n false ++ true :: rest) = rest := by
  induction n with
  | zero => rfl
  | succ n ih => exact ih

/-- The one mouse report of a release: a button that the host still sees is released if the
report is accepted. -/
theorem sendAbsMouseOnce_quiet_iff {h h' : Hid} (hinv : ButtonsInv h)
    (hkeys : ∀ b ∈ hostKeyboard h.calls, b = 0) (hreleased : h.act.mouseButtons = 0)
    (hsend : h.sendAbsMouseOnce = some h') :
    HostQuiet h' ↔ h.act.lastSentButtons = 0 ∨ h.answers.head? = some true := by
  rcases sendAbsMouseOnce_spec hsend with ⟨rfl, hsame⟩ | htry
  · have hzero : h'.act.lastSentButtons = 0 := hsame.symm.trans hreleased
    exact iff_of_true ⟨hkeys, hinv.trans hzero⟩ (Or.inl hzero)
  · obtain ⟨answer, rest, hanswers, rfl⟩ := tryMouse_spec htry
    have hlast : hostButtons h.calls = h.act.lastSentButtons := hinv
    unfold HostQuiet
    rw [hanswers, List.head?_cons, hostKeyboard_mouse, hostButtons_tried, hreleased, hlast]
    cases answer with
    | true => exact iff_of_true ⟨hkeys, rfl⟩ (Or.inr rfl)
    | false =>
        constructor
        · rintro ⟨-, hzero⟩
          exact Or.inl hzero
        · rintro (hzero | htrue)
          · exact ⟨hkeys, hzero⟩
          · cases htrue

/-- LEAVE waits for an empty keyboard report to be accepted and then tries the mouse report
once. -/
theorem leave_quiet_iff {h h' : Hid} (hinv : ButtonsInv h)
    (hp : h.processCommand .leave = some h') :
    HostQuiet h' ↔
      h.act.lastSentButtons = 0 ∨ (afterAcceptance h.answers).head? = some true := by
  obtain ⟨m, hm, hrest⟩ := Option.bind_eq_some_iff.mp hp
  have hinv' : ButtonsInv m := sendKbReport_buttons (by exact hinv) hm
  obtain ⟨n, rest, hanswers, rfl⟩ := sendKbReport_spec hm
  have hanswers' : h.answers = List.replicate n false ++ true :: rest := hanswers
  have hkeys : ∀ b ∈ hostKeyboard (h.calls ++ retriedCalls
      (.keyboard [0, 0, 0, 0, 0, 0, 0, 0]) n), b = 0 := by
    rw [hostKeyboard_retried]
    intro b hb
    exact List.eq_of_mem_replicate (n := 8) hb
  rw [hanswers', afterAcceptance_retried]
  have hquiet := sendAbsMouseOnce_quiet_iff (by exact hinv') hkeys rfl hrest
  exact hquiet

/-- DISCONNECTED sends nothing: the host sees what it saw before. -/
theorem disconnected_quiet_iff {h h' : Hid} (hinv : ButtonsInv h)
    (hp : h.processCommand .disconnected = some h') :
    HostQuiet h' ↔ h.act.lastSentButtons = 0 ∧ ∀ b ∈ hostKeyboard h.calls, b = 0 := by
  cases hp
  have hlast : hostButtons h.calls = h.act.lastSentButtons := hinv
  unfold HostQuiet
  rw [hlast]
  exact and_comm

/-- In every state that the HID task reaches with the device mounted: a LEAVE leaves the host
without input exactly if the host saw no button or accepts the one mouse report, and a
DISCONNECTED exactly if the host saw no input before. -/
theorem host_quiet_run_iff {screenWidth screenHeight : UInt16} {layout : KeyboardLayout}
    {answers : List Bool} {labels : List HidLabel} {h h' : Hid} {cmd : ActCmd}
    {rest : List ActCmd}
    (hrun : run hidStep (Hid.init screenWidth screenHeight layout true answers) labels = some h)
    (hqueue : h.act.cmdQueue = cmd :: rest) (hstep : hidStep h .command = some h') :
    (cmd = .leave → (HostQuiet h' ↔
      h.act.lastSentButtons = 0 ∨ (afterAcceptance h.answers).head? = some true)) ∧
    (cmd = .disconnected → (HostQuiet h' ↔
      h.act.lastSentButtons = 0 ∧ ∀ b ∈ hostKeyboard h.calls, b = 0)) := by
  have hinit : ButtonsInv (Hid.init screenWidth screenHeight layout true answers) := rfl
  have hbuttons : ButtonsInv h := run_invariant hidStep_buttons hinit hrun
  have hmounted : h.mounted = true :=
    (run_invariant hidStep_keyInv (keyInv_init screenWidth screenHeight layout answers)
      hrun).mounted
  have hp := commandStep_spec hmounted hqueue hstep
  have hreceived : ButtonsInv (h.receive cmd rest) := hbuttons
  constructor
  · rintro rfl
    have hquiet := leave_quiet_iff hreceived hp
    exact hquiet
  · rintro rfl
    have hquiet := disconnected_quiet_iff hreceived hp
    exact hquiet

/-- A left click is released by a LEAVE whose mouse report is accepted. -/
theorem host_quiet_run_iff_click :
    ∃ h h', run hidStep (Hid.init 1920 1080 .us true [true, true, true])
        [.xQueueSend (.mouseDown 1), .command, .xQueueSend .leave] = some h ∧
      hidStep h .command = some h' ∧
      ((ActCmd.leave = .leave → (HostQuiet h' ↔
        h.act.lastSentButtons = 0 ∨ (afterAcceptance h.answers).head? = some true)) ∧
      (ActCmd.leave = .disconnected → (HostQuiet h' ↔
        h.act.lastSentButtons = 0 ∧ ∀ b ∈ hostKeyboard h.calls, b = 0))) := by
  have hlast : (run hidStep (Hid.init 1920 1080 .us true [true, true, true])
      [.xQueueSend (.mouseDown 1), .command, .xQueueSend .leave]).map
        (fun h => (h.act.cmdQueue, (hidStep h .command).isSome)) = some ([.leave], true) := by
    decide
  obtain ⟨h, hrun, hpair⟩ := Option.map_eq_some_iff.mp hlast
  obtain ⟨hqueue, hsome⟩ := Prod.mk.inj hpair
  obtain ⟨h', hstep⟩ := Option.isSome_iff_exists.mp hsome
  exact ⟨h, h', hrun, hstep, host_quiet_run_iff hrun hqueue hstep⟩

/-- The views of the host after one command: a key stays pressed through a DISCONNECTED, and
a button through a LEAVE whose mouse report is rejected. -/
theorem host_not_quiet :
    (∃ h h', run hidStep (Hid.init 1920 1080 .us true [true])
        [.xQueueSend (.keyDown 0x61 0 0), .command, .xQueueSend .disconnected] = some h ∧
      h.act.cmdQueue = [.disconnected] ∧ hidStep h .command = some h' ∧
      hostKeyboard h'.calls = [0, 0, 4, 0, 0, 0, 0, 0] ∧ ¬ HostQuiet h') ∧
    (∃ h h', run hidStep (Hid.init 1920 1080 .us true [true, true, false])
        [.xQueueSend (.mouseDown 1), .command, .xQueueSend .leave] = some h ∧
      h.act.cmdQueue = [.leave] ∧ hidStep h .command = some h' ∧
      hostButtons h'.calls = 1 ∧ ¬ HostQuiet h') := by
  constructor
  · have hlast : (run hidStep (Hid.init 1920 1080 .us true [true])
        [.xQueueSend (.keyDown 0x61 0 0), .command, .xQueueSend .disconnected]).bind
          (fun h => (hidStep h .command).map fun h' =>
            (h.act.cmdQueue, hostKeyboard h'.calls)) =
        some ([.disconnected], [0, 0, 4, 0, 0, 0, 0, 0]) := by
      decide
    obtain ⟨h, hrun, hstep⟩ := Option.bind_eq_some_iff.mp hlast
    obtain ⟨h', hstep, hpair⟩ := Option.map_eq_some_iff.mp hstep
    obtain ⟨hqueue, hview⟩ := Prod.mk.inj hpair
    refine ⟨h, h', hrun, hqueue, hstep, hview, ?_⟩
    rintro ⟨hkeys, -⟩
    rw [hview] at hkeys
    exact absurd (hkeys 4 (by decide)) (by decide)
  · have hlast : (run hidStep (Hid.init 1920 1080 .us true [true, true, false])
        [.xQueueSend (.mouseDown 1), .command, .xQueueSend .leave]).bind
          (fun h => (hidStep h .command).map fun h' =>
            (h.act.cmdQueue, hostButtons h'.calls)) = some ([.leave], 1) := by
      decide
    obtain ⟨h, hrun, hstep⟩ := Option.bind_eq_some_iff.mp hlast
    obtain ⟨h', hstep, hpair⟩ := Option.map_eq_some_iff.mp hstep
    obtain ⟨hqueue, hview⟩ := Prod.mk.inj hpair
    refine ⟨h, h', hrun, hqueue, hstep, hview, ?_⟩
    rintro ⟨-, hbuttons⟩
    rw [hview] at hbuttons
    exact absurd hbuttons (by decide)

end Esp32Deskflow.Tusb
