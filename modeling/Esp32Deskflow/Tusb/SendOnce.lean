/-
  Tusb/SendOnce.lean --- `send_abs_mouse_once`: when it sends nothing, and what becomes of
  a jiggle.

  The function returns without a call if position and buttons are those of the last
  report and no wheel is pending.  The memory of the last report starts with zeros, which
  stand for a report only once one has been accepted.

  A jiggle calls it twice, and nothing is sent again when the second report is rejected.
-/
import Esp32Deskflow.Tusb.LastReport

set_option autoImplicit false

namespace Esp32Deskflow.Tusb

open Esp32Deskflow.Foundation.Transition

/-! ## Calls of `send_abs_mouse_once` -/

/-- The states in which a command calls `send_abs_mouse_once`, in order. -/
def Hid.onceInCommand (h : Hid) : ActCmd → List Hid
  | .enter x y _ => [{ h with act := { h.act with targetX := x, targetY := y } }]
  | .leave =>
      let released := { h with act := h.act.clearKeys }.sendKbReport [0, 0, 0, 0, 0, 0, 0, 0]
      released.toList.map fun m =>
        { m with act := { m.act with mouseButtons := 0, mouseWheel := 0 } }
  | .jiggle =>
      let away := { h with act := { h.act with targetX := jiggleX h.act } }
      away :: away.sendAbsMouseOnce.toList.map fun m =>
        { m with act := { m.act with targetX := h.act.targetX, targetY := h.act.targetY } }
  | _ => []

/-- The states in which a step calls `send_abs_mouse_once`, in order. -/
def Hid.onceStates (h : Hid) : HidLabel → List Hid
  | .movement =>
      if h.act.movementPending = 1 ∧ h.mounted = true then
        [{ h with act := { h.act with movementPending := 0 } }]
      else []
  | .command =>
      match h.act.cmdQueue with
      | cmd :: rest => if h.mounted then (h.receive cmd rest).onceInCommand cmd else []
      | [] => []
  | _ => []

/-- `send_abs_mouse_once` returns without calling `tud_hid_report`. -/
def Hid.Silent (h : Hid) : Prop := ∃ h', h.sendAbsMouseOnce = some h' ∧ h'.calls = h.calls

/-- The last report that the host accepted has this position. -/
def Hid.LastShows (h : Hid) (x y : UInt16) : Prop :=
  ∃ fields, (acceptedMouse h.calls).getLast? = some fields ∧ fields.x = x ∧ fields.y = y

instance (h : Hid) (x y : UInt16) : Decidable (h.LastShows x y) :=
  inferInstanceAs (Decidable (∃ fields ∈ (acceptedMouse h.calls).getLast?,
    fields.x = x ∧ fields.y = y))

/-- The host has accepted a report, the last one has the position and the buttons of now, and no
wheel is pending. -/
def Hid.HostHas (h : Hid) : Prop :=
  (∃ fields, (acceptedMouse h.calls).getLast? = some fields ∧
    fields.x = toHid h.act.screenWidth h.act.targetX ∧
    fields.y = toHid h.act.screenHeight h.act.targetY ∧ fields.buttons = h.act.mouseButtons) ∧
  h.act.mouseWheel = 0

/-- Position, buttons and wheel are all zero. -/
def TusbActuator.AllZero (act : TusbActuator) : Prop :=
  toHid act.screenWidth act.targetX = 0 ∧ toHid act.screenHeight act.targetY = 0 ∧
    act.mouseButtons = 0 ∧ act.mouseWheel = 0

instance (act : TusbActuator) : Decidable act.AllZero :=
  inferInstanceAs (Decidable (_ ∧ _ ∧ _ ∧ _))

theorem tryMouse_speaks {h h' : Hid} (hsend : h.tryMouse = some h') : h'.calls ≠ h.calls := by
  obtain ⟨answer, rest, _, rfl⟩ := tryMouse_spec hsend
  exact fun hsame => List.cons_ne_nil _ _ (List.append_right_eq_self.mp hsame)

/-- Nothing is sent exactly if position and buttons are remembered and no wheel is pending. -/
theorem silent_iff {h : Hid} :
    h.Silent ↔ toHid h.act.screenWidth h.act.targetX = h.act.lastSentHx ∧
      toHid h.act.screenHeight h.act.targetY = h.act.lastSentHy ∧
      h.act.mouseButtons = h.act.lastSentButtons ∧ h.act.mouseWheel = 0 := by
  unfold Hid.Silent Hid.sendAbsMouseOnce
  split
  · next hsame => exact iff_of_true ⟨h, rfl, rfl⟩ hsame
  · next hdiffer =>
      refine iff_of_false ?_ hdiffer
      rintro ⟨h', hsend, hcalls⟩
      exact tryMouse_speaks hsend hcalls

/-! ## Suppressed reports -/

/-- The invariant holds wherever a command calls `send_abs_mouse_once`. -/
theorem LastSentInv.onceInCommand {h s : Hid} {cmd : ActCmd} (hinv : LastSentInv h)
    (hs : s ∈ h.onceInCommand cmd) : LastSentInv s := by
  cases cmd with
  | enter x y mask =>
      rw [List.mem_singleton.mp hs]
      exact ⟨hinv.x, hinv.y, hinv.buttons⟩
  | leave =>
      obtain ⟨m, hm, rfl⟩ := List.mem_map.mp hs
      have hcleared : LastSentInv { h with act := h.act.clearKeys } :=
        ⟨hinv.x, hinv.y, hinv.buttons⟩
      have hm' := hcleared.keyboard (Option.mem_toList.mp hm)
      exact ⟨hm'.x, hm'.y, hm'.buttons⟩
  | jiggle =>
      have haway : LastSentInv { h with act := { h.act with targetX := jiggleX h.act } } :=
        ⟨hinv.x, hinv.y, hinv.buttons⟩
      rcases List.mem_cons.mp hs with rfl | hs
      · exact haway
      · obtain ⟨m, hm, rfl⟩ := List.mem_map.mp hs
        have hm' := haway.mouse (Or.inl (Option.mem_toList.mp hm))
        exact ⟨hm'.x, hm'.y, hm'.buttons⟩
  | _ => cases hs

theorem LastSentInv.onceStates {h s : Hid} {label : HidLabel} (hinv : LastSentInv h)
    (hs : s ∈ h.onceStates label) : LastSentInv s := by
  cases label with
  | movement =>
      simp only [Hid.onceStates] at hs
      split at hs
      · rw [List.mem_singleton.mp hs]
        exact ⟨hinv.x, hinv.y, hinv.buttons⟩
      · cases hs
  | command =>
      simp only [Hid.onceStates] at hs
      split at hs
      · next cmd rest _ =>
          split at hs
          · have hreceived : LastSentInv (h.receive cmd rest) := ⟨hinv.x, hinv.y, hinv.buttons⟩
            exact hreceived.onceInCommand hs
          · cases hs
      · cases hs
  | _ => cases hs

/-- What is remembered before the first accepted report is zero. -/
theorem LastSentInv.zero {h : Hid} (hinv : LastSentInv h) (hnone : acceptedMouse h.calls = []) :
    h.act.lastSentHx = 0 ∧ h.act.lastSentHy = 0 ∧ h.act.lastSentButtons = 0 := by
  have hlast : lastMouse h.calls = ⟨0, 0, 0, 0⟩ := by
    unfold lastMouse
    rw [hnone]
    rfl
  refine ⟨?_, ?_, ?_⟩
  · rw [hinv.x, hlast]
  · rw [hinv.y, hlast]
  · rw [hinv.buttons, hlast]

/-- A suppressed report is known to the host exactly if it is not the report of zeros before the
first one. -/
theorem silent_hostHas_iff {h : Hid} (hinv : LastSentInv h) :
    (h.Silent → h.HostHas) ↔ (acceptedMouse h.calls = [] → ¬ h.act.AllZero) := by
  constructor
  · intro hknown hnone hzero
    obtain ⟨hx, hy, hbuttons⟩ := hinv.zero hnone
    obtain ⟨hx0, hy0, hbuttons0, hwheel⟩ := hzero
    have hsilent : h.Silent := silent_iff.mpr
      ⟨hx0.trans hx.symm, hy0.trans hy.symm, hbuttons0.trans hbuttons.symm, hwheel⟩
    obtain ⟨⟨fields, hlast, _⟩, _⟩ := hknown hsilent
    rw [hnone] at hlast
    cases hlast
  · intro hfirst hsilent
    obtain ⟨hx, hy, hbuttons, hwheel⟩ := silent_iff.mp hsilent
    cases hlast : (acceptedMouse h.calls).getLast? with
    | none =>
        have hnone := List.getLast?_eq_none_iff.mp hlast
        obtain ⟨hx0, hy0, hbuttons0⟩ := hinv.zero hnone
        exact absurd ⟨hx.trans hx0, hy.trans hy0, hbuttons.trans hbuttons0, hwheel⟩ (hfirst hnone)
    | some fields =>
        have hfields : lastMouse h.calls = fields := by
          unfold lastMouse
          rw [hlast]
          rfl
        refine ⟨⟨fields, hlast, ?_, ?_, ?_⟩, hwheel⟩
        · rw [hx, hinv.x, hfields]
        · rw [hy, hinv.y, hfields]
        · rw [hbuttons, hinv.buttons, hfields]

/-- Whenever the step calls `send_abs_mouse_once` and nothing is sent, the host has the report. -/
def SuppressesKnown (h : Hid) (label : HidLabel) : Prop :=
  ∀ s ∈ h.onceStates label, s.Silent → s.HostHas

/-- Whenever the step calls `send_abs_mouse_once` before the first accepted report, there is
something other than zeros to send. -/
def BeginsNonzero (h : Hid) (label : HidLabel) : Prop :=
  ∀ s ∈ h.onceStates label, acceptedMouse s.calls = [] → ¬ s.act.AllZero

/-- In every run with the device mounted: only reports are suppressed that the host has, exactly
if no call before the first accepted report is about zeros. -/
theorem suppressesKnown_iff {screenWidth screenHeight : UInt16} {layout : KeyboardLayout}
    {answers : List Bool} {labels : List HidLabel} :
    AllSteps hidStep SuppressesKnown (Hid.init screenWidth screenHeight layout true answers)
        labels ↔
      AllSteps hidStep BeginsNonzero (Hid.init screenWidth screenHeight layout true answers)
        labels := by
  refine allSteps_congr (fun h label (hinv : LastSentInv h) => ?_) ?_ ?_
  · refine forall₂_congr fun s hs => ?_
    exact silent_hostHas_iff (hinv.onceStates hs)
  · exact fun h label h' hinv _ hstep => hidStep_lastSentInv h label h' hinv hstep
  · exact lastSentInv_init _ _ _ _ _

/-- A move to the upper left corner, as the first thing: the HID task sends nothing. -/
theorem not_suppressesKnown_corner :
    ∃ h, run hidStep (Hid.init 1920 1080 .us true [true]) [.setMovement 0 0] = some h ∧
      h.act.movementPending = 1 ∧ h.calls = [] ∧
      (∃ s ∈ h.onceStates .movement, s.Silent ∧ ¬ s.HostHas) ∧
      ¬ AllSteps hidStep SuppressesKnown (Hid.init 1920 1080 .us true [true])
        [.setMovement 0 0, .movement] := by
  have hbad : ∃ s ∈ Hid.onceStates { Hid.init 1920 1080 .us true [true] with
      act := actuatorSetMovement (tusbActuatorInit 1920 1080) 0 0 } .movement,
      s.Silent ∧ ¬ s.HostHas := by
    refine ⟨_, List.mem_singleton.mpr rfl, silent_iff.mpr (by decide), ?_⟩
    rintro ⟨⟨fields, hlast, _⟩, _⟩
    cases hlast
  refine ⟨_, rfl, rfl, rfl, hbad, ?_⟩
  rintro ⟨_, hall⟩
  obtain ⟨s, hs, hsilent, hnot⟩ := hbad
  exact hnot ((hall _ rfl).1 s hs hsilent)

/-! ## Jiggles -/

/-- A report with the position that the host has, accepted or not, leaves it there. -/
theorem Hid.LastShows.once {h h' : Hid} {x y : UInt16} (hshows : h.LastShows x y)
    (hx : toHid h.act.screenWidth h.act.targetX = x)
    (hy : toHid h.act.screenHeight h.act.targetY = y) (hsend : h.sendAbsMouseOnce = some h') :
    h'.LastShows x y := by
  rcases sendMouse_accepted (Or.inl hsend) with ⟨_, haccepted⟩ | ⟨_, haccepted⟩
  · obtain ⟨fields, hlast, hfields⟩ := hshows
    refine ⟨fields, ?_, hfields⟩
    rw [haccepted]
    exact hlast
  · refine ⟨h.act.mouseFields, ?_, hx, hy⟩
    rw [haccepted]
    exact List.getLast?_concat

/-- A position that is not remembered is tried. -/
theorem sendAbsMouseOnce_tries {h : Hid}
    (hx : toHid h.act.screenWidth h.act.targetX ≠ h.act.lastSentHx) :
    h.sendAbsMouseOnce = h.tryMouse := by
  unfold Hid.sendAbsMouseOnce
  rw [if_neg]
  rintro ⟨hsame, _⟩
  exact hx hsame

theorem tryMouse_of_accepted {h h' : Hid} {answers : List Bool}
    (hanswers : h.answers = true :: answers) (hsend : h.tryMouse = some h') :
    h'.act = h.act.mouseSent ∧ h'.answers = answers ∧
      acceptedMouse h'.calls = acceptedMouse h.calls ++ [h.act.mouseFields] := by
  obtain ⟨answer, rest, hrest, rfl⟩ := tryMouse_spec hsend
  rw [hanswers] at hrest
  cases hrest
  refine ⟨rfl, rfl, ?_⟩
  rw [acceptedMouse_append]
  exact congrArg _ (acceptedMouse_retried h.act 0)

theorem tryMouse_of_rejected {h h' : Hid} {answers : List Bool}
    (hanswers : h.answers = false :: answers) (hsend : h.tryMouse = some h') :
    h'.act = h.act ∧ h'.answers = answers ∧ acceptedMouse h'.calls = acceptedMouse h.calls := by
  obtain ⟨answer, rest, hrest, rfl⟩ := tryMouse_spec hsend
  rw [hanswers] at hrest
  cases hrest
  refine ⟨rfl, rfl, ?_⟩
  have hrejected : acceptedMouse [(h.act.absMouseReport, false)] = [] :=
    acceptedMouse_rejected h.act.absMouseReport 1
  rw [acceptedMouse_append, hrejected, List.append_nil]

/-- The last accepted report has one position. -/
theorem Hid.LastShows.x_eq {h : Hid} {x y : UInt16} {fields : MouseFields}
    {before : List MouseFields}
    (hshows : h.LastShows x y) (haccepted : acceptedMouse h.calls = before ++ [fields]) :
    fields.x = x := by
  obtain ⟨fields', hlast, hx, _⟩ := hshows
  rw [haccepted, List.getLast?_concat] at hlast
  cases hlast
  exact hx

/-- The task with another target. -/
def Hid.moved (h : Hid) (x y : UInt16) : Hid :=
  { h with act := { h.act with targetX := x, targetY := y } }

theorem Hid.LastShows.moved {h : Hid} {x y : UInt16} (hshows : h.LastShows x y) (tx ty : UInt16) :
    (h.moved tx ty).LastShows x y := hshows

/-- A jiggle sends another position and then the one from before. -/
theorem processCommand_jiggle_spec {h h' : Hid} (hp : h.processCommand .jiggle = some h') :
    ∃ m, (h.moved (jiggleX h.act) h.act.targetY).sendAbsMouseOnce = some m ∧
      (m.moved h.act.targetX h.act.targetY).sendAbsMouseOnce = some h' :=
  Option.bind_eq_some_iff.mp hp

/-- From the position that the host has to another one and back: the host ends up at the other
one exactly if it accepts the first report and rejects the second. -/
theorem awayAndBack_iff {away m h' : Hid} {tx ty x y : UInt16} (hshows : away.LastShows x y)
    (hlast : away.act.lastSentHx = x)
    (hother : toHid away.act.screenWidth away.act.targetX ≠ x)
    (haway : away.sendAbsMouseOnce = some m)
    (hx : toHid m.act.screenWidth tx = x) (hy : toHid m.act.screenHeight ty = y)
    (hback : (m.moved tx ty).sendAbsMouseOnce = some h') :
    h'.LastShows x y ↔ away.answers.take 2 ≠ [true, false] := by
  rw [sendAbsMouseOnce_tries (hlast ▸ hother)] at haway
  obtain ⟨answer, rest, hanswers, _⟩ := tryMouse_spec haway
  cases answer with
  | false =>
      obtain ⟨_, _, haccepted⟩ := tryMouse_of_rejected hanswers haway
      obtain ⟨fields, hfields, hposition⟩ := hshows
      have hm : m.LastShows x y := by
        refine ⟨fields, ?_, hposition⟩
        rw [haccepted]
        exact hfields
      refine iff_of_true ((hm.moved tx ty).once hx hy hback) ?_
      rw [hanswers, List.take_succ_cons]
      simp
  | true =>
      obtain ⟨hact, hrest, haccepted⟩ := tryMouse_of_accepted hanswers haway
      have hlast' : m.act.lastSentHx = toHid away.act.screenWidth away.act.targetX := by
        rw [hact]
        rfl
      have hother' : toHid m.act.screenWidth tx ≠ m.act.lastSentHx := by
        rw [hlast', hx]
        exact hother.symm
      rw [sendAbsMouseOnce_tries (by exact hother')] at hback
      obtain ⟨answer', rest', hanswers', _⟩ := tryMouse_spec hback
      have hmanswers : m.answers = answer' :: rest' := hanswers'
      have htake : away.answers.take 2 = [true, answer'] := by
        rw [hanswers, ← hrest, hmanswers]
        rfl
      rw [htake]
      cases answer' with
      | true =>
          obtain ⟨_, _, haccepted'⟩ := tryMouse_of_accepted hanswers' hback
          refine iff_of_true ⟨(m.moved tx ty).act.mouseFields, ?_, hx, hy⟩ (by decide)
          rw [haccepted']
          exact List.getLast?_concat
      | false =>
          obtain ⟨_, _, haccepted'⟩ := tryMouse_of_rejected hanswers' hback
          refine iff_of_false (fun hback' => hother ?_) (by decide)
          exact hback'.x_eq (haccepted'.trans haccepted)

/-- What a jiggle leaves on a host that has the target: the same position, unless it accepts the
report of another position and rejects the one that leads back. -/
theorem jiggle_lastShows_iff {h h' : Hid} (hinv : LastSentInv h)
    (hshows : h.LastShows (toHid h.act.screenWidth h.act.targetX)
      (toHid h.act.screenHeight h.act.targetY)) (hp : h.processCommand .jiggle = some h') :
    h'.LastShows (toHid h.act.screenWidth h.act.targetX)
        (toHid h.act.screenHeight h.act.targetY) ↔
      ¬ (toHid h.act.screenWidth (jiggleX h.act) ≠ toHid h.act.screenWidth h.act.targetX ∧
        h.answers.take 2 = [true, false]) := by
  obtain ⟨m, haway, hback⟩ := processCommand_jiggle_spec hp
  have hframe := (sendAbsMouseOnce_frame haway).sameTarget
  have hx : toHid m.act.screenWidth h.act.targetX = toHid h.act.screenWidth h.act.targetX :=
    congrArg (toHid · h.act.targetX) hframe.width
  have hy : toHid m.act.screenHeight h.act.targetY = toHid h.act.screenHeight h.act.targetY :=
    congrArg (toHid · h.act.targetY) hframe.height
  have hshows' := hshows.moved (jiggleX h.act) h.act.targetY
  by_cases hsame : toHid h.act.screenWidth (jiggleX h.act) = toHid h.act.screenWidth h.act.targetX
  · -- Both reports have the position that the host has.
    have hm := (hshows'.once hsame rfl haway).moved h.act.targetX h.act.targetY
    exact iff_of_true (hm.once hx hy hback) fun hbad => hbad.1 hsame
  · have hlast : h.act.lastSentHx = toHid h.act.screenWidth h.act.targetX := by
      obtain ⟨fields, hfields, hposition, _⟩ := hshows
      rw [hinv.x, lastMouse, hfields]
      exact hposition
    have hiff := awayAndBack_iff hshows' hlast hsame haway hx hy hback
    exact hiff.trans ⟨fun htake hbad => htake hbad.2, fun hnot htake => hnot ⟨hsame, htake⟩⟩

/-- In every state that the HID task reaches with the device mounted, and in which the last accepted
report shows the target: after a jiggle it shows the same position again exactly if the report of
another position is not accepted with the one that leads back rejected. -/
theorem jiggle_returns_iff {screenWidth screenHeight : UInt16} {layout : KeyboardLayout}
    {answers : List Bool} {labels : List HidLabel} {h h' : Hid} {rest : List ActCmd}
    (hrun : run hidStep (Hid.init screenWidth screenHeight layout true answers) labels = some h)
    (hshows : h.LastShows (toHid h.act.screenWidth h.act.targetX)
      (toHid h.act.screenHeight h.act.targetY))
    (hqueue : h.act.cmdQueue = .jiggle :: rest) (hstep : hidStep h .command = some h') :
    h'.LastShows (toHid h.act.screenWidth h.act.targetX)
        (toHid h.act.screenHeight h.act.targetY) ↔
      ¬ (toHid h.act.screenWidth (jiggleX h.act) ≠ toHid h.act.screenWidth h.act.targetX ∧
        h.answers.take 2 = [true, false]) := by
  have hinv : LastSentInv h := run_invariant hidStep_lastSentInv (lastSentInv_init _ _ _ _ _) hrun
  have hmounted : h.mounted = true :=
    (run_invariant hidStep_keyInv (keyInv_init screenWidth screenHeight layout answers)
      hrun).mounted
  have hreceived : LastSentInv (h.receive .jiggle rest) := ⟨hinv.x, hinv.y, hinv.buttons⟩
  have hiff := jiggle_lastShows_iff hreceived hshows (commandStep_spec hmounted hqueue hstep)
  exact hiff

/-- The pointer is at (100, 100), and a jiggle waits. -/
def jiggleLabels : List HidLabel := [.setMovement 100 100, .movement, .xQueueSend .jiggle]

theorem jiggle_returns_iff_accepted :
    ∃ h h', run hidStep (Hid.init 1920 1080 .us true [true, true, true]) jiggleLabels = some h ∧
      hidStep h .command = some h' ∧
      (h'.LastShows (toHid h.act.screenWidth h.act.targetX)
          (toHid h.act.screenHeight h.act.targetY) ↔
        ¬ (toHid h.act.screenWidth (jiggleX h.act) ≠ toHid h.act.screenWidth h.act.targetX ∧
          h.answers.take 2 = [true, false])) := by
  have hview : (run hidStep (Hid.init 1920 1080 .us true [true, true, true]) jiggleLabels).map
      (fun h => (h.act.cmdQueue, (hidStep h .command).isSome,
        decide (h.LastShows (toHid h.act.screenWidth h.act.targetX)
          (toHid h.act.screenHeight h.act.targetY)))) = some ([.jiggle], true, true) := by
    decide +kernel
  obtain ⟨h, hrun, hends⟩ := Option.map_eq_some_iff.mp hview
  simp only [Prod.mk.injEq, decide_eq_true_eq] at hends
  obtain ⟨hqueue, hsome, hshows⟩ := hends
  obtain ⟨h', hstep⟩ := Option.isSome_iff_exists.mp hsome
  exact ⟨h, h', hrun, hstep, jiggle_returns_iff hrun hshows hqueue hstep⟩

/-- The way back is rejected: the pointer of the host stays one pixel off. -/
theorem not_jiggle_returns :
    ∃ h h', run hidStep (Hid.init 1920 1080 .us true [true, true, false]) jiggleLabels = some h ∧
      h.act.cmdQueue = [.jiggle] ∧
      h.LastShows (toHid h.act.screenWidth h.act.targetX)
        (toHid h.act.screenHeight h.act.targetY) ∧
      hidStep h .command = some h' ∧ h'.act.movementPending = 0 ∧
      ¬ h'.LastShows (toHid h.act.screenWidth h.act.targetX)
        (toHid h.act.screenHeight h.act.targetY) := by
  have hview : (run hidStep (Hid.init 1920 1080 .us true [true, true, false]) jiggleLabels).bind
      (fun h => (hidStep h .command).map fun h' => (h.act.cmdQueue,
        decide (h.LastShows (toHid h.act.screenWidth h.act.targetX)
          (toHid h.act.screenHeight h.act.targetY)), h'.act.movementPending,
        decide (h'.LastShows (toHid h.act.screenWidth h.act.targetX)
          (toHid h.act.screenHeight h.act.targetY)))) = some ([.jiggle], true, 0, false) := by
    decide +kernel
  obtain ⟨h, hrun, hstep⟩ := Option.bind_eq_some_iff.mp hview
  obtain ⟨h', hstep, hends⟩ := Option.map_eq_some_iff.mp hstep
  simp only [Prod.mk.injEq, decide_eq_true_eq, decide_eq_false_iff_not] at hends
  obtain ⟨hqueue, hshows, hpending, hnot⟩ := hends
  exact ⟨h, h', hrun, hqueue, hshows, hstep, hpending, hnot⟩

end Esp32Deskflow.Tusb
