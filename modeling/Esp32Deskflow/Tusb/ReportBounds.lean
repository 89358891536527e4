/-
  Tusb/ReportBounds.lean --- the mouse reports against the HID report descriptor.

  Buttons and wheel are always in range.  A coordinate is in range if the target that
  is scaled lies on the screen it is scaled for.  Relative moves are clamped to the
  screen, absolute ones are not, and the screen can shrink under the target.
-/
import Esp32Deskflow.Foundation.FloorScale
import Esp32Deskflow.Tusb.Pointer

set_option autoImplicit false

namespace Esp32Deskflow.Tusb

open Esp32Deskflow.Foundation Esp32Deskflow.Foundation.Transition

/-! ## The descriptor -/

/-- The three buttons and the wheel are in the logical range of the descriptor. -/
def HidReport.ButtonsWheelInRange : HidReport → Prop
  | .absMouse [buttons, _, _, _, _, wheel] =>
      buttons < 8 ∧ -127 ≤ wheel.toInt8.toInt ∧ wheel.toInt8.toInt ≤ 127
  | .absMouse _ => False
  | .keyboard _ => True

/-- X and Y, least significant byte first, are in the logical range of the descriptor. -/
def HidReport.PositionInRange : HidReport → Prop
  | .absMouse [_, xLow, xHigh, yLow, yHigh, _] =>
      xLow.toNat + 256 * xHigh.toNat ≤ 32767 ∧ yLow.toNat + 256 * yHigh.toNat ≤ 32767
  | .absMouse _ => False
  | .keyboard _ => True

/-! ## Which target a step scales -/

/-- A coordinate of a screen of this size.  With size 1 there is nothing to scale. -/
def OnScreen (size v : UInt16) : Prop := size - 1 = 0 ∨ v ≤ size - 1

/-- The target that a command scales. -/
def TusbActuator.commandTarget (act : TusbActuator) : ActCmd → Option Position
  | .mouseDown _ | .mouseUp _ | .mouseWheel _ _ | .leave | .jiggle =>
      some (act.targetX, act.targetY)
  | .enter x y _ => some (x, y)
  | _ => none

/-- The target that a step of `hid_task` scales. -/
def Hid.scaledTarget (h : Hid) : HidLabel → Option Position
  | .movement => if h.act.movementPending = 1 then some h.target else none
  | .command => h.act.cmdQueue.head?.bind h.act.commandTarget
  | _ => none

/-- The target that a step scales lies on the screen in force. -/
def ScalesOnScreen (h : Hid) (label : HidLabel) : Prop :=
  h.mounted = true → ∀ pos, h.scaledTarget label = some pos →
    OnScreen h.act.screenWidth pos.1 ∧ OnScreen h.act.screenHeight pos.2

/-! ## The bytes of a report -/

theorem lowHigh_toNat (v : UInt16) :
    (v &&& 0xFF).toUInt8.toNat + 256 * (v >>> 8).toUInt8.toNat = v.toNat := by
  have hlow : (v &&& 0xFF).toUInt8.toNat = v.toNat % 256 := by
    rw [UInt16.toNat_toUInt8, UInt16.toNat_and]
    have hmask : (0xFF : UInt16).toNat = 2 ^ 8 - 1 := rfl
    rw [hmask, Nat.and_two_pow_sub_one_eq_mod]
    omega
  have hhigh : (v >>> 8).toUInt8.toNat = v.toNat / 256 := by
    have hlt := v.toNat_lt
    rw [UInt16.toNat_toUInt8, UInt16.toNat_shiftRight]
    have hshift : (8 : UInt16).toNat % 16 = 8 := rfl
    rw [hshift, Nat.shiftRight_eq_div_pow]
    omega
  omega

/-- The product of the scaling fits 32 bits, for every coordinate. -/
theorem scaleProduct_toNat (v : UInt16) : (v.toUInt32 * 32767).toNat = v.toNat * 32767 := by
  have hv := v.toNat_lt
  have hproduct : v.toNat * 32767 < 2 ^ 32 := by omega
  have hmax : (32767 : UInt32).toNat = 32767 := rfl
  rw [UInt32.toNat_mul, UInt16.toNat_toUInt32, hmax, Nat.mod_eq_of_lt hproduct]

/-- A coordinate on the screen is scaled by a floored fraction. -/
theorem toHid_toNat {size v : UInt16} (hsize : size - 1 ≠ 0) (hv : v ≤ size - 1) :
    (toHid size v).toNat = floorScale 32767 (size - 1).toNat v.toNat := by
  have hquotient : floorScale 32767 (size - 1).toNat v.toNat ≤ 32767 :=
    floorScale_le (UInt16.le_iff_toNat_le.mp hv)
  unfold toHid
  rw [if_neg hsize, UInt32.toNat_toUInt16, UInt32.toNat_div, scaleProduct_toNat,
    UInt16.toNat_toUInt32]
  exact Nat.mod_eq_of_lt (Nat.lt_of_le_of_lt hquotient (by decide))

/-- A coordinate on the screen is scaled into the logical range. -/
theorem toHid_le {size v : UInt16} (h : OnScreen size v) : (toHid size v).toNat ≤ 32767 := by
  by_cases hone : size - 1 = 0
  · unfold toHid
    rw [if_pos hone]
    exact Nat.zero_le _
  · have hle := h.resolve_left hone
    rw [toHid_toNat hone hle]
    exact floorScale_le (UInt16.le_iff_toNat_le.mp hle)

theorem absMouseReport_position {act : TusbActuator} (hx : OnScreen act.screenWidth act.targetX)
    (hy : OnScreen act.screenHeight act.targetY) : act.absMouseReport.PositionInRange := by
  refine ⟨?_, ?_⟩
  · rw [lowHigh_toNat]
    exact toHid_le hx
  · rw [lowHigh_toNat]
    exact toHid_le hy

/-! ## The reports of a step -/

/-- Every report sent between two states has the property. -/
def SendsOnly (P : HidReport → Prop) (h h' : Hid) : Prop :=
  ∃ new, h'.calls = h.calls ++ new ∧ ∀ c ∈ new, P c.1

variable {P : HidReport → Prop}

theorem SendsOnly.refl (h : Hid) : SendsOnly P h h :=
  ⟨[], (List.append_nil _).symm, fun _ hc => absurd hc List.not_mem_nil⟩

theorem SendsOnly.of_calls {h h' : Hid} (hcalls : h'.calls = h.calls) : SendsOnly P h h' :=
  ⟨[], by rw [hcalls, List.append_nil], fun _ hc => absurd hc List.not_mem_nil⟩

theorem SendsOnly.trans {h₁ h₂ h₃ : Hid} (h : SendsOnly P h₁ h₂) (h' : SendsOnly P h₂ h₃) :
    SendsOnly P h₁ h₃ := by
  obtain ⟨new, hcalls, hnew⟩ := h
  obtain ⟨new', hcalls', hnew'⟩ := h'
  refine ⟨new ++ new', by rw [hcalls', hcalls, List.append_assoc], fun c hc => ?_⟩
  rcases List.mem_append.mp hc with hc | hc
  · exact hnew c hc
  · exact hnew' c hc

/-- The actuator does not count. -/
theorem SendsOnly.rebase {h h' : Hid} {act : TusbActuator}
    (hsends : SendsOnly P { h with act := act } h') : SendsOnly P h h' :=
  hsends

/-- Reports that all have the property stay so over a step that sends only such ones. -/
theorem SendsOnly.keeps {h h' : Hid} (hsends : SendsOnly P h h') (hall : ∀ c ∈ h.calls, P c.1) :
    ∀ c ∈ h'.calls, P c.1 := by
  obtain ⟨new, hcalls, hnew⟩ := hsends
  intro c hc
  rw [hcalls] at hc
  rcases List.mem_append.mp hc with hc | hc
  · exact hall c hc
  · exact hnew c hc

theorem sendsOnly_retried {h h' : Hid} {report : HidReport} (hreport : P report) {n : Nat}
    (hcalls : h'.calls = h.calls ++ retriedCalls report n) : SendsOnly P h h' := by
  refine ⟨_, hcalls, ?_⟩
  rintro ⟨r, answer⟩ hc
  unfold retriedCalls at hc
  rcases List.mem_append.mp hc with hc | hc
  · rw [List.eq_of_mem_replicate hc]
    exact hreport
  · rw [List.mem_singleton.mp hc]
    exact hreport

theorem sendKbReport_sends {h h' : Hid} {report : List UInt8}
    (hsend : h.sendKbReport report = some h') (hreport : P (.keyboard report)) :
    SendsOnly P h h' := by
  obtain ⟨n, rest, _, rfl⟩ := sendKbReport_spec hsend
  exact sendsOnly_retried hreport rfl

theorem tryMouse_sends {h h' : Hid} (hsend : h.tryMouse = some h')
    (hreport : P h.act.absMouseReport) : SendsOnly P h h' := by
  obtain ⟨answer, rest, _, rfl⟩ := tryMouse_spec hsend
  refine ⟨_, rfl, fun c hc => ?_⟩
  rw [List.mem_singleton.mp hc]
  exact hreport

theorem sendAbsMouseOnce_sends {h h' : Hid} (hsend : h.sendAbsMouseOnce = some h')
    (hreport : P h.act.absMouseReport) : SendsOnly P h h' := by
  rcases sendAbsMouseOnce_spec hsend with ⟨rfl, _⟩ | htry
  · exact .refl _
  · exact tryMouse_sends htry hreport

theorem sendAbsMouseRetry_sends {h h' : Hid} (hsend : h.sendAbsMouseRetry = some h')
    (hreport : P h.act.absMouseReport) : SendsOnly P h h' := by
  rcases sendAbsMouseRetry_spec hsend with ⟨n, rest, _, rfl⟩ | htry
  · exact sendsOnly_retried hreport rfl
  · exact tryMouse_sends htry hreport

/-! ## Positions -/

theorem onScreen_jiggleX {act : TusbActuator} (hx : OnScreen act.screenWidth act.targetX) :
    OnScreen act.screenWidth (jiggleX act) := by
  unfold OnScreen jiggleX at *
  rw [UInt16.le_iff_toNat_le] at hx ⊢
  rw [← UInt16.toNat_inj] at hx ⊢
  have hw := act.screenWidth.toNat_lt
  have ht := act.targetX.toNat_lt
  have hone : (1 : UInt16).toNat = 1 := rfl
  have hzero : (0 : UInt16).toNat = 0 := rfl
  split <;> simp only [UInt16.toNat_add, UInt16.toNat_sub, hone, hzero] at * <;> omega

/-- A command sends positions in range if the target that it scales is on the screen. -/
theorem processCommand_positions {h h' : Hid} {cmd : ActCmd}
    (hin : ∀ pos, h.act.commandTarget cmd = some pos →
      OnScreen h.act.screenWidth pos.1 ∧ OnScreen h.act.screenHeight pos.2)
    (hp : h.processCommand cmd = some h') : SendsOnly HidReport.PositionInRange h h' := by
  cases cmd with
  | keyDown key mask button => exact (sendKbReport_sends hp trivial).rebase
  | keyUp key mask button => exact (sendKbReport_sends hp trivial).rebase
  | keyRepeat key mask button count =>
      cases hp
      exact .refl _
  | mouseDown id =>
      obtain ⟨hx, hy⟩ := hin _ rfl
      exact (sendAbsMouseRetry_sends hp (absMouseReport_position hx hy)).rebase
  | mouseUp id =>
      obtain ⟨hx, hy⟩ := hin _ rfl
      exact (sendAbsMouseRetry_sends hp (absMouseReport_position hx hy)).rebase
  | mouseWheel dx dy =>
      obtain ⟨hx, hy⟩ := hin _ rfl
      exact (sendAbsMouseRetry_sends hp (absMouseReport_position hx hy)).rebase
  | enter x y mask =>
      obtain ⟨hx, hy⟩ := hin _ rfl
      obtain ⟨m, hm, hrest⟩ := Option.bind_eq_some_iff.mp hp
      have hfirst : SendsOnly HidReport.PositionInRange h m :=
        (sendAbsMouseOnce_sends hm (absMouseReport_position hx hy)).rebase
      split at hrest
      · exact hfirst.trans (sendKbReport_sends hrest trivial)
      · cases hrest
        exact hfirst
  | leave =>
      obtain ⟨hx, hy⟩ := hin _ rfl
      obtain ⟨m, hm, hrest⟩ := Option.bind_eq_some_iff.mp hp
      have hfirst : SendsOnly HidReport.PositionInRange h m :=
        (sendKbReport_sends hm trivial).rebase
      obtain ⟨n, rest, _, rfl⟩ := sendKbReport_spec hm
      exact hfirst.trans (sendAbsMouseOnce_sends hrest (absMouseReport_position hx hy)).rebase
  | jiggle =>
      obtain ⟨hx, hy⟩ := hin _ rfl
      obtain ⟨m, hm, hrest⟩ := Option.bind_eq_some_iff.mp hp
      have hfirst : SendsOnly HidReport.PositionInRange h m :=
        (sendAbsMouseOnce_sends hm (absMouseReport_position (onScreen_jiggleX hx) hy)).rebase
      have hframe := (sendAbsMouseOnce_frame hm).sameTarget
      have hx' : OnScreen m.act.screenWidth h.act.targetX := hframe.width ▸ hx
      have hy' : OnScreen m.act.screenHeight h.act.targetY := hframe.height ▸ hy
      exact hfirst.trans (sendAbsMouseOnce_sends hrest (absMouseReport_position hx' hy')).rebase
  | connected =>
      cases hp
      exact .refl _
  | disconnected =>
      cases hp
      exact .of_calls rfl
  | setScreenSize w ht =>
      cases hp
      exact .of_calls rfl
  | setScaling scaling =>
      cases hp
      exact .of_calls rfl

/-! ## Buttons and wheel -/

/-- The buttons and the wheel can go into a report. -/
def MouseReady (act : TusbActuator) : Prop :=
  act.mouseButtons < 8 ∧ -127 ≤ act.mouseWheel.toInt ∧ act.mouseWheel.toInt ≤ 127

/-- The buttons and the wheel are in range, in the state and in all reports. -/
def MouseInv (h : Hid) : Prop :=
  MouseReady h.act ∧ ∀ c ∈ h.calls, c.1.ButtonsWheelInRange

theorem absMouseReport_buttonsWheel {act : TusbActuator} (hready : MouseReady act) :
    act.absMouseReport.ButtonsWheelInRange := hready

theorem MouseReady.sent {act : TusbActuator} (hready : MouseReady act) :
    MouseReady act.mouseSent := by
  have hzero : -127 ≤ (0 : Int8).toInt ∧ (0 : Int8).toInt ≤ 127 := by decide
  exact ⟨hready.1, hzero⟩

theorem sendKbReport_mouseInv {h h' : Hid} {report : List UInt8}
    (hsend : h.sendKbReport report = some h') (hinv : MouseInv h) : MouseInv h' := by
  refine ⟨?_, (sendKbReport_sends hsend trivial).keeps hinv.2⟩
  obtain ⟨n, rest, _, rfl⟩ := sendKbReport_spec hsend
  exact hinv.1

theorem tryMouse_mouseInv {h h' : Hid} (hsend : h.tryMouse = some h') (hinv : MouseInv h) :
    MouseInv h' := by
  refine ⟨?_, (tryMouse_sends hsend (absMouseReport_buttonsWheel hinv.1)).keeps hinv.2⟩
  obtain ⟨answer, rest, _, rfl⟩ := tryMouse_spec hsend
  cases answer with
  | true => exact hinv.1.sent
  | false => exact hinv.1

theorem sendAbsMouseOnce_mouseInv {h h' : Hid} (hsend : h.sendAbsMouseOnce = some h')
    (hinv : MouseInv h) : MouseInv h' := by
  rcases sendAbsMouseOnce_spec hsend with ⟨rfl, _⟩ | htry
  · exact hinv
  · exact tryMouse_mouseInv htry hinv

theorem sendAbsMouseRetry_mouseInv {h h' : Hid} (hsend : h.sendAbsMouseRetry = some h')
    (hinv : MouseInv h) : MouseInv h' := by
  refine ⟨?_, (sendAbsMouseRetry_sends hsend (absMouseReport_buttonsWheel hinv.1)).keeps hinv.2⟩
  rcases sendAbsMouseRetry_spec hsend with ⟨n, rest, _, rfl⟩ | htry
  · exact hinv.1.sent
  · exact (tryMouse_mouseInv htry hinv).1

/-- The usage of a button is one of the three bits, or none. -/
theorem barrierButtonToHid_lt (button : Int8) : barrierButtonToHid button < 8 := by
  unfold barrierButtonToHid
  split
  · decide
  · split
    · decide
    · split <;> decide

theorem mouseButtons_or_lt {a b : UInt8} (ha : a < 8) (hb : b < 8) : a ||| b < 8 := by
  rw [UInt8.lt_iff_toNat_lt] at *
  rw [UInt8.toNat_or]
  exact Nat.or_lt_two_pow (n := 3) ha hb

theorem mouseButtons_and_lt {a : UInt8} (ha : a < 8) (b : UInt8) : a &&& b < 8 := by
  rw [UInt8.lt_iff_toNat_lt] at *
  rw [UInt8.toNat_and]
  exact Nat.lt_of_le_of_lt Nat.and_le_left ha

theorem dampenWheel_range (dy : Int16) :
    -127 ≤ (dampenWheel dy).toInt ∧ (dampenWheel dy).toInt ≤ 127 := by
  unfold dampenWheel
  split
  · decide
  · split
    · decide
    · next hhigh hlow =>
        rw [gt_iff_lt, Int16.lt_iff_toInt_lt] at hhigh
        rw [Int16.lt_iff_toInt_lt] at hlow
        have h3 : (3 : Int16).toInt = 3 := rfl
        have h3' : (-3 : Int16).toInt = -3 := rfl
        rw [Int16.toInt_toInt8, Int.bmod_eq_of_le (by omega) (by omega)]
        omega

theorem MouseInv.of_ready {h : Hid} (hinv : MouseInv h) {act : TusbActuator}
    (hready : MouseReady act) : MouseInv { h with act := act } :=
  ⟨hready, hinv.2⟩

theorem MouseReady.zero {act : TusbActuator} (hbuttons : act.mouseButtons = 0)
    (hwheel : act.mouseWheel = 0) : MouseReady act := by
  unfold MouseReady
  rw [hbuttons, hwheel]
  decide

theorem trackKeyDown_ready {act : TusbActuator} (hready : MouseReady act) (key : UInt16) :
    MouseReady (act.trackKeyDown key) := by
  obtain ⟨keys, count, htrack⟩ := trackKeyDown_frame act key
  rw [htrack]
  exact hready

theorem trackKeyUp_ready {act : TusbActuator} (hready : MouseReady act) (key : UInt16) :
    MouseReady (act.trackKeyUp key) := by
  obtain ⟨keys, count, htrack⟩ := trackKeyUp_frame act key
  rw [htrack]
  exact hready

theorem processCommand_mouseInv {h h' : Hid} {cmd : ActCmd} (hinv : MouseInv h)
    (hp : h.processCommand cmd = some h') : MouseInv h' := by
  have hready := hinv.1
  cases cmd with
  | keyDown key mask button =>
      exact sendKbReport_mouseInv hp (hinv.of_ready (trackKeyDown_ready hready key))
  | keyUp key mask button =>
      exact sendKbReport_mouseInv hp (hinv.of_ready (trackKeyUp_ready hready key))
  | keyRepeat key mask button count =>
      cases hp
      exact hinv
  | mouseDown id =>
      refine sendAbsMouseRetry_mouseInv hp (hinv.of_ready ⟨?_, hready.2⟩)
      exact mouseButtons_or_lt hready.1 (barrierButtonToHid_lt id)
  | mouseUp id =>
      refine sendAbsMouseRetry_mouseInv hp (hinv.of_ready ⟨?_, hready.2⟩)
      exact mouseButtons_and_lt hready.1 _
  | mouseWheel dx dy =>
      exact sendAbsMouseRetry_mouseInv hp (hinv.of_ready ⟨hready.1, dampenWheel_range dy⟩)
  | enter x y mask =>
      obtain ⟨m, hm, hrest⟩ := Option.bind_eq_some_iff.mp hp
      have hfirst : MouseInv m := sendAbsMouseOnce_mouseInv hm (hinv.of_ready hready)
      split at hrest
      · exact sendKbReport_mouseInv hrest hfirst
      · cases hrest
        exact hfirst
  | leave =>
      obtain ⟨m, hm, hrest⟩ := Option.bind_eq_some_iff.mp hp
      have hfirst : MouseInv m := sendKbReport_mouseInv hm (hinv.of_ready hready)
      exact sendAbsMouseOnce_mouseInv hrest (hfirst.of_ready (.zero rfl rfl))
  | jiggle =>
      obtain ⟨m, hm, hrest⟩ := Option.bind_eq_some_iff.mp hp
      have hfirst : MouseInv m := sendAbsMouseOnce_mouseInv hm (hinv.of_ready hready)
      exact sendAbsMouseOnce_mouseInv hrest (hfirst.of_ready hfirst.1)
  | connected =>
      cases hp
      exact hinv
  | disconnected =>
      cases hp
      exact hinv.of_ready (.zero rfl rfl)
  | setScreenSize w ht =>
      cases hp
      exact hinv.of_ready hready
  | setScaling scaling =>
      cases hp
      exact hinv.of_ready hready

/-! ## Runs -/

theorem hidStep_mouseInv (h : Hid) (label : HidLabel) (h' : Hid) (hinv : MouseInv h)
    (hstep : hidStep h label = some h') : MouseInv h' := by
  rcases hidStep_spec hstep with ⟨cmd, rest, _, _, _, hp⟩ | ⟨_, _, hsend⟩ |
    ⟨x, y, pending, queue, layout, rfl, _⟩
  · have hreceived : MouseInv (h.receive cmd rest) := ⟨hinv.1, hinv.2⟩
    exact processCommand_mouseInv hreceived hp
  · exact sendAbsMouseOnce_mouseInv hsend (hinv.of_ready hinv.1)
  · exact ⟨hinv.1, hinv.2⟩

theorem mouseInv_init (screenWidth screenHeight : UInt16) (layout : KeyboardLayout)
    (mounted : Bool) (answers : List Bool) :
    MouseInv (Hid.init screenWidth screenHeight layout mounted answers) :=
  ⟨.zero rfl rfl, fun _ hc => absurd hc List.not_mem_nil⟩

/-- A step that scales a target on the screen sends positions in range. -/
theorem hidStep_positions {h h' : Hid} {label : HidLabel} (hscales : ScalesOnScreen h label)
    (hstep : hidStep h label = some h') : SendsOnly HidReport.PositionInRange h h' := by
  rcases hidStep_cases hstep with
    ⟨cmd, rest, rfl, hmounted, hqueue, hp⟩ | ⟨rfl, hmounted, hsend⟩ | hsame
  · have hin : ∀ pos, (h.receive cmd rest).act.commandTarget cmd = some pos →
        OnScreen h.act.screenWidth pos.1 ∧ OnScreen h.act.screenHeight pos.2 := by
      intro pos hpos
      refine hscales hmounted pos ?_
      unfold Hid.scaledTarget
      rw [hqueue, List.head?_cons, Option.bind_some, ← hpos]
      cases cmd <;> rfl
    have hsends : SendsOnly HidReport.PositionInRange (h.receive cmd rest) h' :=
      processCommand_positions hin hp
    exact hsends
  · by_cases hpending : h.act.movementPending = 1
    · obtain ⟨hx, hy⟩ := hscales hmounted h.target (if_pos hpending)
      exact (sendAbsMouseOnce_sends hsend (absMouseReport_position hx hy)).rebase
    · unfold hidStep Hid.movementStep at hstep
      rw [if_neg hpending] at hstep
      cases hstep
      exact .refl _
  · exact .of_calls hsame.calls

/-- In every run, buttons and wheel of every mouse report are in range; its position is if
the HID task only scales targets that lie on the screen in force. -/
theorem mouseReports_inRange {screenWidth screenHeight : UInt16} {layout : KeyboardLayout}
    {mounted : Bool} {answers : List Bool} {labels : List HidLabel} {h : Hid}
    (hrun : run hidStep (Hid.init screenWidth screenHeight layout mounted answers) labels =
      some h) :
    (∀ c ∈ h.calls, c.1.ButtonsWheelInRange) ∧
      (AllSteps hidStep ScalesOnScreen (Hid.init screenWidth screenHeight layout mounted answers)
          labels →
        ∀ c ∈ h.calls, c.1.PositionInRange) := by
  refine ⟨?_, fun hscales => ?_⟩
  · have hinv : MouseInv h := run_invariant hidStep_mouseInv (mouseInv_init _ _ _ _ _) hrun
    exact hinv.2
  · have hstart : ∀ c ∈ (Hid.init screenWidth screenHeight layout mounted answers).calls,
        c.1.PositionInRange := fun _ hc => absurd hc List.not_mem_nil
    have hkeeps : ∀ s label t, (∀ c ∈ s.calls, c.1.PositionInRange) → ScalesOnScreen s label →
        hidStep s label = some t → ∀ c ∈ t.calls, c.1.PositionInRange :=
      fun _ _ _ hall hgood hstep => (hidStep_positions hgood hstep).keeps hall
    exact run_invariant_of_good hkeeps hstart hscales hrun

/-- A move to the middle of the screen. -/
def middleLabels : List HidLabel := [.setMovement 960 540, .movement]

theorem mouseReports_inRange_middle :
    ∃ h, run hidStep (Hid.init 1920 1080 .us true [true]) middleLabels = some h ∧
      h.calls.length = 1 ∧ (∀ c ∈ h.calls, c.1.ButtonsWheelInRange) ∧
      ∀ c ∈ h.calls, c.1.PositionInRange := by
  have hscales : AllSteps hidStep ScalesOnScreen (Hid.init 1920 1080 .us true [true])
      middleLabels := by
    refine ⟨fun _ => nofun, fun m hm => ⟨fun _ pos hpos => ?_, fun _ _ => trivial⟩⟩
    obtain rfl := Option.some.inj hm
    obtain rfl := Option.some.inj hpos
    exact ⟨Or.inr (by decide), Or.inr (by decide)⟩
  obtain ⟨h, hrun⟩ : ∃ h, run hidStep (Hid.init 1920 1080 .us true [true]) middleLabels = some h :=
    ⟨_, rfl⟩
  obtain ⟨hbuttons, hpositions⟩ := mouseReports_inRange hrun
  refine ⟨h, hrun, ?_, hbuttons, hpositions hscales⟩
  have hlen : (run hidStep (Hid.init 1920 1080 .us true [true]) middleLabels).map
      (fun h => h.calls.length) = some 1 := by decide
  rw [hrun] at hlen
  exact Option.some.inj hlen

/-- A DMMV beyond the right edge: X is 51225. -/
theorem mouseReports_beyond_edge :
    ∃ h, run hidStep (Hid.init 1920 1080 .us true [true]) [.setMovement 3000 0, .movement] =
        some h ∧
      h.calls = [(.absMouse [0, 0x19, 0xC8, 0, 0, 0], true)] ∧
      ¬ ∀ c ∈ h.calls, c.1.PositionInRange := by
  refine ⟨_, rfl, by decide +kernel, fun hall => ?_⟩
  have hposition := hall (.absMouse [0, 0x19, 0xC8, 0, 0, 0], true) (by decide +kernel)
  exact absurd hposition.1 (by decide)

end Esp32Deskflow.Tusb
