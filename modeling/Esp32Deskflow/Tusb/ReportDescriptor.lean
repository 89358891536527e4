/-
  Tusb/ReportDescriptor.lean --- the mouse report as the host reads it.

  The device gives the host `hid_report_descriptor_main` and then sends six bytes at a
  time.  The host knows of the bytes only what the descriptor says, so the two have to
  agree field by field.

  The keyboard part of the descriptor comes from the USB stack, in front of the mouse
  part; whatever it says, the mouse part is read the same way.
-/
import Esp32Deskflow.Foundation.HidDescriptor
import Esp32Deskflow.Tusb.ReportBounds

set_option autoImplicit false

namespace Esp32Deskflow.Tusb

open Esp32Deskflow.Foundation

/-! ## The descriptor -/

/-- `DF_HID_ABS_MOUSE`. -/
def dfHidAbsMouse : Nat := 4

/-- `ABS_MOUSE_REPORT_LEN`. -/
def absMouseReportLen : Nat := 6

/-- `hid_report_descriptor_main` behind the keyboard. -/
def mouseReportDescriptor : Bytes :=
  [0x05, 0x01,             -- USAGE_PAGE (Generic Desktop)
    0x09, 0x02,            -- USAGE (Mouse)
    0xa1, 0x01,            -- COLLECTION (Application)
    0x85, 0x04,            --   REPORT_ID (4)
    0x09, 0x01,            --   USAGE (Pointer)
    0xa1, 0x00,            --   COLLECTION (Physical)
    0x05, 0x09,            --     USAGE_PAGE (Button)
    0x19, 0x01,            --     USAGE_MINIMUM (Button 1)
    0x29, 0x03,            --     USAGE_MAXIMUM (Button 3)
    0x15, 0x00,            --     LOGICAL_MINIMUM (0)
    0x25, 0x01,            --     LOGICAL_MAXIMUM (1)
    0x95, 0x03,            --     REPORT_COUNT (3)
    0x75, 0x01,            --     REPORT_SIZE (1)
    0x81, 0x02,            --     INPUT (Data, Var, Abs)
    0x95, 0x01,            --     REPORT_COUNT (1)
    0x75, 0x05,            --     REPORT_SIZE (5)
    0x81, 0x03,            --     INPUT (Const, Var, Abs)
    0x05, 0x01,            --     USAGE_PAGE (Generic Desktop)
    0x09, 0x30,            --     USAGE (X)
    0x09, 0x31,            --     USAGE (Y)
    0x15, 0x00,            --     LOGICAL_MINIMUM (0)
    0x26, 0xff, 0x7f,      --     LOGICAL_MAXIMUM (32767)
    0x75, 0x10,            --     REPORT_SIZE (16)
    0x95, 0x02,            --     REPORT_COUNT (2)
    0x81, 0x02,            --     INPUT (Data, Var, Abs)
    0x15, 0x81,            --     LOGICAL_MINIMUM (-127)
    0x25, 0x7f,            --     LOGICAL_MAXIMUM (127)
    0x09, 0x38,            --     USAGE (Wheel)
    0x75, 0x08,            --     REPORT_SIZE (8)
    0x95, 0x01,            --     REPORT_COUNT (1)
    0x81, 0x06,            --     INPUT (Data, Var, Rel)
    0xc0,                  -- END_COLLECTION (Physical)
    0xc0]                  -- END_COLLECTION (Application)

/-! ## What it declares -/

/-- A button of the mouse report. -/
def buttonField (button : Nat) : HidField where
  reportId := dfHidAbsMouse
  usage := (9, some button)
  size := 1
  logicalMin := 0
  logicalMax := 1
  constant := false
  relative := false

/-- The five bits behind the buttons. -/
def paddingField : HidField where
  reportId := dfHidAbsMouse
  usage := (9, none)
  size := 5
  logicalMin := 0
  logicalMax := 1
  constant := true
  relative := false

/-- X and Y, by their usage. -/
def coordinateField (usage : Nat) : HidField where
  reportId := dfHidAbsMouse
  usage := (1, some usage)
  size := 16
  logicalMin := 0
  logicalMax := 32767
  constant := false
  relative := false

/-- The wheel. -/
def wheelField : HidField where
  reportId := dfHidAbsMouse
  usage := (1, some 0x38)
  size := 8
  logicalMin := -127
  logicalMax := 127
  constant := false
  relative := true

/-- The fields of the mouse report. -/
def mouseFields : List HidField :=
  [buttonField 1, buttonField 2, buttonField 3, paddingField, coordinateField 0x30,
    coordinateField 0x31, wheelField]

/-- The mouse part adds its fields and leaves the rest of the reports alone, whatever was read
before it. -/
theorem read_mouseReportDescriptor (p : HidParser) :
    ∃ p', p.read mouseReportDescriptor = some p' ∧ p'.depth = p.depth ∧
      p'.fields = p.fields ++ mouseFields := by
  refine ⟨_, rfl, rfl, ?_⟩
  simp only [List.append_assoc]
  rfl

/-! ## What the host reads -/

/-- The bits of the buttons, then X, Y and the wheel. -/
def TusbActuator.mouseValues (act : TusbActuator) : List (HidField × Int) :=
  [(buttonField 1, (act.mouseButtons.toNat % 2 : Nat)),
    (buttonField 2, (act.mouseButtons.toNat / 2 % 2 : Nat)),
    (buttonField 3, (act.mouseButtons.toNat / 4 % 2 : Nat)),
    (coordinateField 0x30, (toHid act.screenWidth act.targetX).toNat),
    (coordinateField 0x31, (toHid act.screenHeight act.targetY).toNat),
    (wheelField, act.mouseWheel.toInt)]

/-- The six bytes as the fields that the descriptor declares. -/
theorem pack_mouseReport (act : TusbActuator) :
    ∃ report, act.absMouseReport = .absMouse report ∧ report.length = absMouseReportLen ∧
      ofLittleEndian report = pack [(1, act.mouseButtons.toNat % 2),
        (1, act.mouseButtons.toNat / 2 % 2), (1, act.mouseButtons.toNat / 4 % 2),
        (5, act.mouseButtons.toNat / 8),
        (16, (toHid act.screenWidth act.targetX).toNat),
        (16, (toHid act.screenHeight act.targetY).toNat), (8, act.mouseWheel.toUInt8.toNat)] := by
  refine ⟨_, rfl, rfl, ?_⟩
  have hx : (_ : Nat) + 2 ^ 8 * _ = _ := lowHigh_toNat (toHid act.screenWidth act.targetX)
  have hy : (_ : Nat) + 2 ^ 8 * _ = _ := lowHigh_toNat (toHid act.screenHeight act.targetY)
  have hbuttons : ∀ (v : Nat) (rest : List (Nat × Nat)), pack ((8, v) :: rest) =
      pack ((1, v % 2) :: (1, v / 2 % 2) :: (1, v / 4 % 2) :: (5, v / 8) :: rest) := by
    intro v rest
    have hfirst := pack_split 1 7 v rest
    have hsecond := pack_split 1 6 (v / 2) rest
    have hthird := pack_split 1 5 (v / 2 / 2) rest
    rw [Nat.pow_one] at hfirst hsecond hthird
    rw [Nat.div_div_eq_div_mul, Nat.div_div_eq_div_mul] at hthird
    rw [hfirst]
    refine pack_congr ?_
    rw [hsecond]
    refine pack_congr ?_
    rw [Nat.div_div_eq_div_mul]
    exact hthird
  simp only [ofLittleEndian, List.map_cons, List.map_nil]
  rw [← hbuttons]
  refine pack_congr ?_
  rw [pack_join, hx]
  refine pack_congr ?_
  rw [pack_join, hy]

theorem readReport_mouse (act : TusbActuator) {p p' : HidParser}
    (hfree : ∀ f ∈ p.fields, f.reportId ≠ dfHidAbsMouse)
    (hread : p.read mouseReportDescriptor = some p') :
    ∃ report, act.absMouseReport = .absMouse report ∧
      p'.readReport dfHidAbsMouse report = some act.mouseValues := by
  obtain ⟨report, hreport, hlength, hpack⟩ := pack_mouseReport act
  refine ⟨report, hreport, ?_⟩
  obtain ⟨p'', hread', -, hfields⟩ := read_mouseReportDescriptor p
  rw [hread] at hread'
  cases hread'
  have hbefore : p.fields.filter (fun f => f.reportId = dfHidAbsMouse) = [] := by
    rw [List.filter_eq_nil_iff]
    intro f hf
    simpa using hfree f hf
  have hmouse : p'.fields.filter (fun f => f.reportId = dfHidAbsMouse) = mouseFields := by
    rw [hfields, List.filter_append, hbefore]
    rfl
  unfold HidParser.readReport
  simp only [hmouse]
  rw [if_pos (by rw [hlength]; rfl), hpack]
  have hfit : ∀ f ∈ [(1, act.mouseButtons.toNat % 2), (1, act.mouseButtons.toNat / 2 % 2),
      (1, act.mouseButtons.toNat / 4 % 2), (5, act.mouseButtons.toNat / 8),
      (16, (toHid act.screenWidth act.targetX).toNat),
      (16, (toHid act.screenHeight act.targetY).toNat), (8, act.mouseWheel.toUInt8.toNat)],
      f.2 < 2 ^ f.1 := by
    have hb := act.mouseButtons.toNat_lt
    have hx := (toHid act.screenWidth act.targetX).toNat_lt
    have hy := (toHid act.screenHeight act.targetY).toNat_lt
    have hw := act.mouseWheel.toUInt8.toNat_lt
    simp only [List.forall_mem_cons]
    refine ⟨?_, ?_, ?_, ?_, hx, hy, hw, fun _ h => by cases h⟩ <;> omega
  have hvalues := unpack_pack hfit
  have hwidths : mouseFields.map HidField.size = [1, 1, 1, 5, 16, 16, 8] := rfl
  unfold readFields
  rw [hwidths]
  simp only [List.map_cons, List.map_nil] at hvalues
  rw [hvalues]
  simp only [TusbActuator.mouseValues, ← signExtend_eq_toInt]
  rfl

/-- A value in the range that its field declares. -/
def InLogicalRange (f : HidField × Int) : Prop := f.1.logicalMin ≤ f.2 ∧ f.2 ≤ f.1.logicalMax

theorem mouseValues_inLogicalRange {act : TusbActuator}
    (hx : OnScreen act.screenWidth act.targetX) (hy : OnScreen act.screenHeight act.targetY)
    (hwheel : act.mouseWheel ≠ -128) : ∀ f ∈ act.mouseValues, InLogicalRange f := by
  have hbit : ∀ (button n : Nat), InLogicalRange (buttonField button, (n % 2 : Nat)) := by
    intro button n
    have hlt := Nat.mod_lt n Nat.two_pos
    simp only [InLogicalRange, buttonField]
    omega
  have hcoordinate : ∀ {size v : UInt16} (usage : Nat), OnScreen size v →
      InLogicalRange (coordinateField usage, (toHid size v).toNat) := by
    intro size v usage hon
    have hle := toHid_le hon
    simp only [InLogicalRange, coordinateField]
    omega
  have hlow : act.mouseWheel.toInt ≠ -128 := fun h => hwheel (Int8.toInt_inj.mp h)
  have hmin := act.mouseWheel.le_toInt
  have hmax := act.mouseWheel.toInt_lt
  simp only [TusbActuator.mouseValues, List.forall_mem_cons]
  refine ⟨hbit 1 _, hbit 2 _, hbit 3 _, hcoordinate 0x30 hx, hcoordinate 0x31 hy, ?_,
    fun _ h => by cases h⟩
  simp only [InLogicalRange, wheelField]
  omega

/-- What the host reads out of the six bytes is what the device means by them: for every state of
the actuator, and whatever descriptor is in front of the mouse part and does not use its report
id.  With the target on the screen all of it is in the ranges declared. -/
theorem host_reads_mouse_report (act : TusbActuator) {p p' : HidParser}
    (hfree : ∀ f ∈ p.fields, f.reportId ≠ dfHidAbsMouse)
    (hread : p.read mouseReportDescriptor = some p') :
    (∃ report, act.absMouseReport = .absMouse report ∧
      p'.readReport dfHidAbsMouse report = some act.mouseValues) ∧
    (OnScreen act.screenWidth act.targetX → OnScreen act.screenHeight act.targetY →
      act.mouseWheel ≠ -128 → ∀ f ∈ act.mouseValues, InLogicalRange f) :=
  ⟨readReport_mouse act hfree hread, mouseValues_inLogicalRange⟩

/-- The pointer at the last pixel with the left button down and the wheel turned back. -/
def cornerAct : TusbActuator :=
  { tusbActuatorInit 1920 1080 with
    targetX := 1919
    targetY := 1079
    mouseButtons := 1
    mouseWheel := -3 }

theorem host_reads_mouse_report_corner :
    ∃ p' report, HidParser.start.read mouseReportDescriptor = some p' ∧
      cornerAct.absMouseReport = .absMouse report ∧
      p'.readReport dfHidAbsMouse report = some [(buttonField 1, 1), (buttonField 2, 0),
        (buttonField 3, 0), (coordinateField 0x30, 32767), (coordinateField 0x31, 32767),
        (wheelField, -3)] ∧
      ∀ f ∈ cornerAct.mouseValues, InLogicalRange f := by
  obtain ⟨p', hread, -⟩ := read_mouseReportDescriptor HidParser.start
  have hfree : ∀ f ∈ HidParser.start.fields, f.reportId ≠ dfHidAbsMouse := by decide
  obtain ⟨⟨report, hreport, hvalues⟩, hrange⟩ := host_reads_mouse_report cornerAct hfree hread
  refine ⟨p', report, hread, hreport, ?_, hrange (.inr ?_) (.inr ?_) ?_⟩
  · rw [hvalues]
    decide +kernel
  · decide
  · decide
  · decide

end Esp32Deskflow.Tusb
