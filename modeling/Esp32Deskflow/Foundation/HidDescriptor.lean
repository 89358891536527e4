/-
  Foundation/HidDescriptor.lean --- how a host reads a HID report descriptor.

  A descriptor is a sequence of short items.  Global items stay in force, local ones up
  to the next main item, and an INPUT item adds its fields to the reports of the report
  id in force.  A report is then read field by field, without those that are constant.

  Push, pop and long items are not read.
-/
import Esp32Deskflow.Foundation.BitFields
import Mathlib.Algebra.GroupWithZero.Nat

set_option autoImplicit false

namespace Esp32Deskflow.Foundation

/-! ## Items -/

/-- A short item: type and tag from its first byte, and its data. -/
structure HidItem where
  type : Nat
  tag : Nat
  data : Bytes
  deriving DecidableEq, Repr

/-- The data as an unsigned number. -/
def HidItem.unsigned (item : HidItem) : Nat := ofLittleEndian item.data

/-- The data as a signed number. -/
def HidItem.signed (item : HidItem) : Int := signExtend (8 * item.data.length) item.unsigned

/-- The item that starts with this byte. -/
def hidItem (first : UInt8) (data : Bytes) : HidItem where
  type := first.toNat / 4 % 4
  tag := first.toNat / 16
  data := data

/-- The items of a descriptor; `none` is one that ends within an item. -/
def hidItems : Bytes → Option (List HidItem)
  | [] => some []
  | first :: rest =>
      match first.toNat % 4, rest with
      | 0, rest => (hidItems rest).map fun items => hidItem first [] :: items
      | 1, a :: rest => (hidItems rest).map fun items => hidItem first [a] :: items
      | 2, a :: b :: rest => (hidItems rest).map fun items => hidItem first [a, b] :: items
      | 3, a :: b :: c :: d :: rest =>
          (hidItems rest).map fun items => hidItem first [a, b, c, d] :: items
      | _, _ => none

/-! ## Fields -/

/-- A field of a report. -/
structure HidField where
  reportId : Nat
  /-- usage page and usage -/
  usage : Nat × Option Nat
  size : Nat
  logicalMin : Int
  logicalMax : Int
  constant : Bool
  relative : Bool
  deriving DecidableEq, Repr

/-- The state in which an item is read. -/
structure HidParser where
  usagePage : Nat
  logicalMin : Int
  logicalMax : Int
  reportSize : Nat
  reportCount : Nat
  reportId : Nat
  /-- the usages since the last main item -/
  usages : List Nat
  usageMin : Nat
  /-- open collections -/
  depth : Nat
  fields : List HidField
  deriving DecidableEq, Repr

/-- The state before a descriptor. -/
def HidParser.start : HidParser where
  usagePage := 0
  logicalMin := 0
  logicalMax := 0
  reportSize := 0
  reportCount := 0
  reportId := 0
  usages := []
  usageMin := 0
  depth := 0
  fields := []

/-- The usage of the field with this index; the last usage goes for all that follow. -/
def HidParser.usageAt (p : HidParser) (i : Nat) : Option Nat :=
  match p.usages[i]? with
  | some usage => some usage
  | none => p.usages.getLast?

/-- The fields of an INPUT item with these flags. -/
def HidParser.inputFields (p : HidParser) (flags : Nat) : List HidField :=
  (List.range p.reportCount).map fun i =>
    { reportId := p.reportId
      usage := (p.usagePage, p.usageAt i)
      size := p.reportSize
      logicalMin := p.logicalMin
      logicalMax := p.logicalMax
      constant := flags % 2 = 1
      relative := flags / 4 % 2 = 1 }

/-- Local items end with a main item. -/
def HidParser.endLocals (p : HidParser) : HidParser := { p with usages := [], usageMin := 0 }

/-- An item; `none` is one that is not read. -/
def HidParser.item (p : HidParser) (item : HidItem) : Option HidParser :=
  match item.type, item.tag with
  | 0, 8 => some { p.endLocals with fields := p.fields ++ p.inputFields item.unsigned }
  | 0, 10 => some { p.endLocals with depth := p.depth + 1 }
  | 0, 12 => if p.depth = 0 then none else some { p.endLocals with depth := p.depth - 1 }
  | 1, 0 => some { p with usagePage := item.unsigned }
  | 1, 1 => some { p with logicalMin := item.signed }
  | 1, 2 => some { p with logicalMax := item.signed }
  | 1, 7 => some { p with reportSize := item.unsigned }
  | 1, 8 => some { p with reportId := item.unsigned }
  | 1, 9 => some { p with reportCount := item.unsigned }
  | 2, 0 => some { p with usages := p.usages ++ [item.unsigned] }
  | 2, 1 => some { p with usageMin := item.unsigned }
  | 2, 2 =>
      some { p with
        usages := p.usages ++
          (List.range (item.unsigned + 1 - p.usageMin)).map fun i => p.usageMin + i }
  | _, _ => none

/-- A part of a descriptor. -/
def HidParser.read (p : HidParser) (descriptor : Bytes) : Option HidParser :=
  (hidItems descriptor).bind fun items => items.foldlM HidParser.item p

/-! ## Reports -/

/-- What the host reads from a field. -/
def HidField.value (field : HidField) (n : Nat) : Int :=
  if field.logicalMin < 0 then signExtend field.size n else n

/-- The values of the fields that are not constant. -/
def readFields (fields : List HidField) (n : Nat) : List (HidField × Int) :=
  (fields.zip (unpack (fields.map HidField.size) n)).filterMap fun f =>
    if f.1.constant then none else some (f.1, f.1.value f.2)

/-- A report with this id; `none` if its length is not the one declared. -/
def HidParser.readReport (p : HidParser) (reportId : Nat) (report : Bytes) :
    Option (List (HidField × Int)) :=
  let fields := p.fields.filter fun f => f.reportId = reportId
  if (fields.map HidField.size).sum = 8 * report.length then
    some (readFields fields (ofLittleEndian report))
  else none

end Esp32Deskflow.Foundation
