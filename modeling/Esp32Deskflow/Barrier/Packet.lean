/-
  Barrier/Packet.lean --- `barrier_packet.h` and `barrier_packet.c`: the packet
  type, the parser and the serializer of the Barrier protocol.

  `packet_t` is a type tag over a union of structures.  The parser and the
  serializer touch only the union member that the tag selects, so a packet is
  modelled as an inductive type whose constructors carry that member.

  Both functions return `none` when they would touch memory outside of the buffer
  they are given.  The result of the parser is the `esp_err_t` or the packet it
  fills in; the serializer returns the `esp_err_t`, the buffer and `*out_len`.
-/
import Esp32Deskflow.Barrier.Io
import Esp32Deskflow.Foundation.EspErr

set_option autoImplicit false

namespace Esp32Deskflow.Barrier

open Esp32Deskflow.Foundation

/-! ## `packet_t` -/

/-- `packet_type_t`. -/
inductive PacketType where
  | qinf | dinf | ciak | calv | cnop | cinn | cout | dmmv | dmrm | dmup | dmdn | dmwm
  | dkup | dkdn | dkrp | cclp | dclp | cbye | eunk | ebsy | ebad | eicv | crop | dsop
  | unknown
  deriving DecidableEq, Repr, Inhabited

/-- Union member `mouse_move_abs`. -/
structure MouseMoveAbs where
  x : UInt16
  y : UInt16
  deriving DecidableEq, Repr, Inhabited

/-- Union member `mouse_move_rel`. -/
structure MouseMoveRel where
  dx : Int16
  dy : Int16
  deriving DecidableEq, Repr, Inhabited

/-- Union members `mouse_up` and `mouse_down`. -/
structure MouseButton where
  id : Int8
  deriving DecidableEq, Repr, Inhabited

/-- Union member `mouse_wheel`. -/
structure MouseWheel where
  dx : Int16
  dy : Int16
  deriving DecidableEq, Repr, Inhabited

/-- Union member `cursor_enter`. -/
structure CursorEnter where
  x : UInt16
  y : UInt16
  seq : UInt32
  mask : UInt16
  deriving DecidableEq, Repr, Inhabited

/-- Union members `key_up` and `key_down`. -/
structure Key where
  id : UInt16
  mask : UInt16
  button : UInt16
  deriving DecidableEq, Repr, Inhabited

/-- Union member `key_repeat`. -/
structure KeyRepeat where
  id : UInt16
  mask : UInt16
  count : UInt16
  button : UInt16
  deriving DecidableEq, Repr, Inhabited

/-- Union member `device_info`. -/
structure DeviceInfo where
  x : UInt16
  y : UInt16
  w : UInt16
  h : UInt16
  dummy : UInt16
  mx : UInt16
  my : UInt16
  deriving DecidableEq, Repr, Inhabited

/-- Union member `clipboard`. -/
structure Clipboard where
  id : UInt8
  seq : UInt32
  deriving DecidableEq, Repr, Inhabited

/-- Union member `incompatible`. -/
structure Incompatible where
  major : UInt16
  minor : UInt16
  deriving DecidableEq, Repr, Inhabited

/-- `packet_t`. -/
inductive Packet where
  | qinf
  | dinf (deviceInfo : DeviceInfo)
  | ciak
  | calv
  | cnop
  | cinn (cursorEnter : CursorEnter)
  | cout
  | dmmv (mouseMoveAbs : MouseMoveAbs)
  | dmrm (mouseMoveRel : MouseMoveRel)
  | dmup (mouseUp : MouseButton)
  | dmdn (mouseDown : MouseButton)
  | dmwm (mouseWheel : MouseWheel)
  | dkup (keyUp : Key)
  | dkdn (keyDown : Key)
  | dkrp (keyRepeat : KeyRepeat)
  | cclp (clipboard : Clipboard)
  | dclp (clipboard : Clipboard)
  | cbye
  | eunk
  | ebsy
  | ebad
  | eicv (incompatible : Incompatible)
  | crop
  | dsop
  | unknown
  deriving DecidableEq, Repr, Inhabited

/-- The field `type`. -/
def Packet.type : Packet → PacketType
  | .qinf => .qinf
  | .dinf _ => .dinf
  | .ciak => .ciak
  | .calv => .calv
  | .cnop => .cnop
  | .cinn _ => .cinn
  | .cout => .cout
  | .dmmv _ => .dmmv
  | .dmrm _ => .dmrm
  | .dmup _ => .dmup
  | .dmdn _ => .dmdn
  | .dmwm _ => .dmwm
  | .dkup _ => .dkup
  | .dkdn _ => .dkdn
  | .dkrp _ => .dkrp
  | .cclp _ => .cclp
  | .dclp _ => .dclp
  | .cbye => .cbye
  | .eunk => .eunk
  | .ebsy => .ebsy
  | .ebad => .ebad
  | .eicv _ => .eicv
  | .crop => .crop
  | .dsop => .dsop
  | .unknown => .unknown

/-! ## Codes -/

/-- `BARRIER_CODE_LEN`. -/
def barrierCodeLen : Nat := 4

/-- `BARRIER_HEADER_LEN`: the 32-bit length and the 4-byte code. -/
def barrierHeaderLen : Nat := 4 + barrierCodeLen

/-- `code_to_type`. -/
def codeToType (code : Bytes) : PacketType :=
  if code = ascii "QINF" then .qinf
  else if code = ascii "DINF" then .dinf
  else if code = ascii "CIAK" then .ciak
  else if code = ascii "CALV" then .calv
  else if code = ascii "CNOP" then .cnop
  else if code = ascii "CINN" then .cinn
  else if code = ascii "COUT" then .cout
  else if code = ascii "DMMV" then .dmmv
  else if code = ascii "DMRM" then .dmrm
  else if code = ascii "DMUP" then .dmup
  else if code = ascii "DMDN" then .dmdn
  else if code = ascii "DMWM" then .dmwm
  else if code = ascii "DKUP" then .dkup
  else if code = ascii "DKDN" then .dkdn
  else if code = ascii "DKRP" then .dkrp
  else if code = ascii "CCLP" then .cclp
  else if code = ascii "DCLP" then .dclp
  else if code = ascii "CBYE" then .cbye
  else if code = ascii "EUNK" then .eunk
  else if code = ascii "EBSY" then .ebsy
  else if code = ascii "EBAD" then .ebad
  else if code = ascii "EICV" then .eicv
  else if code = ascii "CROP" then .crop
  else if code = ascii "DSOP" then .dsop
  else .unknown

/-- `type_to_code`. -/
def typeToCode : PacketType → Bytes
  | .qinf => ascii "QINF"
  | .dinf => ascii "DINF"
  | .ciak => ascii "CIAK"
  | .calv => ascii "CALV"
  | .cnop => ascii "CNOP"
  | .cinn => ascii "CINN"
  | .cout => ascii "COUT"
  | .dmmv => ascii "DMMV"
  | .dmrm => ascii "DMRM"
  | .dmup => ascii "DMUP"
  | .dmdn => ascii "DMDN"
  | .dmwm => ascii "DMWM"
  | .dkup => ascii "DKUP"
  | .dkdn => ascii "DKDN"
  | .dkrp => ascii "DKRP"
  | .cclp => ascii "CCLP"
  | .dclp => ascii "DCLP"
  | .cbye => ascii "CBYE"
  | .eunk => ascii "EUNK"
  | .ebsy => ascii "EBSY"
  | .ebad => ascii "EBAD"
  | .eicv => ascii "EICV"
  | .crop => ascii "CROP"
  | .dsop => ascii "DSOP"
  | .unknown => ascii "????"

/-! ## `packet_parse` -/

/-- Copy out the `n` bytes at `off`. -/
def loadBlock (buf : Bytes) (off n : Nat) : Option Bytes :=
  if off + n ≤ buf.length then some ((buf.drop off).take n) else none

/-- The data part of `packet_parse`: `data` is the offset of the payload data and
`dataLen` the length announced by the prefix. -/
def parseData (buf : Bytes) (data dataLen : Nat) : PacketType → Option (Except EspErr Packet)
  | .qinf => some (.ok .qinf)
  | .ciak => some (.ok .ciak)
  | .calv => some (.ok .calv)
  | .cnop => some (.ok .cnop)
  | .cout => some (.ok .cout)
  | .cbye => some (.ok .cbye)
  | .eunk => some (.ok .eunk)
  | .ebsy => some (.ok .ebsy)
  | .ebad => some (.ok .ebad)
  | .crop => some (.ok .crop)
  | .dinf => if dataLen < 14 then some (.error .invalidSize) else do
      let x ← ioReadU16Be buf data
      let y ← ioReadU16Be buf (data + 2)
      let w ← ioReadU16Be buf (data + 4)
      let h ← ioReadU16Be buf (data + 6)
      let dummy ← ioReadU16Be buf (data + 8)
      let mx ← ioReadU16Be buf (data + 10)
      let my ← ioReadU16Be buf (data + 12)
      return .ok (.dinf { x, y, w, h, dummy, mx, my })
  | .dmmv => if dataLen < 4 then some (.error .invalidSize) else do
      let x ← ioReadU16Be buf data
      let y ← ioReadU16Be buf (data + 2)
      return .ok (.dmmv { x, y })
  | .dmrm => if dataLen < 4 then some (.error .invalidSize) else do
      let dx ← ioReadI16Be buf data
      let dy ← ioReadI16Be buf (data + 2)
      return .ok (.dmrm { dx, dy })
  | .dmup => if dataLen < 1 then some (.error .invalidSize) else do
      let id ← ioReadI8 buf data
      return .ok (.dmup { id })
  | .dmdn => if dataLen < 1 then some (.error .invalidSize) else do
      let id ← ioReadI8 buf data
      return .ok (.dmdn { id })
  | .dmwm => if dataLen < 4 then some (.error .invalidSize) else do
      let dx ← ioReadI16Be buf data
      let dy ← ioReadI16Be buf (data + 2)
      return .ok (.dmwm { dx, dy })
  | .cinn => if dataLen < 10 then some (.error .invalidSize) else do
      let x ← ioReadU16Be buf data
      let y ← ioReadU16Be buf (data + 2)
      let seq ← ioReadU32Be buf (data + 4)
      let mask ← ioReadU16Be buf (data + 8)
      return .ok (.cinn { x, y, seq, mask })
  | .dkup => if dataLen < 6 then some (.error .invalidSize) else do
      let id ← ioReadU16Be buf data
      let mask ← ioReadU16Be buf (data + 2)
      let button ← ioReadU16Be buf (data + 4)
      return .ok (.dkup { id, mask, button })
  | .dkdn => if dataLen < 6 then some (.error .invalidSize) else do
      let id ← ioReadU16Be buf data
      let mask ← ioReadU16Be buf (data + 2)
      let button ← ioReadU16Be buf (data + 4)
      return .ok (.dkdn { id, mask, button })
  | .dkrp => if dataLen < 8 then some (.error .invalidSize) else do
      let id ← ioReadU16Be buf data
      let mask ← ioReadU16Be buf (data + 2)
      let count ← ioReadU16Be buf (data + 4)
      let button ← ioReadU16Be buf (data + 6)
      return .ok (.dkrp { id, mask, count, button })
  -- The clipboard fields of `CCLP` are validated but not recorded: they keep the zeros
  -- that `packet_parse` clears its output with.
  | .cclp => if dataLen < 5 then some (.error .invalidSize)
      else some (.ok (.cclp { id := 0, seq := 0 }))
  | .dclp => if dataLen < 5 then some (.error .invalidSize) else do
      let id ← load buf data
      let seq ← ioReadU32Be buf (data + 1)
      return .ok (.dclp { id, seq })
  | .eicv => if dataLen < 4 then some (.error .invalidSize) else do
      let major ← ioReadU16Be buf data
      let minor ← ioReadU16Be buf (data + 2)
      return .ok (.eicv { major, minor })
  | .dsop => some (.ok .dsop)
  | .unknown => some (.ok .unknown)

/-- `packet_parse`: `none` if it reads outside of the buffer. -/
def packetParse (buf : Bytes) (len : Nat) : Option (Except EspErr Packet) :=
  if len < barrierHeaderLen then some (.error .invalidSize) else do
    let payloadLen ← ioReadU32Be buf 0
    let code ← loadBlock buf 4 barrierCodeLen
    let dataLen :=
      if barrierCodeLen ≤ payloadLen.toNat then payloadLen.toNat - barrierCodeLen else 0
    parseData buf barrierHeaderLen dataLen (codeToType code)

/-! ## `packet_serialize` -/

/-- The first switch of `packet_serialize`: the length it announces for the data.
The 12 bytes of `CINN` are the source's, whose comment lists 2 + 2 + 4 + 2. -/
def payloadDataLen : PacketType → Nat
  | .qinf | .ciak | .calv | .cnop | .cout | .cbye | .eunk | .ebsy | .ebad | .crop => 0
  | .dinf => 14
  | .dmmv => 4
  | .dmrm | .dmwm => 4
  | .dmup | .dmdn => 1
  | .cinn => 12
  | .dkup | .dkdn => 6
  | .dkrp => 8
  | .cclp | .dclp => 5
  | .eicv => 4
  | .dsop => 0
  | .unknown => 0

/-- The second switch of `packet_serialize`: the data it writes at `data`. -/
def writeData (buf : Bytes) (data : Nat) : Packet → Option Bytes
  | .dinf d => do
      let buf ← ioWriteU16Be buf data d.x
      let buf ← ioWriteU16Be buf (data + 2) d.y
      let buf ← ioWriteU16Be buf (data + 4) d.w
      let buf ← ioWriteU16Be buf (data + 6) d.h
      let buf ← ioWriteU16Be buf (data + 8) d.dummy
      let buf ← ioWriteU16Be buf (data + 10) d.mx
      ioWriteU16Be buf (data + 12) d.my
  | .dmmv m => do
      let buf ← ioWriteU16Be buf data m.x
      ioWriteU16Be buf (data + 2) m.y
  | .dmrm m => do
      let buf ← ioWriteI16Be buf data m.dx
      ioWriteI16Be buf (data + 2) m.dy
  | .dmup m => store buf data m.id.toUInt8
  | .dmdn m => store buf data m.id.toUInt8
  | .dmwm m => do
      let buf ← ioWriteI16Be buf data m.dx
      ioWriteI16Be buf (data + 2) m.dy
  | .cinn c => do
      let buf ← ioWriteU16Be buf data c.x
      let buf ← ioWriteU16Be buf (data + 2) c.y
      let buf ← ioWriteU32Be buf (data + 4) c.seq
      ioWriteU16Be buf (data + 8) c.mask
  | .dkup k => do
      let buf ← ioWriteU16Be buf data k.id
      let buf ← ioWriteU16Be buf (data + 2) k.mask
      ioWriteU16Be buf (data + 4) k.button
  | .dkdn k => do
      let buf ← ioWriteU16Be buf data k.id
      let buf ← ioWriteU16Be buf (data + 2) k.mask
      ioWriteU16Be buf (data + 4) k.button
  | .dkrp k => do
      let buf ← ioWriteU16Be buf data k.id
      let buf ← ioWriteU16Be buf (data + 2) k.mask
      let buf ← ioWriteU16Be buf (data + 4) k.count
      ioWriteU16Be buf (data + 6) k.button
  | .cclp c => do
      let buf ← store buf data c.id
      ioWriteU32Be buf (data + 1) c.seq
  | .dclp c => do
      let buf ← store buf data c.id
      ioWriteU32Be buf (data + 1) c.seq
  | .eicv i => do
      let buf ← ioWriteU16Be buf data i.major
      ioWriteU16Be buf (data + 2) i.minor
  | .qinf | .ciak | .calv | .cnop | .cout | .cbye | .eunk | .ebsy | .ebad | .crop | .dsop
  | .unknown => some buf

/-- `packet_serialize`: its result, the buffer and the length afterwards; `none` if it writes
outside of the buffer. -/
def packetSerialize (pkt : Packet) (buf : Bytes) (outLen : Nat) :
    Option (EspErr × Bytes × Nat) :=
  if outLen < barrierHeaderLen + payloadDataLen pkt.type then some (.noMem, buf, outLen) else do
    let totalPayload := (barrierCodeLen + payloadDataLen pkt.type).toUInt32
    let buf ← ioWriteU32Be buf 0 totalPayload
    let buf ← storeAll buf 4 (typeToCode pkt.type)
    let buf ← writeData buf barrierHeaderLen pkt
    return (.ok, buf, barrierHeaderLen + payloadDataLen pkt.type)

/-! ## Codes and types determine each other -/

@[simp] theorem typeToCode_length (t : PacketType) : (typeToCode t).length = barrierCodeLen := by
  cases t <;> rfl

theorem codeToType_typeToCode {t : PacketType} : codeToType (typeToCode t) = t := by
  cases t <;> decide

/-- One comparison of `codeToType`: if the rest of the chain recognises codes
correctly, so does the chain with one more code in front. -/
theorem typeToCode_ite {code c : Bytes} {t rest : PacketType} (hc : typeToCode t = c)
    (hrest : rest ≠ .unknown → typeToCode rest = code) :
    (if code = c then t else rest) ≠ .unknown →
      typeToCode (if code = c then t else rest) = code := by
  by_cases heq : code = c
  · rw [if_pos heq, heq]
    exact fun _ => hc
  · rw [if_neg heq]
    exact hrest

/-- A code with a known type is the code of that type. -/
theorem typeToCode_codeToType {code : Bytes} :
    codeToType code ≠ .unknown → typeToCode (codeToType code) = code := by
  unfold codeToType
  iterate 24 refine typeToCode_ite rfl ?_
  exact fun h => absurd rfl h

end Esp32Deskflow.Barrier
