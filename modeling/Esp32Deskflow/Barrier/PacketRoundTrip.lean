/-
  Barrier/PacketRoundTrip.lean --- the parser and the serializer against each
  other.

  WHAT THIS FILE IS FOR.  `packet_parse` and `packet_serialize` are two
  hand-written switches with their own length tables and offsets.  Here both are
  related to one description of a frame, `dataBytes`: the data bytes that the
  serializer writes for a packet, and that the parser reads back.

  THE TWO DIRECTIONS.  Parsing what was serialized returns the packet, for every
  type but `UNKNOWN` and `CCLP`.  Serializing what was parsed returns the frame,
  for every type but `CINN`, whose announced length is two bytes more than the
  parser asks for.
-/
import Esp32Deskflow.Barrier.Packet

set_option autoImplicit false

namespace Esp32Deskflow.Barrier

open Esp32Deskflow.Foundation

/-! ## The data bytes of a packet -/

/-- The bytes `packet_serialize` writes after the header. -/
def dataBytes : Packet → Bytes
  | .dinf d => u16Bytes d.x ++ (u16Bytes d.y ++ (u16Bytes d.w ++ (u16Bytes d.h ++
      (u16Bytes d.dummy ++ (u16Bytes d.mx ++ u16Bytes d.my)))))
  | .dmmv m => u16Bytes m.x ++ u16Bytes m.y
  | .dmrm m => u16Bytes m.dx.toUInt16 ++ u16Bytes m.dy.toUInt16
  | .dmup m => [m.id.toUInt8]
  | .dmdn m => [m.id.toUInt8]
  | .dmwm m => u16Bytes m.dx.toUInt16 ++ u16Bytes m.dy.toUInt16
  | .cinn c => u16Bytes c.x ++ (u16Bytes c.y ++ (u32Bytes c.seq ++ u16Bytes c.mask))
  | .dkup k => u16Bytes k.id ++ (u16Bytes k.mask ++ u16Bytes k.button)
  | .dkdn k => u16Bytes k.id ++ (u16Bytes k.mask ++ u16Bytes k.button)
  | .dkrp k => u16Bytes k.id ++ (u16Bytes k.mask ++ (u16Bytes k.count ++ u16Bytes k.button))
  | .cclp c => [c.id] ++ u32Bytes c.seq
  | .dclp c => [c.id] ++ u32Bytes c.seq
  | .eicv i => u16Bytes i.major ++ u16Bytes i.minor
  | .qinf | .ciak | .calv | .cnop | .cout | .cbye | .eunk | .ebsy | .ebad | .crop | .dsop
  | .unknown => []

/-- The least data length that `packet_parse` accepts for a type. -/
def requiredDataLen : PacketType → Nat
  | .dinf => 14
  | .cinn => 10
  | .dkrp => 8
  | .dkup | .dkdn => 6
  | .cclp | .dclp => 5
  | .dmmv | .dmrm | .dmwm | .eicv => 4
  | .dmup | .dmdn => 1
  | .qinf | .ciak | .calv | .cnop | .cout | .cbye | .eunk | .ebsy | .ebad | .crop | .dsop
  | .unknown => 0

theorem dataBytes_length (pkt : Packet) : (dataBytes pkt).length = requiredDataLen pkt.type := by
  cases pkt <;> rfl

/-- The serializer announces what the parser requires, for every type but `CINN`. -/
theorem payloadDataLen_eq {t : PacketType} (h : t ≠ .cinn) :
    payloadDataLen t = requiredDataLen t := by
  cases t <;> first | rfl | exact absurd rfl h

theorem requiredDataLen_le (t : PacketType) : requiredDataLen t ≤ payloadDataLen t := by
  cases t <;> decide

theorem payloadDataLen_le (t : PacketType) : payloadDataLen t ≤ 14 := by
  cases t <;> decide

theorem writeData_eq (buf : Bytes) (data : Nat) (pkt : Packet) :
    writeData buf data pkt = storeAll buf data (dataBytes pkt) := by
  cases pkt <;>
    simp only [writeData, dataBytes, ioWriteU16Be_eq, ioWriteI16Be_eq, ioWriteU32Be_eq,
      store_eq_storeAll, storeAll_append_block, u16Bytes_length, u32Bytes_length,
      List.length_singleton, Option.bind_eq_bind, Nat.add_assoc, Nat.reduceAdd]
  all_goals rfl

/-! ## The serialized frame -/

/-- Length prefix and code, as `packet_serialize` writes them. -/
def frameHeader (t : PacketType) : Bytes :=
  u32Bytes (barrierCodeLen + payloadDataLen t).toUInt32 ++ typeToCode t

theorem frameHeader_length (t : PacketType) : (frameHeader t).length = barrierHeaderLen := by
  simp [frameHeader, barrierHeaderLen, barrierCodeLen]

/-- With room for the frame, `packet_serialize` writes the header and the data bytes
over the front of the buffer and leaves the rest of it alone. -/
theorem packetSerialize_eq {pkt : Packet} {buf : Bytes} {cap : Nat}
    (hcap : barrierHeaderLen + payloadDataLen pkt.type ≤ cap) (hbuf : cap ≤ buf.length) :
    packetSerialize pkt buf cap =
      some (.ok, frameHeader pkt.type ++ (dataBytes pkt ++
          buf.drop (barrierHeaderLen + (dataBytes pkt).length)),
        barrierHeaderLen + payloadDataLen pkt.type) := by
  have hlen := dataBytes_length pkt
  have hle := requiredDataLen_le pkt.type
  have hhead := frameHeader_length pkt.type
  -- The three writes are one block store at the start of the buffer.
  have hblock : ∀ m : Bytes,
      ((ioWriteU32Be m 0 (barrierCodeLen + payloadDataLen pkt.type).toUInt32).bind fun m =>
        (storeAll m 4 (typeToCode pkt.type)).bind fun m => writeData m barrierHeaderLen pkt) =
      storeAll m 0 (frameHeader pkt.type ++ dataBytes pkt) := by
    intro m
    simp only [frameHeader, storeAll_append_block, List.append_assoc, u32Bytes_length,
      typeToCode_length, writeData_eq, ioWriteU32Be_eq, Nat.zero_add]
    rfl
  have hroom : 0 + (frameHeader pkt.type ++ dataBytes pkt).length ≤ buf.length := by
    rw [List.length_append]; omega
  have hstore := storeAll_eq buf 0 (frameHeader pkt.type ++ dataBytes pkt) hroom
  rw [← hblock] at hstore
  have hfit : ¬ cap < barrierHeaderLen + payloadDataLen pkt.type := by omega
  simp only [packetSerialize, if_neg hfit, Option.bind_eq_bind]
  simp only [← Option.bind_assoc] at hstore ⊢
  rw [hstore]
  simp [hhead]

/-! ## Reading the data back -/

section Parsing

variable (front m : Bytes)

theorem ioReadU16Be_append (i : Nat) :
    ioReadU16Be (front ++ m) (front.length + i) = ioReadU16Be m i := by
  simp only [ioReadU16Be, Nat.add_assoc, load_append_right]

theorem ioReadI16Be_append (i : Nat) :
    ioReadI16Be (front ++ m) (front.length + i) = ioReadI16Be m i := by
  simp only [ioReadI16Be, ioReadU16Be_append]

theorem ioReadU32Be_append (i : Nat) :
    ioReadU32Be (front ++ m) (front.length + i) = ioReadU32Be m i := by
  simp only [ioReadU32Be, Nat.add_assoc, load_append_right]

/-- The data part of the parser looks only at the bytes from `data` on. -/
theorem parseData_append (dataLen : Nat) (t : PacketType) :
    parseData (front ++ m) front.length dataLen t = parseData m 0 dataLen t := by
  have h16 := ioReadU16Be_append front m 0
  have hi16 := ioReadI16Be_append front m 0
  have h8 := load_append_right front m 0
  rw [Nat.add_zero] at h16 hi16 h8
  cases t <;>
    simp only [parseData, ioReadI8, h16, hi16, h8, ioReadU16Be_append, ioReadI16Be_append,
      ioReadU32Be_append, Nat.zero_add]

end Parsing

/-- The parser recovers a packet from its data bytes, whatever follows them. -/
theorem parseData_dataBytes {pkt : Packet} (rest : Bytes) {dataLen : Nat}
    (hclip : pkt.type ≠ .cclp) (hlen : requiredDataLen pkt.type ≤ dataLen) :
    parseData (dataBytes pkt ++ rest) 0 dataLen pkt.type = some (.ok pkt) := by
  have hfit : ∀ n, n = requiredDataLen pkt.type → ¬ dataLen < n := by
    intro n hn; omega
  cases pkt with
  | dinf d =>
      obtain ⟨_, _, hx, ex⟩ := u16Bytes_split d.x
      obtain ⟨_, _, hy, ey⟩ := u16Bytes_split d.y
      obtain ⟨_, _, hw, ew⟩ := u16Bytes_split d.w
      obtain ⟨_, _, hh, eh⟩ := u16Bytes_split d.h
      obtain ⟨_, _, hdummy, edummy⟩ := u16Bytes_split d.dummy
      obtain ⟨_, _, hmx, emx⟩ := u16Bytes_split d.mx
      obtain ⟨_, _, hmy, emy⟩ := u16Bytes_split d.my
      simp [parseData, Packet.type, dataBytes, ioReadU16Be, hfit 14 rfl, hx, hy, hw, hh, hdummy,
        hmx, hmy, ex, ey, ew, eh, edummy, emx, emy]
  | dmmv m =>
      obtain ⟨_, _, hx, ex⟩ := u16Bytes_split m.x
      obtain ⟨_, _, hy, ey⟩ := u16Bytes_split m.y
      simp [parseData, Packet.type, dataBytes, ioReadU16Be, hfit 4 rfl, hx, hy, ex, ey]
  | dmrm m | dmwm m =>
      obtain ⟨_, _, hx, ex⟩ := u16Bytes_split m.dx.toUInt16
      obtain ⟨_, _, hy, ey⟩ := u16Bytes_split m.dy.toUInt16
      simp [parseData, Packet.type, dataBytes, ioReadI16Be, ioReadU16Be, hfit 4 rfl, hx, hy, ex, ey]
  | dmup m | dmdn m =>
      simp [parseData, Packet.type, dataBytes, ioReadI8, hfit 1 rfl]
  | cinn c =>
      obtain ⟨_, _, hx, ex⟩ := u16Bytes_split c.x
      obtain ⟨_, _, hy, ey⟩ := u16Bytes_split c.y
      obtain ⟨_, _, _, _, hseq, eseq⟩ := u32Bytes_split c.seq
      obtain ⟨_, _, hmask, emask⟩ := u16Bytes_split c.mask
      simp [parseData, Packet.type, dataBytes, ioReadU16Be, ioReadU32Be, hfit 10 rfl, hx, hy, hseq,
        hmask, ex, ey, eseq, emask]
  | dkup k | dkdn k =>
      obtain ⟨_, _, hid, eid⟩ := u16Bytes_split k.id
      obtain ⟨_, _, hmask, emask⟩ := u16Bytes_split k.mask
      obtain ⟨_, _, hbutton, ebutton⟩ := u16Bytes_split k.button
      simp [parseData, Packet.type, dataBytes, ioReadU16Be, hfit 6 rfl, hid, hmask, hbutton, eid,
        emask, ebutton]
  | dkrp k =>
      obtain ⟨_, _, hid, eid⟩ := u16Bytes_split k.id
      obtain ⟨_, _, hmask, emask⟩ := u16Bytes_split k.mask
      obtain ⟨_, _, hcount, ecount⟩ := u16Bytes_split k.count
      obtain ⟨_, _, hbutton, ebutton⟩ := u16Bytes_split k.button
      simp [parseData, Packet.type, dataBytes, ioReadU16Be, hfit 8 rfl, hid, hmask, hcount,
        hbutton, eid, emask, ecount, ebutton]
  | dclp c =>
      obtain ⟨_, _, _, _, hseq, eseq⟩ := u32Bytes_split c.seq
      simp [parseData, Packet.type, dataBytes, ioReadU32Be, hfit 5 rfl, hseq, eseq]
  | eicv i =>
      obtain ⟨_, _, hmajor, emajor⟩ := u16Bytes_split i.major
      obtain ⟨_, _, hminor, eminor⟩ := u16Bytes_split i.minor
      simp [parseData, Packet.type, dataBytes, ioReadU16Be, hfit 4 rfl, hmajor, hminor, emajor,
        eminor]
  | cclp c => exact absurd rfl hclip
  | qinf | ciak | calv | cnop | cout | cbye | eunk | ebsy | ebad | crop | dsop | unknown => rfl

/-! ## Whole frames -/

/-- The parser splits a frame into its length prefix, its code and its data. -/
theorem packetParse_code (n : UInt32) {code : Bytes} (hcode : code.length = barrierCodeLen)
    (m : Bytes) {len : Nat} (hlen : barrierHeaderLen ≤ len) :
    packetParse (u32Bytes n ++ (code ++ m)) len =
      parseData m 0 (if barrierCodeLen ≤ n.toNat then n.toNat - barrierCodeLen else 0)
        (codeToType code) := by
  have hn := ioReadU32Be_u32Bytes [] (code ++ m) n
  rw [List.nil_append, List.length_nil] at hn
  have hblock : loadBlock (u32Bytes n ++ (code ++ m)) 4 barrierCodeLen = some code := by
    have hdrop : (u32Bytes n ++ (code ++ m)).drop 4 = code ++ m := rfl
    unfold loadBlock
    rw [hdrop, List.take_left' hcode, if_pos (by simp [hcode])]
  have hdata := parseData_append (u32Bytes n ++ code) m
    (if barrierCodeLen ≤ n.toNat then n.toNat - barrierCodeLen else 0) (codeToType code)
  rw [List.append_assoc, show (u32Bytes n ++ code).length = barrierHeaderLen by
    simp [barrierHeaderLen, hcode]] at hdata
  unfold packetParse
  rw [if_neg (by omega), hn]
  simp only [Option.bind_eq_bind, Option.bind_some, hblock, hdata]

theorem packetParse_frame (n : UInt32) (t : PacketType) (m : Bytes) {len : Nat}
    (hlen : barrierHeaderLen ≤ len) :
    packetParse (u32Bytes n ++ (typeToCode t ++ m)) len =
      parseData m 0 (if barrierCodeLen ≤ n.toNat then n.toNat - barrierCodeLen else 0) t := by
  rw [packetParse_code n (typeToCode_length t) m hlen, codeToType_typeToCode]

/-- Announced lengths are small: as a 32-bit word they are themselves. -/
theorem announced_toNat (t : PacketType) :
    (barrierCodeLen + payloadDataLen t).toUInt32.toNat = barrierCodeLen + payloadDataLen t := by
  cases t <;> rfl

/-- Parsing what was serialized returns the packet.  This holds for every packet but
`CCLP`, whose fields the parser drops, and for every buffer with room for the frame;
the length prefix is one that `read_packet` accepts. -/
theorem packetParse_packetSerialize {pkt : Packet} {buf : Bytes} {cap : Nat}
    (hclip : pkt.type ≠ .cclp)
    (hcap : barrierHeaderLen + payloadDataLen pkt.type ≤ cap) (hbuf : cap ≤ buf.length) :
    ∃ (buf' : Bytes) (outLen : Nat),
      packetSerialize pkt buf cap = some (.ok, buf', outLen) ∧
      (∃ announced : UInt32, ioReadU32Be buf' 0 = some announced ∧
        announced.toNat = outLen - 4 ∧ 4 ≤ announced.toNat ∧ announced.toNat ≤ 1020) ∧
      packetParse (buf'.take outLen) outLen = some (.ok pkt) := by
  have hdata := dataBytes_length pkt
  have hle := requiredDataLen_le pkt.type
  have hsmall := payloadDataLen_le pkt.type
  have hann := announced_toNat pkt.type
  have hheader : barrierHeaderLen = 4 + barrierCodeLen := rfl
  have hcode : barrierCodeLen = 4 := rfl
  refine ⟨_, _, packetSerialize_eq hcap hbuf,
    ⟨(barrierCodeLen + payloadDataLen pkt.type).toUInt32, ?_, ?_, ?_, ?_⟩, ?_⟩
  · have hprefix := ioReadU32Be_u32Bytes []
      (typeToCode pkt.type ++ (dataBytes pkt ++
        buf.drop (barrierHeaderLen + (dataBytes pkt).length)))
      (barrierCodeLen + payloadDataLen pkt.type).toUInt32
    rw [List.nil_append] at hprefix
    unfold frameHeader
    rw [List.append_assoc]
    exact hprefix
  · omega
  · omega
  · omega
  · -- The frame handed to the parser keeps the header and the data bytes; for `CINN`
    -- two bytes of the old buffer follow them, which the parser does not look at.
    have hcut : (frameHeader pkt.type ++ (dataBytes pkt ++
        buf.drop (barrierHeaderLen + (dataBytes pkt).length))).take
          (barrierHeaderLen + payloadDataLen pkt.type) =
        u32Bytes (barrierCodeLen + payloadDataLen pkt.type).toUInt32 ++ (typeToCode pkt.type ++
          (dataBytes pkt ++ (buf.drop (barrierHeaderLen + (dataBytes pkt).length)).take
            (payloadDataLen pkt.type - (dataBytes pkt).length))) := by
      rw [List.take_append, frameHeader_length, Nat.add_sub_cancel_left,
        List.take_of_length_le (by rw [frameHeader_length]; omega), List.take_append,
        List.take_of_length_le (by omega)]
      simp only [frameHeader, List.append_assoc]
    rw [hcut, packetParse_frame _ _ _ (by omega), announced_toNat,
      if_pos (by omega), Nat.add_sub_cancel_left]
    exact parseData_dataBytes _ hclip hle

/-- The round trip of a `DKDN` packet through a 16-byte buffer. -/
theorem packetParse_packetSerialize_dkdn :
    ∃ (buf' : Bytes) (outLen : Nat),
      packetSerialize (.dkdn ⟨0x61, 0x2000, 38⟩) (List.replicate 16 0xEE) 16 =
        some (.ok, buf', outLen) ∧
      (∃ announced : UInt32, ioReadU32Be buf' 0 = some announced ∧
        announced.toNat = outLen - 4 ∧ 4 ≤ announced.toNat ∧ announced.toNat ≤ 1020) ∧
      packetParse (buf'.take outLen) outLen = some (.ok (.dkdn ⟨0x61, 0x2000, 38⟩)) :=
  packetParse_packetSerialize (by decide) (by decide) (by decide)

/-! ## Canonical frames -/

/-- The type named by the code of a frame. -/
def frameType (frame : Bytes) : PacketType := codeToType ((frame.drop 4).take barrierCodeLen)

/-- A frame with a known code other than `CCLP`, exactly the data that the parser
requires for it, and the matching length prefix. -/
structure CanonicalFrame (frame : Bytes) : Prop where
  known : frameType frame ≠ .unknown
  notClipboard : frameType frame ≠ .cclp
  length : frame.length = barrierHeaderLen + requiredDataLen (frameType frame)
  announced : ioReadU32Be frame 0 =
    some (barrierCodeLen + requiredDataLen (frameType frame)).toUInt32

/-- Every block of exactly the required length is the data of some packet. -/
theorem exists_dataBytes {t : PacketType} {d : Bytes} (hlen : d.length = requiredDataLen t) :
    ∃ pkt : Packet, pkt.type = t ∧ dataBytes pkt = d := by
  cases t with
  | dinf =>
      obtain ⟨x, d₁, rfl, h₁⟩ := exists_u16Bytes_append hlen
      obtain ⟨y, d₂, rfl, h₂⟩ := exists_u16Bytes_append h₁
      obtain ⟨w, d₃, rfl, h₃⟩ := exists_u16Bytes_append h₂
      obtain ⟨hh, d₄, rfl, h₄⟩ := exists_u16Bytes_append h₃
      obtain ⟨dummy, d₅, rfl, h₅⟩ := exists_u16Bytes_append h₄
      obtain ⟨mx, d₆, rfl, h₆⟩ := exists_u16Bytes_append h₅
      obtain ⟨my, d₇, rfl, h₇⟩ := exists_u16Bytes_append h₆
      obtain rfl := List.length_eq_zero_iff.mp h₇
      exact ⟨.dinf ⟨x, y, w, hh, dummy, mx, my⟩, rfl, by simp [dataBytes]⟩
  | cinn =>
      obtain ⟨x, d₁, rfl, h₁⟩ := exists_u16Bytes_append hlen
      obtain ⟨y, d₂, rfl, h₂⟩ := exists_u16Bytes_append h₁
      obtain ⟨seq, d₃, rfl, h₃⟩ := exists_u32Bytes_append h₂
      obtain ⟨mask, d₄, rfl, h₄⟩ := exists_u16Bytes_append h₃
      obtain rfl := List.length_eq_zero_iff.mp h₄
      exact ⟨.cinn ⟨x, y, seq, mask⟩, rfl, by simp [dataBytes]⟩
  | dkrp =>
      obtain ⟨id, d₁, rfl, h₁⟩ := exists_u16Bytes_append hlen
      obtain ⟨mask, d₂, rfl, h₂⟩ := exists_u16Bytes_append h₁
      obtain ⟨count, d₃, rfl, h₃⟩ := exists_u16Bytes_append h₂
      obtain ⟨button, d₄, rfl, h₄⟩ := exists_u16Bytes_append h₃
      obtain rfl := List.length_eq_zero_iff.mp h₄
      exact ⟨.dkrp ⟨id, mask, count, button⟩, rfl, by simp [dataBytes]⟩
  | dkup | dkdn =>
      obtain ⟨id, d₁, rfl, h₁⟩ := exists_u16Bytes_append hlen
      obtain ⟨mask, d₂, rfl, h₂⟩ := exists_u16Bytes_append h₁
      obtain ⟨button, d₃, rfl, h₃⟩ := exists_u16Bytes_append h₂
      obtain rfl := List.length_eq_zero_iff.mp h₃
      first
        | exact ⟨.dkup ⟨id, mask, button⟩, rfl, by simp [dataBytes]⟩
        | exact ⟨.dkdn ⟨id, mask, button⟩, rfl, by simp [dataBytes]⟩
  | cclp | dclp =>
      obtain ⟨id, d₁, rfl, h₁⟩ := exists_byte_append hlen
      obtain ⟨seq, d₂, rfl, h₂⟩ := exists_u32Bytes_append h₁
      obtain rfl := List.length_eq_zero_iff.mp h₂
      first
        | exact ⟨.cclp ⟨id, seq⟩, rfl, by simp [dataBytes]⟩
        | exact ⟨.dclp ⟨id, seq⟩, rfl, by simp [dataBytes]⟩
  | dmmv | eicv =>
      obtain ⟨x, d₁, rfl, h₁⟩ := exists_u16Bytes_append hlen
      obtain ⟨y, d₂, rfl, h₂⟩ := exists_u16Bytes_append h₁
      obtain rfl := List.length_eq_zero_iff.mp h₂
      first
        | exact ⟨.dmmv ⟨x, y⟩, rfl, by simp [dataBytes]⟩
        | exact ⟨.eicv ⟨x, y⟩, rfl, by simp [dataBytes]⟩
  | dmrm | dmwm =>
      obtain ⟨x, d₁, rfl, h₁⟩ := exists_u16Bytes_append hlen
      obtain ⟨y, d₂, rfl, h₂⟩ := exists_u16Bytes_append h₁
      obtain rfl := List.length_eq_zero_iff.mp h₂
      first
        | exact ⟨.dmrm ⟨x.toInt16, y.toInt16⟩, rfl, by simp [dataBytes]⟩
        | exact ⟨.dmwm ⟨x.toInt16, y.toInt16⟩, rfl, by simp [dataBytes]⟩
  | dmup | dmdn =>
      obtain ⟨id, d₁, rfl, h₁⟩ := exists_byte_append hlen
      obtain rfl := List.length_eq_zero_iff.mp h₁
      first
        | exact ⟨.dmup ⟨id.toInt8⟩, rfl, by simp [dataBytes]⟩
        | exact ⟨.dmdn ⟨id.toInt8⟩, rfl, by simp [dataBytes]⟩
  | qinf => exact ⟨.qinf, rfl, (List.length_eq_zero_iff.mp hlen).symm⟩
  | ciak => exact ⟨.ciak, rfl, (List.length_eq_zero_iff.mp hlen).symm⟩
  | calv => exact ⟨.calv, rfl, (List.length_eq_zero_iff.mp hlen).symm⟩
  | cnop => exact ⟨.cnop, rfl, (List.length_eq_zero_iff.mp hlen).symm⟩
  | cout => exact ⟨.cout, rfl, (List.length_eq_zero_iff.mp hlen).symm⟩
  | cbye => exact ⟨.cbye, rfl, (List.length_eq_zero_iff.mp hlen).symm⟩
  | eunk => exact ⟨.eunk, rfl, (List.length_eq_zero_iff.mp hlen).symm⟩
  | ebsy => exact ⟨.ebsy, rfl, (List.length_eq_zero_iff.mp hlen).symm⟩
  | ebad => exact ⟨.ebad, rfl, (List.length_eq_zero_iff.mp hlen).symm⟩
  | crop => exact ⟨.crop, rfl, (List.length_eq_zero_iff.mp hlen).symm⟩
  | dsop => exact ⟨.dsop, rfl, (List.length_eq_zero_iff.mp hlen).symm⟩
  | unknown => exact ⟨.unknown, rfl, (List.length_eq_zero_iff.mp hlen).symm⟩

/-- A canonical frame is the prefix, the code and the data of some packet. -/
theorem CanonicalFrame.eq_frame {frame : Bytes} (h : CanonicalFrame frame) :
    ∃ pkt : Packet, pkt.type = frameType frame ∧
      frame = u32Bytes (barrierCodeLen + requiredDataLen pkt.type).toUInt32 ++
        (typeToCode pkt.type ++ dataBytes pkt) := by
  have hlen := h.length
  have hheader : barrierHeaderLen = 4 + barrierCodeLen := rfl
  have hcodeLen : barrierCodeLen = 4 := rfl
  obtain ⟨pkt, htype, hdata⟩ :=
    exists_dataBytes (show (frame.drop barrierHeaderLen).length =
      requiredDataLen (frameType frame) by rw [List.length_drop]; omega)
  refine ⟨pkt, htype, ?_⟩
  have hcode : (frame.drop 4).take barrierCodeLen = typeToCode pkt.type := by
    rw [htype]
    exact (typeToCode_codeToType h.known).symm
  have hfront : frame.take 4 = u32Bytes (barrierCodeLen + requiredDataLen pkt.type).toUInt32 := by
    have hann := h.announced
    rw [← htype] at hann
    obtain ⟨v, rest, hframe, -⟩ := exists_u32Bytes_append
      (show frame.length = frame.length - 4 + 4 by omega)
    rw [hframe] at hann ⊢
    have hread := ioReadU32Be_u32Bytes [] rest v
    rw [List.nil_append] at hread
    have hv : v = (barrierCodeLen + requiredDataLen pkt.type).toUInt32 :=
      Option.some.inj (hread.symm.trans hann)
    rw [hv]
    rfl
  calc frame = frame.take 4 ++ ((frame.drop 4).take barrierCodeLen ++
        (frame.drop 4).drop barrierCodeLen) := by
        rw [List.take_append_drop, List.take_append_drop]
    _ = _ := by
        rw [hfront, hcode, hdata, List.drop_drop]
        rfl

/-- The parser accepts every canonical frame, and serializing the packet it returns
gives the frame back, whatever the buffer, exactly when the code is not `CINN`. -/
theorem packetSerialize_packetParse_iff {frame : Bytes} (h : CanonicalFrame frame) :
    ∃ pkt : Packet, packetParse frame frame.length = some (.ok pkt) ∧
      ∀ (buf : Bytes) (cap : Nat), frame.length ≤ cap → cap ≤ buf.length →
        ((∃ buf' : Bytes, packetSerialize pkt buf cap = some (.ok, buf', frame.length) ∧
            buf'.take frame.length = frame) ↔ frameType frame ≠ .cinn) := by
  have hlen := h.length
  have hclip := h.notClipboard
  have hheader : barrierHeaderLen = 4 + barrierCodeLen := rfl
  obtain ⟨pkt, htype, hframe⟩ := h.eq_frame
  have hsmall := payloadDataLen_le pkt.type
  have hreq := requiredDataLen_le pkt.type
  have hdata := dataBytes_length pkt
  rw [← htype] at hlen hclip
  have hann : (barrierCodeLen + requiredDataLen pkt.type).toUInt32.toNat =
      barrierCodeLen + requiredDataLen pkt.type := by
    cases pkt <;> rfl
  refine ⟨pkt, ?_, ?_⟩
  · rw [hlen]
    conv => lhs; rw [hframe]
    rw [packetParse_frame _ _ _ (by omega), hann, if_pos (by omega), Nat.add_sub_cancel_left]
    have hparse := parseData_dataBytes [] hclip (Nat.le_refl _)
    rw [List.append_nil] at hparse
    exact hparse
  · intro buf cap hcap hbuf
    rw [← htype]
    constructor
    · rintro ⟨buf', hser, -⟩ hcinn
      -- A success announces 12 data bytes for `CINN`, and the frame has 10.
      by_cases hfit : barrierHeaderLen + payloadDataLen pkt.type ≤ cap
      · rw [packetSerialize_eq hfit hbuf] at hser
        simp only [Option.some.injEq, Prod.mk.injEq] at hser
        rw [hcinn] at hser hlen
        have hout := hser.2.2
        rw [hlen] at hout
        exact absurd hout (by decide)
      · unfold packetSerialize at hser
        rw [if_pos (by omega)] at hser
        simp at hser
    · intro hcinn
      have hpay := payloadDataLen_eq hcinn
      have hroom : barrierHeaderLen + payloadDataLen pkt.type ≤ cap := by omega
      have hser := packetSerialize_eq hroom hbuf
      rw [hpay, ← hlen] at hser
      refine ⟨_, hser, ?_⟩
      have hout : (frameHeader pkt.type ++ dataBytes pkt).length = frame.length := by
        rw [List.length_append, frameHeader_length]; omega
      rw [← List.append_assoc, List.take_left' hout, hframe, frameHeader, hpay,
        List.append_assoc]

/-- A canonical `DMMV` frame, serialized back into a zeroed buffer. -/
theorem packetSerialize_packetParse_iff_dmmv :
    ∃ pkt : Packet, packetParse [0, 0, 0, 8, 68, 77, 77, 86, 1, 44, 2, 88] 12 = some (.ok pkt) ∧
      ∀ (buf : Bytes) (cap : Nat), 12 ≤ cap → cap ≤ buf.length →
        ((∃ buf' : Bytes, packetSerialize pkt buf cap = some (.ok, buf', 12) ∧
            buf'.take 12 = [0, 0, 0, 8, 68, 77, 77, 86, 1, 44, 2, 88]) ↔
          frameType [0, 0, 0, 8, 68, 77, 77, 86, 1, 44, 2, 88] ≠ .cinn) :=
  packetSerialize_packetParse_iff
    { known := by decide, notClipboard := by decide, length := by decide, announced := by decide }

/-- A canonical `CINN` frame is accepted but does not come back: the serializer
announces 20 bytes for its 18. -/
theorem packetSerialize_cinn_not_canonical :
    CanonicalFrame ([0, 0, 0, 14, 67, 73, 78, 78, 0, 1, 0, 2, 0, 0, 0, 3, 0, 0]) ∧
    packetParse [0, 0, 0, 14, 67, 73, 78, 78, 0, 1, 0, 2, 0, 0, 0, 3, 0, 0] 18 =
      some (.ok (.cinn ⟨1, 2, 3, 0⟩)) ∧
    (packetSerialize (.cinn ⟨1, 2, 3, 0⟩) (List.replicate 32 0) 32).map (fun r => (r.1, r.2.2)) =
      some (.ok, 20) :=
  ⟨{ known := by decide, notClipboard := by decide, length := by decide, announced := by decide },
    by decide, by decide⟩

end Esp32Deskflow.Barrier
