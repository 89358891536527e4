/-
  Barrier/PacketGrammar.lean --- the byte strings that `packet_parse` accepts and the
  ones that `packet_serialize` writes.

  A buffer of at least eight bytes is a length prefix, a code and data.  The parser
  compares the announced length with what the code needs and then reads that much; it
  does not compare the announced length with the length it is given.
-/
import Esp32Deskflow.Barrier.ClientCalls

set_option autoImplicit false

namespace Esp32Deskflow.Barrier

open Esp32Deskflow.Foundation

/-! ## What a frame says -/

/-- The payload length that the prefix announces. -/
def payloadLen (frame : Bytes) : Nat := bigEndian (frame.take 4)

/-- The code of a frame. -/
def frameCode (frame : Bytes) : Bytes := (frame.drop 4).take barrierCodeLen

/-- The data of a frame, and whatever stands behind it. -/
def frameData (frame : Bytes) : Bytes := frame.drop barrierHeaderLen

/-- The code is the one of the type, or no type has it. -/
def NamedBy (code : Bytes) (t : PacketType) : Prop :=
  if t = .unknown then ∀ t', t' ≠ .unknown → typeToCode t' ≠ code else typeToCode t = code

theorem namedBy_codeToType (code : Bytes) : NamedBy code (codeToType code) := by
  by_cases h : codeToType code = .unknown
  · rw [NamedBy, if_pos h]
    rintro t ht rfl
    exact ht (codeToType_typeToCode.symm.trans h)
  · rw [NamedBy, if_neg h]
    exact typeToCode_codeToType h

/-- The unsigned value of `n` bytes of the data. -/
def unsignedAt (data : Bytes) (off n : Nat) : Nat := bigEndian ((data.drop off).take n)

/-- The two's complement value of `n` bytes of the data. -/
def signedAt (data : Bytes) (off n : Nat) : Int := (unsignedAt data off n : Int).bmod (256 ^ n)

/-- Every field of the packet is the value at its offset. -/
def FieldsAt (data : Bytes) : Packet → Prop
  | .dinf d => d.x.toNat = unsignedAt data 0 2 ∧ d.y.toNat = unsignedAt data 2 2 ∧
      d.w.toNat = unsignedAt data 4 2 ∧ d.h.toNat = unsignedAt data 6 2 ∧
      d.dummy.toNat = unsignedAt data 8 2 ∧ d.mx.toNat = unsignedAt data 10 2 ∧
      d.my.toNat = unsignedAt data 12 2
  | .dmmv m => m.x.toNat = unsignedAt data 0 2 ∧ m.y.toNat = unsignedAt data 2 2
  | .dmrm m => m.dx.toInt = signedAt data 0 2 ∧ m.dy.toInt = signedAt data 2 2
  | .dmup b => b.id.toInt = signedAt data 0 1
  | .dmdn b => b.id.toInt = signedAt data 0 1
  | .dmwm w => w.dx.toInt = signedAt data 0 2 ∧ w.dy.toInt = signedAt data 2 2
  | .cinn c => c.x.toNat = unsignedAt data 0 2 ∧ c.y.toNat = unsignedAt data 2 2 ∧
      c.seq.toNat = unsignedAt data 4 4 ∧ c.mask.toNat = unsignedAt data 8 2
  | .dkup k => k.id.toNat = unsignedAt data 0 2 ∧ k.mask.toNat = unsignedAt data 2 2 ∧
      k.button.toNat = unsignedAt data 4 2
  | .dkdn k => k.id.toNat = unsignedAt data 0 2 ∧ k.mask.toNat = unsignedAt data 2 2 ∧
      k.button.toNat = unsignedAt data 4 2
  | .dkrp k => k.id.toNat = unsignedAt data 0 2 ∧ k.mask.toNat = unsignedAt data 2 2 ∧
      k.count.toNat = unsignedAt data 4 2 ∧ k.button.toNat = unsignedAt data 6 2
  | .cclp c => c.id.toNat = unsignedAt data 0 1 ∧ c.seq.toNat = unsignedAt data 1 4
  | .dclp c => c.id.toNat = unsignedAt data 0 1 ∧ c.seq.toNat = unsignedAt data 1 4
  | .eicv i => i.major.toNat = unsignedAt data 0 2 ∧ i.minor.toNat = unsignedAt data 2 2
  | .qinf | .ciak | .calv | .cnop | .cout | .cbye | .eunk | .ebsy | .ebad | .crop | .dsop
  | .unknown => True

/-- What the parser keeps of a packet: the fields of `CCLP` stay zero. -/
def recorded : Packet → Packet
  | .cclp _ => .cclp ⟨0, 0⟩
  | pkt => pkt

/-- Every field is the value at its offset; the ones of `CCLP` are not recorded. -/
def FieldsRecorded (data : Bytes) (pkt : Packet) : Prop :=
  if pkt.type = .cclp then pkt = .cclp ⟨0, 0⟩ else FieldsAt data pkt

theorem recorded_type (pkt : Packet) : (recorded pkt).type = pkt.type := by
  cases pkt <;> rfl

theorem recorded_of_ne {pkt : Packet} (h : pkt.type ≠ .cclp) : recorded pkt = pkt := by
  cases pkt with
  | cclp c => exact absurd rfl h
  | _ => rfl

/-! ## Data bytes and fields -/

theorem int16_toInt (v : Int16) : v.toInt = (v.toUInt16.toNat : Int).bmod (256 ^ 2) :=
  BitVec.toInt_eq_toNat_bmod v.toBitVec

theorem int8_toInt (v : Int8) : v.toInt = (v.toUInt8.toNat : Int).bmod (256 ^ 1) :=
  BitVec.toInt_eq_toNat_bmod v.toBitVec

section

variable (rest : Bytes)

@[simp] theorem unsignedAt_u16Bytes (v : UInt16) :
    unsignedAt (u16Bytes v ++ rest) 0 2 = v.toNat := bigEndian_u16Bytes v

@[simp] theorem unsignedAt_u32Bytes (v : UInt32) :
    unsignedAt (u32Bytes v ++ rest) 0 4 = v.toNat := bigEndian_u32Bytes v

@[simp] theorem unsignedAt_byte (b : UInt8) : unsignedAt (b :: rest) 0 1 = b.toNat :=
  bigEndian_singleton b

@[simp] theorem unsignedAt_u16Bytes_add (v : UInt16) (off n : Nat) :
    unsignedAt (u16Bytes v ++ rest) (off + 2) n = unsignedAt rest off n := by
  have hdrop : (u16Bytes v ++ rest).drop (off + 2) = rest.drop off := rfl
  rw [unsignedAt, hdrop, ← unsignedAt]

@[simp] theorem unsignedAt_u32Bytes_add (v : UInt32) (off n : Nat) :
    unsignedAt (u32Bytes v ++ rest) (off + 4) n = unsignedAt rest off n := by
  have hdrop : (u32Bytes v ++ rest).drop (off + 4) = rest.drop off := rfl
  rw [unsignedAt, hdrop, ← unsignedAt]

@[simp] theorem unsignedAt_byte_add (b : UInt8) (off n : Nat) :
    unsignedAt (b :: rest) (off + 1) n = unsignedAt rest off n := by
  have hdrop : (b :: rest).drop (off + 1) = rest.drop off := rfl
  rw [unsignedAt, hdrop, ← unsignedAt]

end

/-- The data bytes of a packet are its fields at their offsets, whatever follows. -/
theorem fieldsAt_dataBytes (pkt : Packet) (rest : Bytes) :
    FieldsAt (dataBytes pkt ++ rest) pkt := by
  cases pkt with
  | qinf | ciak | calv | cnop | cout | cbye | eunk | ebsy | ebad | crop | dsop | unknown => trivial
  | dmup b | dmdn b => simp [FieldsAt, dataBytes, signedAt, int8_toInt]
  | _ => simp [FieldsAt, dataBytes, signedAt, int16_toInt]

/-! ## The parser and the grammar -/

/-- The only error of the data part is that less is announced than the code needs. -/
theorem parseData_error_iff {m : Bytes} {data dataLen : Nat} {t : PacketType} :
    parseData m data dataLen t = some (.error .invalidSize) ↔ dataLen < requiredDataLen t := by
  cases t with
  | dinf | dmmv | dmrm | dmup | dmdn | dmwm | cinn | dkup | dkdn | dkrp | dclp | eicv | cclp =>
      simp only [parseData, requiredDataLen]
      split
      · rename_i hlt
        exact iff_of_true rfl hlt
      · rename_i hge
        refine iff_of_false ?_ hge
        simp [Option.bind_eq_some_iff]
  | qinf | ciak | calv | cnop | cout | cbye | eunk | ebsy | ebad | crop | dsop | unknown =>
      simp [parseData, requiredDataLen]

/-- With the data that the code needs, the parser records its packet. -/
theorem parseData_recorded (pkt : Packet) (rest : Bytes) {dataLen : Nat}
    (hlen : requiredDataLen pkt.type ≤ dataLen) :
    parseData (dataBytes pkt ++ rest) 0 dataLen pkt.type = some (.ok (recorded pkt)) := by
  by_cases hclip : pkt.type = .cclp
  · obtain ⟨c, rfl⟩ : ∃ c, pkt = .cclp c := by
      cases pkt with
      | cclp c => exact ⟨c, rfl⟩
      | _ => cases hclip
    have hfit : ¬ dataLen < 5 := Nat.not_lt.mpr hlen
    simp only [parseData, Packet.type, if_neg hfit, recorded]
  · rw [recorded_of_ne hclip]
    exact parseData_dataBytes rest hclip hlen

/-- A buffer with room for a header is a prefix, a code and data. -/
theorem exists_header {buf : Bytes} (h : barrierHeaderLen ≤ buf.length) :
    ∃ (n : UInt32) (code : Bytes), code.length = barrierCodeLen ∧ payloadLen buf = n.toNat ∧
      frameCode buf = code ∧ buf = u32Bytes n ++ (code ++ frameData buf) := by
  have hcode : barrierCodeLen = 4 := rfl
  have hheader : barrierHeaderLen = 8 := rfl
  obtain ⟨n, rest, rfl, hrest⟩ := exists_u32Bytes_append
    (show buf.length = buf.length - 4 + 4 by omega)
  have hdrop : (u32Bytes n ++ rest).drop 4 = rest := rfl
  have htake : (u32Bytes n ++ rest).take 4 = u32Bytes n := rfl
  rw [List.length_append, u32Bytes_length] at h
  refine ⟨n, rest.take barrierCodeLen, ?_, ?_, ?_, ?_⟩
  · rw [List.length_take]
    omega
  · rw [payloadLen, htake, bigEndian_u32Bytes]
  · rw [frameCode, hdrop]
  · have hdata : frameData (u32Bytes n ++ rest) = rest.drop barrierCodeLen := rfl
    rw [hdata, List.take_append_drop]

/-- On a buffer with room for a header the parser is its data part. -/
theorem packetParse_eq {buf : Bytes} {len : Nat} (hlen : barrierHeaderLen ≤ len)
    (hbuf : barrierHeaderLen ≤ buf.length) :
    packetParse buf len =
      parseData (frameData buf) 0 (payloadLen buf - barrierCodeLen) (frameType buf) := by
  obtain ⟨n, code, hcode, hn, hframe, hsplit⟩ := exists_header hbuf
  have hsub : (if barrierCodeLen ≤ n.toNat then n.toNat - barrierCodeLen else 0) =
      n.toNat - barrierCodeLen := by
    split
    · rfl
    · omega
  have htype : frameType buf = codeToType code := congrArg codeToType hframe
  conv => lhs; rw [hsplit]
  rw [packetParse_code n hcode (frameData buf) hlen, hsub, hn, htype]

/-- Data of at least the required length begin with the data bytes of a packet of the type. -/
theorem exists_packet {t : PacketType} {data : Bytes} (h : requiredDataLen t ≤ data.length) :
    ∃ pkt, pkt.type = t ∧ data = dataBytes pkt ++ data.drop (requiredDataLen t) := by
  have hlen : (data.take (requiredDataLen t)).length = requiredDataLen t := by
    rw [List.length_take, Nat.min_eq_left h]
  obtain ⟨pkt, htype, hdata⟩ := exists_dataBytes hlen
  exact ⟨pkt, htype, by rw [hdata, List.take_append_drop]⟩

/-- The parser stays inside a buffer that holds the data which it takes. -/
theorem packetParse_total {buf : Bytes} {len : Nat} (hlen : barrierHeaderLen ≤ len)
    (hbuf : barrierHeaderLen ≤ buf.length)
    (hroom : requiredDataLen (frameType buf) ≤ payloadLen buf - barrierCodeLen →
      requiredDataLen (frameType buf) ≤ (frameData buf).length) :
    ∃ result, packetParse buf len = some result := by
  rw [packetParse_eq hlen hbuf]
  by_cases hneeds : payloadLen buf - barrierCodeLen < requiredDataLen (frameType buf)
  · exact ⟨_, parseData_error_iff.mpr hneeds⟩
  · have hfit : requiredDataLen (frameType buf) ≤ payloadLen buf - barrierCodeLen := by omega
    obtain ⟨pkt, htype, hdata⟩ := exists_packet (hroom hfit)
    rw [hdata, ← htype]
    exact ⟨_, parseData_recorded pkt _ (htype ▸ hfit)⟩

/-- What the grammar says about a buffer, for a meaning of the fields. -/
structure ParsesByGrammar (fields : Bytes → Packet → Prop) (buf : Bytes) : Prop where
  rejects : payloadLen buf - barrierCodeLen < requiredDataLen (frameType buf) →
    packetParse buf buf.length = some (.error .invalidSize)
  accepts : requiredDataLen (frameType buf) ≤ payloadLen buf - barrierCodeLen →
    ∃ pkt, packetParse buf buf.length = some (.ok pkt) ∧ pkt.type = frameType buf ∧
      NamedBy (frameCode buf) pkt.type ∧ fields (frameData buf) pkt
  /-- bytes behind the required ones can be changed, appended or left out -/
  ignores : requiredDataLen (frameType buf) ≤ payloadLen buf - barrierCodeLen →
    ∀ other : Bytes, other.length = 4 + payloadLen other →
      (other.drop 4).take (barrierCodeLen + requiredDataLen (frameType buf)) =
        (buf.drop 4).take (barrierCodeLen + requiredDataLen (frameType buf)) →
      packetParse other other.length = packetParse buf buf.length

theorem packetParse_recorded {buf rest : Bytes} {pkt : Packet}
    (hbuf : barrierHeaderLen ≤ buf.length) (htype : pkt.type = frameType buf)
    (hdata : frameData buf = dataBytes pkt ++ rest)
    (hfit : requiredDataLen pkt.type ≤ payloadLen buf - barrierCodeLen) :
    packetParse buf buf.length = some (.ok (recorded pkt)) := by
  rw [packetParse_eq hbuf hbuf, hdata, ← htype]
  exact parseData_recorded pkt rest hfit

theorem fieldsRecorded_dataBytes (pkt : Packet) (rest : Bytes) :
    FieldsRecorded (dataBytes pkt ++ rest) (recorded pkt) := by
  by_cases hclip : pkt.type = .cclp
  · rw [FieldsRecorded, recorded_type, if_pos hclip]
    cases pkt with
    | cclp c => rfl
    | _ => cases hclip
  · rw [FieldsRecorded, recorded_type, if_neg hclip, recorded_of_ne hclip]
    exact fieldsAt_dataBytes pkt rest

/-- Two buffers that agree on code and required data have the same code and begin with the
same data. -/
theorem frame_agree {buf other : Bytes} {r : Nat}
    (h : (other.drop 4).take (barrierCodeLen + r) = (buf.drop 4).take (barrierCodeLen + r)) :
    frameCode other = frameCode buf ∧ (frameData other).take r = (frameData buf).take r := by
  constructor
  · have hcode := congrArg (List.take barrierCodeLen) h
    rwa [List.take_take, List.take_take, Nat.min_eq_left (Nat.le_add_right _ _)] at hcode
  · have hdata := congrArg (List.drop barrierCodeLen) h
    rwa [List.drop_take, List.drop_take, List.drop_drop, List.drop_drop,
      Nat.add_sub_cancel_left] at hdata

/-- `packet_parse` on the buffers that `read_packet` hands it accepts exactly its grammar, with
the fields of `CCLP` checked and left out. -/
theorem packetParse_grammar {buf : Bytes} (hlen : barrierHeaderLen ≤ buf.length)
    (hannounced : buf.length = 4 + payloadLen buf) : ParsesByGrammar FieldsRecorded buf := by
  have hheader : barrierHeaderLen = 4 + barrierCodeLen := rfl
  have hdataLen : (frameData buf).length = payloadLen buf - barrierCodeLen := by
    rw [frameData, List.length_drop]
    omega
  refine ⟨fun hshort => ?_, fun hfit => ?_, fun hfit other hother hagree => ?_⟩
  · rw [packetParse_eq hlen hlen]
    exact parseData_error_iff.mpr hshort
  · obtain ⟨pkt, htype, hdata⟩ := exists_packet (hdataLen.symm ▸ hfit)
    refine ⟨recorded pkt, ?_, (recorded_type pkt).trans htype, ?_, ?_⟩
    · exact packetParse_recorded hlen htype hdata (htype ▸ hfit)
    · rw [recorded_type, htype]
      exact namedBy_codeToType (frameCode buf)
    · rw [hdata]
      exact fieldsRecorded_dataBytes pkt _
  · obtain ⟨pkt, htype, hdata⟩ := exists_packet (hdataLen.symm ▸ hfit)
    obtain ⟨hcode, htake⟩ := frame_agree hagree
    have hother' : barrierCodeLen + requiredDataLen (frameType buf) ≤ (other.drop 4).length := by
      have hcut := congrArg List.length hagree
      rw [List.length_take, List.length_take, List.length_drop (i := 4) (l := buf)] at hcut
      omega
    rw [List.length_drop] at hother'
    have hsame : frameType other = frameType buf := congrArg codeToType hcode
    have hdata' : frameData other =
        dataBytes pkt ++ (frameData other).drop (requiredDataLen (frameType buf)) := by
      have hbytes : (frameData buf).take (requiredDataLen (frameType buf)) = dataBytes pkt := by
        rw [hdata]
        exact List.take_left' (by rw [dataBytes_length, htype])
      conv => lhs; rw [← List.take_append_drop (requiredDataLen (frameType buf)) (frameData other)]
      rw [htake, hbytes]
    rw [packetParse_recorded hlen htype hdata (htype ▸ hfit),
      packetParse_recorded (by omega) (htype.trans hsame.symm) hdata' (by rw [htype]; omega)]

/-- A `DMMV` frame with one byte behind its data. -/
theorem packetParse_grammar_dmmv :
    ParsesByGrammar FieldsRecorded [0, 0, 0, 9, 68, 77, 77, 86, 1, 44, 2, 88, 7] :=
  packetParse_grammar (by decide) (by decide)

/-- A well-formed `CCLP` frame with id 1 and sequence number 2 is accepted with neither. -/
theorem packetParse_cclp_not_recorded :
    packetParse [0, 0, 0, 9, 67, 67, 76, 80, 1, 0, 0, 0, 2] 13 = some (.ok (.cclp ⟨0, 0⟩)) ∧
    ¬ ∀ buf : Bytes, barrierHeaderLen ≤ buf.length → buf.length = 4 + payloadLen buf →
      ParsesByGrammar FieldsAt buf := by
  refine ⟨by decide, fun hall => ?_⟩
  have hgrammar := hall [0, 0, 0, 9, 67, 67, 76, 80, 1, 0, 0, 0, 2] (by decide) (by decide)
  obtain ⟨pkt, hparse, _, _, hfields⟩ := hgrammar.accepts (by decide)
  have hpkt : packetParse [0, 0, 0, 9, 67, 67, 76, 80, 1, 0, 0, 0, 2] 13 =
    some (.ok (.cclp ⟨0, 0⟩)) := by decide
  cases hpkt.symm.trans hparse
  exact absurd hfields.1 (by decide)

/-! ## The two lengths -/

/-- No byte behind the first `len` is read, and a frame that announces more than it has is an
error.  The first is said of the buffer cut after `len` bytes. -/
structure StaysInside (buf : Bytes) (len : Nat) : Prop where
  reads : ∃ result, packetParse (buf.take len) len = some result
  rejects : len < 4 + payloadLen buf → packetParse buf len = some (.error .invalidSize)

theorem packetParse_short {buf : Bytes} {len : Nat} (h : len < barrierHeaderLen) :
    packetParse buf len = some (.error .invalidSize) := by
  rw [packetParse, if_pos h]

/-- Cutting a buffer behind its header leaves prefix and code. -/
theorem frame_take (buf : Bytes) {len : Nat} (hlen : barrierHeaderLen ≤ len) :
    payloadLen (buf.take len) = payloadLen buf ∧ frameType (buf.take len) = frameType buf := by
  have hheader : barrierHeaderLen = 4 + barrierCodeLen := rfl
  refine ⟨?_, ?_⟩
  · rw [payloadLen, List.take_take, Nat.min_eq_left (by omega), payloadLen]
  · rw [frameType, List.drop_take, List.take_take, Nat.min_eq_left (by omega), frameType]

/-- `packet_parse` stays inside the length it is given exactly if the length is too short for
a header, or covers what the prefix announces, or less is announced than the code needs. -/
theorem staysInside_iff {buf : Bytes} {len : Nat} (hbuf : len ≤ buf.length) :
    StaysInside buf len ↔
      len < barrierHeaderLen ∨ 4 + payloadLen buf ≤ len ∨
        payloadLen buf - barrierCodeLen < requiredDataLen (frameType buf) := by
  have hheader : barrierHeaderLen = 4 + barrierCodeLen := rfl
  by_cases hshort : len < barrierHeaderLen
  · exact iff_of_true ⟨⟨_, packetParse_short hshort⟩, fun _ => packetParse_short hshort⟩
      (Or.inl hshort)
  have hlen : barrierHeaderLen ≤ len := by omega
  have hcut : barrierHeaderLen ≤ (buf.take len).length := by
    rw [List.length_take]
    omega
  have hwhole := packetParse_eq hlen (show barrierHeaderLen ≤ buf.length by omega)
  obtain ⟨hpayload, htype⟩ := frame_take buf hlen
  constructor
  · intro h
    by_cases hannounced : 4 + payloadLen buf ≤ len
    · exact Or.inr (Or.inl hannounced)
    · have hrejected := h.rejects (by omega)
      rw [hwhole] at hrejected
      exact Or.inr (Or.inr (parseData_error_iff.mp hrejected))
  · intro h
    refine ⟨packetParse_total hlen hcut fun hfit => ?_, fun hlt => ?_⟩
    · rw [hpayload, htype] at hfit
      rw [htype, frameData, List.length_drop, List.length_take]
      omega
    · rw [hwhole]
      exact parseData_error_iff.mpr (by omega)

/-- The prefix says 8 and the length 12. -/
theorem staysInside_iff_dmmv :
    StaysInside [0, 0, 0, 8, 68, 77, 77, 86, 1, 44, 2, 88] 12 ↔
      12 < barrierHeaderLen ∨
        4 + payloadLen [0, 0, 0, 8, 68, 77, 77, 86, 1, 44, 2, 88] ≤ 12 ∨
        payloadLen [0, 0, 0, 8, 68, 77, 77, 86, 1, 44, 2, 88] - barrierCodeLen <
          requiredDataLen (frameType [0, 0, 0, 8, 68, 77, 77, 86, 1, 44, 2, 88]) :=
  staysInside_iff (by decide)

/-- Given the eight bytes of a `DMMV` header with the prefix 8, `packet_parse` takes the
coordinates from the four bytes behind them. -/
theorem not_staysInside_dmmv :
    packetParse ([0, 0, 0, 8, 68, 77, 77, 86] ++ [1, 44, 2, 88]) 8 =
      some (.ok (.dmmv ⟨300, 600⟩)) ∧
    ¬ ∀ (buf : Bytes) (len : Nat), len ≤ buf.length → StaysInside buf len := by
  refine ⟨by decide, fun hall => ?_⟩
  obtain ⟨result, hread⟩ := (hall [0, 0, 0, 8, 68, 77, 77, 86] 8 (by decide)).reads
  have hnone : packetParse [0, 0, 0, 8, 68, 77, 77, 86] 8 = none := by decide
  cases hnone.symm.trans hread

/-! ## The serialized frame and the old buffer -/

/-- What the calls of `packet_serialize` do to their buffers: a success writes the first `outLen`
bytes, which are the same in any two buffers, and nothing else; an error writes nothing. -/
structure WritesItsFrame (pkt : Packet) : Prop where
  inBounds : ∀ (buf : Bytes) (cap : Nat), cap ≤ buf.length →
    ∃ result, packetSerialize pkt buf cap = some result
  sameBytes : ∀ (buf₁ buf₂ buf₁' buf₂' : Bytes) (cap₁ cap₂ outLen₁ outLen₂ : Nat),
    cap₁ ≤ buf₁.length → cap₂ ≤ buf₂.length →
    packetSerialize pkt buf₁ cap₁ = some (.ok, buf₁', outLen₁) →
    packetSerialize pkt buf₂ cap₂ = some (.ok, buf₂', outLen₂) →
    outLen₁ = outLen₂ ∧ buf₁'.take outLen₁ = buf₂'.take outLen₂
  restUnchanged : ∀ (buf buf' : Bytes) (cap outLen : Nat), cap ≤ buf.length →
    packetSerialize pkt buf cap = some (.ok, buf', outLen) →
    outLen ≤ cap ∧ buf'.length = buf.length ∧ buf'.drop outLen = buf.drop outLen
  noChange : ∀ (buf buf' : Bytes) (cap outLen : Nat) (err : EspErr), cap ≤ buf.length →
    packetSerialize pkt buf cap = some (err, buf', outLen) → err ≠ .ok →
    buf' = buf ∧ outLen = cap

theorem packetSerialize_noMem {pkt : Packet} {buf : Bytes} {cap : Nat}
    (hcap : ¬ barrierHeaderLen + payloadDataLen pkt.type ≤ cap) :
    packetSerialize pkt buf cap = some (.noMem, buf, cap) := by
  rw [packetSerialize, if_pos (by omega)]

/-- The two ways a call ends. -/
theorem packetSerialize_cases {pkt : Packet} {buf buf' : Bytes} {cap outLen : Nat} {err : EspErr}
    (hbuf : cap ≤ buf.length) (h : packetSerialize pkt buf cap = some (err, buf', outLen)) :
    (barrierHeaderLen + payloadDataLen pkt.type ≤ cap ∧ err = .ok ∧
      outLen = barrierHeaderLen + payloadDataLen pkt.type ∧
      buf' = frameHeader pkt.type ++ (dataBytes pkt ++
        buf.drop (barrierHeaderLen + (dataBytes pkt).length))) ∨
      (err = .noMem ∧ buf' = buf ∧ outLen = cap) := by
  by_cases hcap : barrierHeaderLen + payloadDataLen pkt.type ≤ cap
  · rw [packetSerialize_eq hcap hbuf] at h
    cases h
    exact Or.inl ⟨hcap, rfl, rfl, rfl⟩
  · rw [packetSerialize_noMem hcap] at h
    cases h
    exact Or.inr ⟨rfl, rfl, rfl⟩

/-- For every type but `CINN` the announced bytes are the written ones. -/
theorem packetSerialize_ok {pkt : Packet} (hcinn : pkt.type ≠ .cinn) {buf buf' : Bytes}
    {cap outLen : Nat} (hbuf : cap ≤ buf.length)
    (h : packetSerialize pkt buf cap = some (.ok, buf', outLen)) :
    outLen ≤ cap ∧ outLen = (frameHeader pkt.type ++ dataBytes pkt).length ∧
      buf' = (frameHeader pkt.type ++ dataBytes pkt) ++ buf.drop outLen := by
  obtain ⟨hcap, _, rfl, rfl⟩ | ⟨herr, _⟩ := packetSerialize_cases hbuf h
  · have hlen : (dataBytes pkt).length = payloadDataLen pkt.type := by
      rw [dataBytes_length, payloadDataLen_eq hcinn]
    refine ⟨hcap, ?_, ?_⟩
    · rw [List.length_append, frameHeader_length, hlen]
    · rw [hlen, List.append_assoc]
  · cases herr

theorem writesItsFrame_of_ne {pkt : Packet} (hcinn : pkt.type ≠ .cinn) : WritesItsFrame pkt where
  inBounds buf cap hbuf := by
    by_cases hcap : barrierHeaderLen + payloadDataLen pkt.type ≤ cap
    · exact ⟨_, packetSerialize_eq hcap hbuf⟩
    · exact ⟨_, packetSerialize_noMem hcap⟩
  sameBytes buf₁ buf₂ buf₁' buf₂' cap₁ cap₂ outLen₁ outLen₂ hbuf₁ hbuf₂ h₁ h₂ := by
    obtain ⟨_, hout₁, rfl⟩ := packetSerialize_ok hcinn hbuf₁ h₁
    obtain ⟨_, hout₂, rfl⟩ := packetSerialize_ok hcinn hbuf₂ h₂
    exact ⟨hout₁.trans hout₂.symm, by rw [List.take_left' hout₁.symm, List.take_left' hout₂.symm]⟩
  restUnchanged buf buf' cap outLen hbuf h := by
    obtain ⟨hle, hout, rfl⟩ := packetSerialize_ok hcinn hbuf h
    refine ⟨hle, ?_, List.drop_left' hout.symm⟩
    rw [List.length_append, ← hout, List.length_drop]
    omega
  noChange buf buf' cap outLen err hbuf h herr := by
    obtain ⟨_, hok, _⟩ | ⟨_, hbuf', hout⟩ := packetSerialize_cases hbuf h
    · exact absurd hok herr
    · exact ⟨hbuf', hout⟩

/-- A `CINN` packet leaves the last two of its announced bytes as they were. -/
theorem not_writesItsFrame_of_cinn {pkt : Packet} (hcinn : pkt.type = .cinn) :
    ¬ WritesItsFrame pkt := by
  intro h
  have hcap : barrierHeaderLen + payloadDataLen pkt.type ≤ 20 := by rw [hcinn]; decide
  have hdata : (dataBytes pkt).length = 10 := by rw [dataBytes_length, hcinn]; rfl
  have hrun : ∀ b : UInt8, packetSerialize pkt (List.replicate 20 b) 20 =
      some (.ok, frameHeader pkt.type ++ (dataBytes pkt ++ [b, b]), 20) := by
    intro b
    rw [packetSerialize_eq hcap (by simp), hdata, hcinn]
    rfl
  obtain ⟨_, hsame⟩ := h.sameBytes _ _ _ _ _ _ _ _ (by simp) (by simp) (hrun 0) (hrun 0xFF)
  have hlen : ∀ b : UInt8,
      (frameHeader pkt.type ++ (dataBytes pkt ++ [b, b])).length = 20 := by
    intro b
    simp [frameHeader_length, hdata, barrierHeaderLen, barrierCodeLen]
  rw [List.take_of_length_le (hlen 0).le, List.take_of_length_le (hlen 0xFF).le] at hsame
  exact absurd (List.append_cancel_left (List.append_cancel_left hsame)) (by decide)

/-- `packet_serialize` writes exactly the frame that it announces for every type but `CINN`. -/
theorem writesItsFrame_iff (pkt : Packet) : WritesItsFrame pkt ↔ pkt.type ≠ .cinn :=
  ⟨fun h hcinn => not_writesItsFrame_of_cinn hcinn h, writesItsFrame_of_ne⟩

/-- One `CINN` packet in two buffers: the last two bytes of the frame are the buffer's. -/
theorem not_writesItsFrame_cinn :
    (packetSerialize (.cinn ⟨1, 2, 3, 0⟩) (List.replicate 20 0xAA) 20).map
        (fun r => (r.1, r.2.1.drop 18, r.2.2)) = some (.ok, [0xAA, 0xAA], 20) ∧
    (packetSerialize (.cinn ⟨1, 2, 3, 0⟩) (List.replicate 20 0xBB) 20).map
        (fun r => (r.1, r.2.1.drop 18, r.2.2)) = some (.ok, [0xBB, 0xBB], 20) ∧
    ¬ ∀ pkt : Packet, WritesItsFrame pkt :=
  ⟨by decide, by decide, fun hall => not_writesItsFrame_of_cinn rfl (hall (.cinn ⟨1, 2, 3, 0⟩))⟩

end Esp32Deskflow.Barrier
