/-
  Barrier/Handshake.lean --- what `handshake` accepts, where it leaves the stream, and
  what it writes.

  The version of the server stands inside of its hello or behind it; the announced
  length says which, and with it how many bytes belong to the handshake.  The answer goes
  out through `tls_client_write`, and only the sign of what that returns is looked at.
-/
import Esp32Deskflow.Barrier.PartialSend
import Esp32Deskflow.Barrier.ReadPacket

set_option autoImplicit false

namespace Esp32Deskflow.Barrier

open Esp32Deskflow.Foundation Esp32Deskflow.Network Esp32Deskflow.Config

/-! ## The two hellos -/

/-- The end of the server hello and of the version, as the announced length says. -/
def helloEnd (stream : Bytes) : Nat :=
  4 + payloadLen stream + if payloadLen stream < 11 then 4 else 0

/-- The stream starts with a server hello. -/
structure StartsWithHello (stream : Bytes) : Prop where
  length : 4 ≤ stream.length
  low : 7 ≤ payloadLen stream
  high : payloadLen stream ≤ 64
  magic : (stream.drop 4).take 7 = ascii "Barrier"
  whole : helloEnd stream ≤ stream.length

/-- The version that `handshake` takes from `read_buf`. -/
def serverVersion (readBuf : Bytes) (helloLen : Nat) : Option (UInt16 × UInt16) := do
  let off := if barrierServerHello.length + 4 ≤ helloLen then barrierServerHello.length else 0
  let major ← ioReadU16Be readBuf off
  let minor ← ioReadU16Be readBuf (off + 2)
  return (major, minor)

/-- A client hello with the given version and name. -/
structure IsClientHello (hello : Bytes) (major minor : Nat) (name : Bytes) : Prop where
  announced : hello.length = 4 + payloadLen hello
  magic : (hello.drop 4).take 7 = ascii "Barrier"
  major : unsignedAt hello 11 2 = major
  minor : unsignedAt hello 13 2 = minor
  nameLen : unsignedAt hello 15 4 = name.length
  name : hello.drop 19 = name

theorem clientHello_length (name : Bytes) : (clientHello name).length = 19 + name.length := by
  simp only [clientHello, List.length_append, u32Bytes_length, u16Bytes_length]
  have hmagic : barrierServerHello.length = 7 := rfl
  omega

theorem toUInt32_toNat {n : Nat} (h : n < 2 ^ 32) : n.toUInt32.toNat = n :=
  UInt32.toNat_ofNat_of_lt' h

/-- The hello decodes to version 1.6 and the name. -/
theorem isClientHello_clientHello {name : Bytes} (h : name.length ≤ 31) :
    IsClientHello (clientHello name) 1 6 name := by
  have hmagic : barrierServerHello.length = 7 := rfl
  refine ⟨?_, rfl, ?_, ?_, ?_, ?_⟩
  · have hannounced : payloadLen (clientHello name) =
        ((barrierServerHello.length + 2 + 2 + 4 + name.length).toUInt32).toNat :=
      bigEndian_u32Bytes _
    rw [clientHello_length, hannounced, toUInt32_toNat (by omega)]
    omega
  · exact bigEndian_u16Bytes 1
  · exact bigEndian_u16Bytes 6
  · refine (bigEndian_u32Bytes name.length.toUInt32).trans (toUInt32_toNat (by omega))
  · rfl

/-! ## Reading the server hello -/

/-- `tls_read_full` with some cuts of the stream. -/
theorem tlsReadFull_cuts (client : BarrierClient) {start : UInt64} {len : Nat}
    {used : List ReadStep} (more : List ReadStep) (hlen : len ≤ barrierReadBufSize)
    (husable : Usable client.tls)
    (hcuts : Cuts start barrierHandshakeTimeoutMs len (inbound client.tls).length used) :
    ∃ tls readBuf,
      tlsReadFull client start len (used ++ more) =
        some (if len ≤ (inbound client.tls).length then .ok else .fail,
          { client with tls, readBuf }, more) ∧
      (len ≤ (inbound client.tls).length →
        Usable tls ∧ inbound tls = (inbound client.tls).drop len ∧
        readBuf.bytes.take len = (inbound client.tls).take len) := by
  obtain ⟨f, hf, htakes⟩ := readLoop_cuts more husable hcuts
  have hgot : f.got.length ≤ len := by
    rw [htakes.got, List.length_take]
    exact Nat.min_le_left _ _
  obtain ⟨readBuf, hwrite⟩ := client.readBuf.exists_write (show 0 + f.got.length ≤ _ by omega)
  refine ⟨f.tls, readBuf, ?_, fun hfit => ⟨htakes.usable hfit, htakes.left, ?_⟩⟩
  · simp only [tlsReadFull, hf, Option.bind_some, hwrite, Option.map_some, htakes.err, htakes.rest]
  · have hfull : f.got.length = len := by rw [htakes.got, List.length_take, Nat.min_eq_left hfit]
    rw [Buffer.write_eq_some hwrite, List.take_zero, List.nil_append, List.take_left' hfull,
      htakes.got]

/-- The first word of a buffer. -/
theorem ioReadU32Be_zero {buf : Bytes} (h : 4 ≤ buf.length) :
    ∃ n, ioReadU32Be buf 0 = some n ∧ n.toNat = bigEndian (buf.take 4) := by
  obtain ⟨n, rest, rfl, _⟩ :=
    exists_u32Bytes_append (show buf.length = buf.length - 4 + 4 by omega)
  exact ⟨n, ioReadU32Be_u32Bytes [] rest n, (bigEndian_u32Bytes n).symm⟩

theorem exists_ioReadU16Be {buf : Bytes} {off : Nat} (h : off + 2 ≤ buf.length) :
    ∃ v, ioReadU16Be buf off = some v := by
  have h₀ : load buf off = some buf[off] := List.getElem?_eq_getElem (by omega)
  have h₁ : load buf (off + 1) = some buf[off + 1] := List.getElem?_eq_getElem (by omega)
  exact ⟨u16OfBytes buf[off] buf[off + 1], by rw [ioReadU16Be, h₀, h₁]; rfl⟩

/-- The turns of the three reads of `handshake` on a stream; the second is made after a length
that is in range, and the third after a hello without version. -/
structure HelloCuts (io : HandshakeIo) (stream : Bytes) (hs ps vs more : List ReadStep) : Prop where
  reads : io.reads = hs ++ (ps ++ (vs ++ more))
  length : Cuts io.lengthStart barrierHandshakeTimeoutMs 4 stream.length hs
  payload : 4 ≤ stream.length → 7 ≤ payloadLen stream → payloadLen stream ≤ 64 →
    Cuts io.payloadStart barrierHandshakeTimeoutMs (payloadLen stream) (stream.length - 4) ps
  version : 4 + payloadLen stream ≤ stream.length → 7 ≤ payloadLen stream →
    payloadLen stream < 11 → (stream.drop 4).take 7 = ascii "Barrier" →
    Cuts io.versionStart barrierHandshakeTimeoutMs 4 (stream.length - (4 + payloadLen stream)) vs

/-- The bytes of the version lie inside of `read_buf`. -/
theorem exists_serverVersion (readBuf : Buffer barrierReadBufSize) (helloLen : Nat) :
    ∃ v, serverVersion readBuf.bytes helloLen = some v := by
  have hsize : readBuf.bytes.length = 1024 := readBuf.size_eq
  have hmagic : barrierServerHello.length = 7 := rfl
  have hread : ∀ off, off + 2 ≤ 1024 → ∃ v, ioReadU16Be readBuf.bytes off = some v :=
    fun off hoff => exists_ioReadU16Be (by omega)
  simp only [serverVersion, Option.bind_eq_bind]
  split
  · obtain ⟨major, hmajor⟩ := hread 7 (by decide)
    obtain ⟨minor, hminor⟩ := hread 9 (by decide)
    exact ⟨(major, minor), by rw [hmagic, hmajor, Option.bind_some, hminor]; rfl⟩
  · obtain ⟨major, hmajor⟩ := hread 0 (by decide)
    obtain ⟨minor, hminor⟩ := hread 2 (by decide)
    exact ⟨(major, minor), by rw [hmajor, Option.bind_some, hminor]; rfl⟩

/-- The first word of `read_buf` after a read of four bytes. -/
theorem readBuf_length {readBuf : Buffer barrierReadBufSize} {stream : Bytes}
    (htake : readBuf.bytes.take 4 = stream.take 4) :
    ∃ n, ioReadU32Be readBuf.bytes 0 = some n ∧ n.toNat = payloadLen stream := by
  have hsize : readBuf.bytes.length = 1024 := readBuf.size_eq
  obtain ⟨n, hread, hn⟩ := ioReadU32Be_zero (show 4 ≤ readBuf.bytes.length by omega)
  exact ⟨n, hread, by rw [hn, htake, payloadLen]⟩

/-! ### The parts of the reading half -/

/-- The part behind the payload. -/
def readHelloVersion (client : BarrierClient) (io : HandshakeIo) (helloLen : Nat)
    (rest : List ReadStep) : Option (EspErr × BarrierClient) :=
  if barrierServerHello.length + 4 ≤ helloLen then some (.ok, client)
  else
    (tlsReadFull client io.versionStart 4 rest).map fun (err, client, _) =>
      (if err ≠ .ok then .fail else .ok, client)

/-- The part behind the length. -/
def readHelloPayload (client : BarrierClient) (io : HandshakeIo) (helloLen : Nat)
    (rest : List ReadStep) : Option (EspErr × BarrierClient) :=
  (tlsReadFull client io.payloadStart helloLen rest).bind fun (err, client, rest) =>
    if err ≠ .ok then some (.fail, client)
    else if client.readBuf.bytes.take barrierServerHello.length ≠ barrierServerHello then
      some (.fail, client)
    else readHelloVersion client io helloLen rest

theorem readServerHello_eq (client : BarrierClient) (io : HandshakeIo) :
    readServerHello client io =
      (tlsReadFull client io.lengthStart 4 io.reads).bind fun (err, client, rest) =>
        if err ≠ .ok then some (.fail, client)
        else
          (ioReadU32Be client.readBuf.bytes 0).bind fun helloLen =>
            if helloLen.toNat < barrierServerHello.length ∨ 64 < helloLen.toNat then
              some (.fail, client)
            else readHelloPayload client io helloLen.toNat rest := rfl

/-- A part of `handshake` that reads: when it succeeds, how much it then has taken, and what it
leaves alone. -/
structure HelloPart (client : BarrierClient) (accepts : Prop) (taken : Nat) (err : EspErr)
    (mid : BarrierClient) : Prop where
  ok_iff : err = .ok ↔ accepts
  frame : ∃ tls readBuf, mid = { client with tls, readBuf }
  usable : err = .ok → Usable mid.tls
  left : err = .ok → inbound mid.tls = (inbound client.tls).drop taken

theorem helloPart_fail {client mid : BarrierClient} {accepts : Prop} {taken : Nat}
    (hnot : ¬ accepts) (hframe : ∃ tls readBuf, mid = { client with tls, readBuf }) :
    HelloPart client accepts taken .fail mid where
  ok_iff := iff_of_false (by decide) hnot
  frame := hframe
  usable h := by cases h
  left h := by cases h

theorem helloPart_ok {client mid : BarrierClient} {accepts : Prop} {taken : Nat}
    (haccepts : accepts) (hframe : ∃ tls readBuf, mid = { client with tls, readBuf })
    (husable : Usable mid.tls) (hleft : inbound mid.tls = (inbound client.tls).drop taken) :
    HelloPart client accepts taken .ok mid :=
  ⟨iff_of_true rfl haccepts, hframe, fun _ => husable, fun _ => hleft⟩

/-- A part that follows on another one. -/
theorem HelloPart.after {client mid mid' : BarrierClient} {accepts accepts' : Prop}
    {first taken taken' : Nat} {err : EspErr} (h : HelloPart mid accepts taken err mid')
    (hframe : ∃ tls readBuf, mid = { client with tls, readBuf })
    (hleft : inbound mid.tls = (inbound client.tls).drop first)
    (haccepts : accepts ↔ accepts') (htaken : first + taken = taken') :
    HelloPart client accepts' taken' err mid' := by
  obtain ⟨tls, readBuf, rfl⟩ := hframe
  obtain ⟨tls', readBuf', rfl⟩ := h.frame
  refine ⟨h.ok_iff.trans haccepts, ⟨tls', readBuf', rfl⟩, h.usable, fun hok => ?_⟩
  rw [h.left hok, hleft, List.drop_drop, htaken]

section

variable {io : HandshakeIo} {helloLen : Nat} {ps vs : List ReadStep}

theorem readHelloVersion_cuts (client : BarrierClient) (more : List ReadStep)
    (husable : Usable client.tls)
    (hvs : helloLen < 11 →
      Cuts io.versionStart barrierHandshakeTimeoutMs 4 (inbound client.tls).length vs) :
    ∃ err mid, readHelloVersion client io helloLen (vs ++ more) = some (err, mid) ∧
      HelloPart client (helloLen < 11 → 4 ≤ (inbound client.tls).length)
        (if helloLen < 11 then 4 else 0) err mid := by
  have hmagic : barrierServerHello.length + 4 = 11 := rfl
  rw [readHelloVersion, hmagic]
  by_cases hversion : helloLen < 11
  · obtain ⟨tls, readBuf, hread, hok⟩ :=
      tlsReadFull_cuts client more (by decide) husable (hvs hversion)
    rw [if_neg (by omega), hread, if_pos hversion]
    by_cases h4 : 4 ≤ (inbound client.tls).length
    · obtain ⟨husable', hin, _⟩ := hok h4
      refine ⟨.ok, { client with tls, readBuf }, by rw [if_pos h4]; rfl, ?_⟩
      exact helloPart_ok (fun _ => h4) ⟨tls, readBuf, rfl⟩ husable' hin
    · refine ⟨.fail, { client with tls, readBuf }, by rw [if_neg h4]; rfl, ?_⟩
      exact helloPart_fail (fun h => h4 (h hversion)) ⟨tls, readBuf, rfl⟩
  · rw [if_pos (by omega), if_neg hversion]
    refine ⟨.ok, client, rfl, ?_⟩
    exact helloPart_ok (fun h => absurd h hversion) ⟨client.tls, client.readBuf, rfl⟩ husable rfl

/-- The payload is there, begins with the name of the protocol, and has the version in it or
behind it. -/
def HelloPayload (helloLen : Nat) (stream : Bytes) : Prop :=
  helloLen ≤ stream.length ∧ stream.take 7 = ascii "Barrier" ∧
    (helloLen < 11 → 4 ≤ stream.length - helloLen)

theorem readHelloPayload_cuts (client : BarrierClient) (more : List ReadStep)
    (hlow : 7 ≤ helloLen) (hhigh : helloLen ≤ 64)
    (husable : Usable client.tls)
    (hps : Cuts io.payloadStart barrierHandshakeTimeoutMs helloLen (inbound client.tls).length ps)
    (hvs : helloLen ≤ (inbound client.tls).length → helloLen < 11 →
      (inbound client.tls).take 7 = ascii "Barrier" →
      Cuts io.versionStart barrierHandshakeTimeoutMs 4
        ((inbound client.tls).length - helloLen) vs) :
    ∃ err mid, readHelloPayload client io helloLen (ps ++ (vs ++ more)) = some (err, mid) ∧
      HelloPart client (HelloPayload helloLen (inbound client.tls))
        (helloLen + if helloLen < 11 then 4 else 0) err mid := by
  have hmagic : barrierServerHello.length = 7 := rfl
  have hsize : barrierReadBufSize = 1024 := rfl
  obtain ⟨tls, readBuf, hread, hok⟩ := tlsReadFull_cuts client (vs ++ more) (by omega) husable hps
  simp only [readHelloPayload, hread, Option.bind_some]
  by_cases hwhole : helloLen ≤ (inbound client.tls).length
  · obtain ⟨husable', hin, htake⟩ := hok hwhole
    have hname : readBuf.bytes.take 7 = (inbound client.tls).take 7 := by
      have hcut := congrArg (List.take 7) htake
      rwa [List.take_take, List.take_take, Nat.min_eq_left (by omega)] at hcut
    have hleft : (inbound tls).length = (inbound client.tls).length - helloLen := by
      rw [hin, List.length_drop]
    rw [if_pos hwhole, if_neg (by simp), hmagic, hname]
    by_cases hhello : (inbound client.tls).take 7 = ascii "Barrier"
    · rw [if_neg (show ¬ _ ≠ barrierServerHello from not_not.mpr hhello)]
      obtain ⟨err, mid, hversion, hpart⟩ := readHelloVersion_cuts { client with tls, readBuf }
        more husable' fun hshort => by rw [hleft]; exact hvs hwhole hshort hhello
      refine ⟨err, mid, hversion, hpart.after ⟨tls, readBuf, rfl⟩ hin ?_ rfl⟩
      rw [HelloPayload, and_iff_right hwhole, and_iff_right hhello, ← hleft]
    · refine ⟨.fail, { client with tls, readBuf }, if_pos hhello, ?_⟩
      exact helloPart_fail (fun h => hhello h.2.1) ⟨tls, readBuf, rfl⟩
  · refine ⟨.fail, { client with tls, readBuf }, by rw [if_neg hwhole]; rfl, ?_⟩
    exact helloPart_fail (fun h => hwhole h.1) ⟨tls, readBuf, rfl⟩

end

theorem startsWithHello_iff {stream : Bytes} :
    StartsWithHello stream ↔ 4 ≤ stream.length ∧ 7 ≤ payloadLen stream ∧ payloadLen stream ≤ 64 ∧
      HelloPayload (payloadLen stream) (stream.drop 4) := by
  rw [HelloPayload, List.length_drop]
  constructor
  · intro h
    have hlength := h.length
    have hwhole := h.whole
    rw [helloEnd] at hwhole
    refine ⟨h.length, h.low, h.high, by omega, h.magic, fun hshort => ?_⟩
    rw [if_pos hshort] at hwhole
    omega
  · rintro ⟨hlength, hlow, hhigh, hwhole, hmagic, hversion⟩
    refine ⟨hlength, hlow, hhigh, hmagic, ?_⟩
    rw [helloEnd]
    split
    · rename_i hshort
      have hroom := hversion hshort
      omega
    · omega

/-- The reading half of `handshake` succeeds exactly on a server hello, and takes it. -/
theorem readServerHello_cuts (client : BarrierClient) {io : HandshakeIo} {stream : Bytes}
    {hs ps vs more : List ReadStep} (husable : Usable client.tls)
    (hin : inbound client.tls = stream) (hcuts : HelloCuts io stream hs ps vs more) :
    ∃ err mid, readServerHello client io = some (err, mid) ∧
      HelloPart client (StartsWithHello stream) (helloEnd stream) err mid := by
  subst hin
  have hmagic : barrierServerHello.length = 7 := rfl
  obtain ⟨tls, readBuf, hread, hok⟩ :=
    tlsReadFull_cuts client (ps ++ (vs ++ more)) (by decide) husable hcuts.length
  rw [readServerHello_eq, hcuts.reads, hread]
  simp only [Option.bind_some]
  by_cases h4 : 4 ≤ (inbound client.tls).length
  · obtain ⟨husable', hin, htake⟩ := hok h4
    obtain ⟨n, hn, hlen⟩ := readBuf_length htake
    rw [if_pos h4, if_neg (by simp)]
    simp only [hn, Option.bind_some, hmagic, hlen]
    by_cases hrange : payloadLen (inbound client.tls) < 7 ∨ 64 < payloadLen (inbound client.tls)
    · refine ⟨.fail, { client with tls, readBuf }, if_pos hrange, ?_⟩
      refine helloPart_fail (fun h => ?_) ⟨tls, readBuf, rfl⟩
      have hlow := h.low
      have hhigh := h.high
      omega
    · have hleft : (inbound tls).length = (inbound client.tls).length - 4 := by
        rw [hin, List.length_drop]
      have hps := hcuts.payload h4 (by omega) (by omega)
      rw [← hleft] at hps
      obtain ⟨err, mid, hpayload, hpart⟩ := readHelloPayload_cuts { client with tls, readBuf } more
        (by omega) (by omega) husable' hps fun hwhole hshort hname => by
          have hfit : payloadLen (inbound client.tls) ≤ (inbound tls).length := hwhole
          have hvs := hcuts.version (by omega) (by omega) hshort (hin ▸ hname)
          rwa [hleft, Nat.sub_sub]
      refine ⟨err, mid, by rw [if_neg hrange]; exact hpayload, ?_⟩
      refine hpart.after ⟨tls, readBuf, rfl⟩ hin ?_ (Nat.add_assoc _ _ _).symm
      rw [startsWithHello_iff, and_iff_right h4, and_iff_right (by omega), and_iff_right (by omega),
        ← hin]
  · refine ⟨.fail, { client with tls, readBuf }, by rw [if_neg h4]; rfl, ?_⟩
    exact helloPart_fail (fun h => h4 h.length) ⟨tls, readBuf, rfl⟩

/-! ## The handshake -/

/-- The results of esp-tls are those of one write of `len` bytes. -/
def WriteEnds (writes : List EspTlsResult) (len : Nat) : Prop :=
  ∀ tls, Usable tls → ∃ out, tlsClientWrite tls len writes = some out

/-- What esp-tls accepts of the client hello, call by call; without a server hello `handshake`
writes nothing. -/
def helloPieces (client : BarrierClient) (cfg : DeskflowConfig) (io : HandshakeIo) : List Bytes :=
  match tlsClientConnect client.tls io.connect with
  | (.ok, tls) =>
      match readServerHello { client with tls } io with
      | some (.ok, mid) => acceptedPieces mid.tls (clientHello cfg.deviceName.bytes) io.writes
      | _ => []
  | _ => []

/-- What a `handshake` on `stream` should do. -/
structure HandshakeExact (client : BarrierClient) (cfg : DeskflowConfig) (io : HandshakeIo)
    (stream : Bytes) (err : EspErr) (client' : BarrierClient) (events : List Event) : Prop where
  /-- it succeeds on a server hello, if the write of the client hello does not fail: all of it is
  accepted -/
  ok_iff : err = .ok ↔ StartsWithHello stream ∧
    (helloPieces client cfg io).flatten = clientHello cfg.deviceName.bytes
  /-- the server hello is read, and the version with it, before anything is written -/
  consumed : StartsWithHello stream →
    ∃ tls mid, tlsClientConnect client.tls io.connect = (.ok, tls) ∧
      readServerHello { client with tls } io = some (.ok, mid) ∧
      inbound mid.tls = stream.drop (helloEnd stream) ∧
      (∃ v, serverVersion mid.readBuf.bytes (payloadLen stream) = some v) ∧
      (Usable client'.tls → client'.tls = mid.tls)
  /-- of `write_buf` one client hello is written, as far as it is accepted -/
  written : StartsWithHello stream → ∃ hello accepted, events = [.hello hello accepted] ∧
    IsClientHello hello 1 6 cfg.deviceName.bytes ∧
    client'.writeBuf.bytes.take hello.length = hello ∧
    (helloPieces client cfg io).flatten = hello.take accepted
  notWritten : ¬ StartsWithHello stream → events = [] ∧ helloPieces client cfg io = []

/-- The writing half of `handshake`. -/
theorem writeClientHello_spec {client : BarrierClient} {cfg : DeskflowConfig}
    {writes : List EspTlsResult} {sent : Int} {accepted : Nat} {tls : Option TlsClient}
    (hcall : tlsClientWrite client.tls (clientHello cfg.deviceName.bytes).length writes =
      some (sent, accepted, tls)) :
    ∃ client', writeClientHello client cfg writes =
        some (if sent < 0 then .fail else .ok, client',
          [.hello (clientHello cfg.deviceName.bytes) accepted]) ∧
      client'.writeBuf.bytes.take (clientHello cfg.deviceName.bytes).length =
        clientHello cfg.deviceName.bytes ∧
      (Usable client'.tls → client'.tls = client.tls) := by
  have hname := cfg.deviceName.fits
  have hsize : barrierWriteBufSize = 1024 := rfl
  have hroom : 0 + (clientHello cfg.deviceName.bytes).length ≤ barrierWriteBufSize := by
    rw [clientHello_length]
    omega
  obtain ⟨writeBuf, hbuf⟩ := client.writeBuf.exists_write hroom
  refine ⟨{ client with tls, writeBuf }, ?_, ?_, (tlsClientWrite_spec hcall).2.2⟩
  · simp only [writeClientHello, hbuf, Option.bind_some, hcall, Option.map_some]
  · rw [Buffer.write_eq_some hbuf, List.take_zero, List.nil_append, List.take_left]

/-- The sign of the result tells a complete hello from a part of one exactly if the calls of
`esp_tls_conn_write` do not break off. -/
theorem helloWrite_iff {tls tls' : Option TlsClient} {hello : Bytes} {writes : List EspTlsResult}
    {sent : Int} {accepted : Nat} (husable : Usable tls) (hpos : 0 < hello.length)
    (hcall : tlsClientWrite tls hello.length writes = some (sent, accepted, tls')) :
    (0 ≤ sent ↔ (acceptedPieces tls hello writes).flatten = hello) ↔
      ¬ BreaksOff hello.length writes := by
  have hshort := tlsClientWrite_short_iff hcall
  rw [and_iff_right husable] at hshort
  rw [← hshort]
  refine ⟨Iff.mp, fun hwhole => ⟨hwhole, fun hall => ?_⟩⟩
  by_contra hneg
  have hless := tlsClientWrite_negative hpos hcall (Int.not_le.mp hneg)
  rw [acceptedPieces_flatten hcall, List.take_eq_self_iff] at hall
  exact absurd hless (Nat.not_lt.mpr hall)

/-- `handshake` accepts exactly the server hello, leaves the stream behind it, and writes one
client hello, if and only if the write of the client hello does not break off. -/
theorem handshake_exact_iff {client : BarrierClient} {cfg : DeskflowConfig} {io : HandshakeIo}
    {stream : Bytes} {hs ps vs more : List ReadStep} (htls : client.tls.isSome)
    (hconnect : io.connect = .connected stream) (hcuts : HelloCuts io stream hs ps vs more)
    (hwrite : WriteEnds io.writes (clientHello cfg.deviceName.bytes).length) :
    ∃ err client' events, handshake client cfg io = some (err, client', events) ∧
      (HandshakeExact client cfg io stream err client' events ↔
        ¬ (StartsWithHello stream ∧
          BreaksOff (clientHello cfg.deviceName.bytes).length io.writes)) := by
  obtain ⟨c, hc⟩ := Option.isSome_iff_exists.mp htls
  obtain ⟨tls, htlsConnect, husable, hin⟩ : ∃ tls, tlsClientConnect client.tls io.connect =
      (.ok, tls) ∧ Usable tls ∧ inbound tls = stream := by
    rw [hc, hconnect]
    exact ⟨_, rfl, ⟨_, rfl, rfl, rfl⟩, rfl⟩
  obtain ⟨err, mid, hread, hpart⟩ :=
    readServerHello_cuts { client with tls } husable hin hcuts
  by_cases hhello : StartsWithHello stream
  · obtain rfl := hpart.ok_iff.mpr hhello
    obtain ⟨⟨sent, accepted, tls'⟩, hcall⟩ := hwrite mid.tls (hpart.usable rfl)
    obtain ⟨client', hwritten, hbuf, hsame⟩ := writeClientHello_spec hcall
    have hpieces : helloPieces client cfg io =
        acceptedPieces mid.tls (clientHello cfg.deviceName.bytes) io.writes := by
      simp only [helloPieces, htlsConnect, hread]
    have hpos : 0 < (clientHello cfg.deviceName.bytes).length := by
      rw [clientHello_length]
      omega
    have hsign : (if sent < 0 then EspErr.fail else .ok) = .ok ↔ 0 ≤ sent := by
      split
      · next hneg => exact iff_of_false nofun (Int.not_le.mpr hneg)
      · next hneg => exact iff_of_true rfl (Int.not_lt.mp hneg)
    have hshake : handshake client cfg io = some (if sent < 0 then .fail else .ok, client',
        [.hello (clientHello cfg.deviceName.bytes) accepted]) := by
      simp only [handshake, htlsConnect, hread, Option.bind_some]
      rw [if_neg (by simp), hwritten]
    refine ⟨_, client', _, hshake, ?_⟩
    rw [and_iff_right hhello, ← helloWrite_iff (hpart.usable rfl) hpos hcall]
    constructor
    · intro hexact
      have hok := hexact.ok_iff
      rwa [and_iff_right hhello, hpieces, hsign] at hok
    · intro hwhole
      refine ⟨?_, fun _ => ?_, fun _ => ?_, fun hnot => absurd hhello hnot⟩
      · rw [and_iff_right hhello, hpieces, hsign]
        exact hwhole
      · refine ⟨tls, mid, htlsConnect, hread, ?_, exists_serverVersion mid.readBuf _, hsame⟩
        rw [hpart.left rfl]
        exact congrArg (List.drop (helloEnd stream)) hin
      · have hname := cfg.deviceName.fits
        refine ⟨_, accepted, rfl, isClientHello_clientHello (by omega), hbuf, ?_⟩
        rw [hpieces]
        exact acceptedPieces_flatten hcall
  · have herr : err ≠ .ok := fun hok => hhello (hpart.ok_iff.mp hok)
    have hpieces : helloPieces client cfg io = [] := by
      simp only [helloPieces, htlsConnect, hread]
      split
      · next hok =>
          cases hok
          exact absurd rfl herr
      · rfl
    refine ⟨.fail, mid, [], ?_, iff_of_true ?_ fun h => hhello h.1⟩
    · simp only [handshake, htlsConnect, hread, Option.bind_some]
      rw [if_pos herr]
    · refine ⟨?_, fun h => absurd h hhello, fun h => absurd h hhello, fun _ => ⟨rfl, hpieces⟩⟩
      exact iff_of_false (by decide) fun h => hhello h.1

/-- A server hello with its version behind it. -/
def shortHello : Bytes := [0, 0, 0, 7, 66, 97, 114, 114, 105, 101, 114, 0, 1, 0, 6, 0]

/-- The length is read in two pieces with a timeout between them. -/
def shortHelloIo (writes : List EspTlsResult) : HandshakeIo where
  connect := .connected shortHello
  reads := [⟨.moved 1, 0, false⟩, ⟨.timedOut, 3, false⟩, ⟨.moved 3, 0, false⟩] ++
    ([⟨.moved 7, 0, false⟩] ++ ([⟨.moved 4, 0, false⟩] ++ []))
  writes := writes

theorem shortHello_cuts (writes : List EspTlsResult) :
    HelloCuts (shortHelloIo writes) shortHello
      [⟨.moved 1, 0, false⟩, ⟨.timedOut, 3, false⟩, ⟨.moved 3, 0, false⟩] [⟨.moved 7, 0, false⟩]
      [⟨.moved 4, 0, false⟩] [] := by
  have hlen : payloadLen shortHello = 7 := by decide
  refine ⟨rfl, ?_, fun _ _ _ => ?_, fun _ _ _ _ => ?_⟩
  · simp [shortHello, shortHelloIo, cuts_moved_iff, cuts_timedOut_iff, cuts_nil_iff,
      barrierHandshakeTimeoutMs]
  · rw [hlen]
    simp [shortHello, cuts_moved_iff, cuts_nil_iff]
  · rw [hlen]
    simp [shortHello, cuts_moved_iff, cuts_nil_iff]

/-- The client hello goes out in two pieces. -/
theorem handshake_exact_iff_short :
    let client := (World.initial configDefaults false).client
    let io := shortHelloIo [.moved 30, .moved 4]
    ∃ err client' events, handshake client configDefaults io = some (err, client', events) ∧
      (HandshakeExact client configDefaults io shortHello err client' events ↔
        ¬ (StartsWithHello shortHello ∧
          BreaksOff (clientHello configDefaults.deviceName.bytes).length io.writes)) := by
  intro client io
  refine handshake_exact_iff rfl rfl (shortHello_cuts _) ?_
  rintro tls ⟨c, rfl, hconn, hsome⟩
  obtain ⟨inbound, htls⟩ := Option.isSome_iff_exists.mp hsome
  have hhello : (clientHello configDefaults.deviceName.bytes).length = 34 := by decide
  refine ⟨(34, 34, some c), ?_⟩
  simp [tlsClientWrite, hconn, htls, hhello, io, shortHelloIo, writeLoop]

/-- The server closes the connection after ten bytes of the client hello: the handshake succeeds
all the same. -/
theorem not_handshake_exact_cut :
    let client := (World.initial configDefaults false).client
    let io := shortHelloIo [.moved 10, .closed]
    ∃ client' events, handshake client configDefaults io = some (.ok, client', events) ∧
      (helloPieces client configDefaults io).flatten =
        (clientHello configDefaults.deviceName.bytes).take 10 ∧
      ¬ HandshakeExact client configDefaults io shortHello .ok client' events := by
  intro client io
  obtain ⟨⟨err, client', events⟩, hshake, rfl⟩ : ∃ result, handshake client configDefaults io =
      some result ∧ result.1 = .ok :=
    Option.map_eq_some_iff.mp (by decide +kernel)
  have hpieces : (helloPieces client configDefaults io).flatten =
      (clientHello configDefaults.deviceName.bytes).take 10 := by decide +kernel
  refine ⟨client', events, hshake, hpieces, fun hexact => ?_⟩
  have hall := congrArg List.length ((hexact.ok_iff.mp rfl).2)
  rw [hpieces] at hall
  revert hall
  decide

end Esp32Deskflow.Barrier
