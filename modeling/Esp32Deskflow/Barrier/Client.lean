/-
  Barrier/Client.lean --- `barrier_client.c` without its task: reading and writing on
  the connection, the handshake, and what a packet does.

  Whatever the outside decides during a call is an argument of its definition: the
  results of esp-tls, the clock, whether a notification is pending, and the `esp_err_t`
  of the actuator calls.  A definition that returns `none` has no such run: its
  arguments do not fit the calls that the code makes.

  The calls that leave the client are recorded in order, as events.
-/
import Esp32Deskflow.Barrier.Packet
import Esp32Deskflow.Config.Config
import Esp32Deskflow.Network.Reconnect
import Esp32Deskflow.Network.TlsClient
import Esp32Deskflow.Tusb.Actuator

set_option autoImplicit false

namespace Esp32Deskflow.Barrier

open Esp32Deskflow.Foundation Esp32Deskflow.Network Esp32Deskflow.Config Esp32Deskflow.Tusb

/-! ## The client -/

/-- `client_state_t`. -/
inductive ClientState where
  | idle | connecting | handshake | connected | disconnected
  deriving DecidableEq, Repr, Inhabited

/-- `BARRIER_READ_BUF_SIZE`. -/
def barrierReadBufSize : Nat := 1024

/-- `BARRIER_WRITE_BUF_SIZE`. -/
def barrierWriteBufSize : Nat := 1024

/-- `barrier_client_t`; of `network_events` only whether it is set. -/
structure BarrierClient where
  state : ClientState
  tls : Option TlsClient
  reconnect : Reconnect
  running : Bool
  readBuf : Buffer barrierReadBufSize
  writeBuf : Buffer barrierWriteBufSize
  lastActivityMs : UInt64
  cursorEntered : Bool
  networkEvents : Bool
  deriving DecidableEq, Repr

/-- A call that leaves the client task, or a point of its control flow. -/
inductive Event where
  /-- `EVENT_RECONNECT` set by another task for the given version of the settings -/
  | reconnectSet (version : Nat)
  /-- `EVENT_RECONNECT` cleared by the client task -/
  | reconnectCleared
  | tlsDestroy
  /-- `tls_client_create`, and whether it succeeded -/
  | tlsCreate (server : Bytes) (port : Int) (created : Bool)
  | tlsClose
  /-- start of `handshake` -/
  | handshake
  /-- the client hello, with the number of bytes that esp-tls accepted -/
  | hello (bytes : Bytes) (accepted : Nat)
  /-- an `actuator_queue_*` call -/
  | act (cmd : ActCmd)
  | setMovement (x y : UInt16)
  | moveRelative (dx dy : Int16)
  /-- start of `handle_packet` -/
  | handled (pkt : Packet)
  /-- a packet given to `tls_client_write`, with the number of bytes accepted -/
  | sent (pkt : Packet) (frame : Bytes) (accepted : Nat)
  /-- end of the packet loop -/
  | loopExit
  deriving DecidableEq, Repr

/-! ## Reading -/

/-- One turn of a reading loop: the result of the read and, after a timeout, the clock in
milliseconds and whether `xTaskNotifyWait` returns `pdTRUE`. -/
structure ReadStep where
  result : EspTlsResult
  now : UInt64 := 0
  notified : Bool := false
  deriving DecidableEq, Repr

/-- How a reading loop ends: the error, the bytes it stored, the connection and the
turns that it did not take. -/
structure ReadEnd where
  err : EspErr
  got : Bytes
  tls : Option TlsClient
  rest : List ReadStep
  deriving DecidableEq, Repr

/-- The loop of `tls_read_full` and of both halves of `read_packet`: read until `want`
bytes are there.  The deadline is checked only after a timeout. -/
def readLoop (start timeoutMs : UInt64) (want : Nat) (tls : Option TlsClient)
    (steps : List ReadStep) : Option ReadEnd :=
  if want = 0 then some ⟨.ok, [], tls, steps⟩
  else
    match steps with
    | [] => none
    | s :: rest =>
        match tlsClientRead tls s.result want with
        | none => none
        | some (.bytes bs, tls) =>
            (readLoop start timeoutMs (want - bs.length) tls rest).map fun f =>
              { f with got := bs ++ f.got }
        | some (.timeout, tls) =>
            if timeoutMs ≤ s.now - start then some ⟨.timeout, [], tls, rest⟩
            else if s.notified then some ⟨.fail, [], tls, rest⟩
            else readLoop start timeoutMs want tls rest
        | some (_, tls) => some ⟨.fail, [], tls, rest⟩

/-- `BARRIER_HANDSHAKE_TIMEOUT_MS`. -/
def barrierHandshakeTimeoutMs : UInt64 := 5000

/-- `tls_read_full` into `read_buf`. -/
def tlsReadFull (client : BarrierClient) (start : UInt64) (len : Nat) (steps : List ReadStep) :
    Option (EspErr × BarrierClient × List ReadStep) :=
  (readLoop start barrierHandshakeTimeoutMs len client.tls steps).bind fun f =>
    (client.readBuf.write 0 f.got).map fun readBuf =>
      (f.err, { client with tls := f.tls, readBuf }, f.rest)

/-- The second half of `read_packet`: the payload and the parser. -/
def readPayload (client : BarrierClient) (start timeoutMs : UInt64) (header : Bytes)
    (payloadLen : Nat) (steps : List ReadStep) :
    Option (Except EspErr Packet × BarrierClient × List ReadStep) :=
  (client.readBuf.write 0 header).bind fun readBuf =>
    (readLoop start timeoutMs payloadLen client.tls steps).bind fun f =>
      (readBuf.write 4 f.got).bind fun readBuf =>
        let client := { client with tls := f.tls, readBuf }
        if f.err ≠ .ok then some (.error f.err, client, f.rest)
        else
          (packetParse readBuf.bytes (4 + payloadLen)).map fun result =>
            (result, client, f.rest)

/-- `read_packet`. -/
def readPacket (client : BarrierClient) (start timeoutMs : UInt64) (steps : List ReadStep) :
    Option (Except EspErr Packet × BarrierClient × List ReadStep) :=
  (readLoop start timeoutMs 4 client.tls steps).bind fun f =>
    let client := { client with tls := f.tls }
    if f.err ≠ .ok then some (.error f.err, client, f.rest)
    else
      (ioReadU32Be f.got 0).bind fun payloadLen =>
        if barrierReadBufSize - 4 < payloadLen.toNat then some (.error .invalidSize, client, f.rest)
        else if payloadLen.toNat < 4 then some (.error .invalidSize, client, f.rest)
        else readPayload client start timeoutMs f.got payloadLen.toNat f.rest

/-! ## The handshake -/

/-- What the outside does during a handshake: the connect, the clock at the start of
each of the three reads, the turns of the reads, and the results of the write. -/
structure HandshakeIo where
  connect : ConnectResult
  lengthStart : UInt64 := 0
  payloadStart : UInt64 := 0
  versionStart : UInt64 := 0
  reads : List ReadStep
  writes : List EspTlsResult
  deriving DecidableEq, Repr

/-- `BARRIER_SERVER_HELLO`. -/
def barrierServerHello : Bytes := ascii "Barrier"

/-- Steps 2 and 3 of `handshake`.  The version of the server is read and not used. -/
def readServerHello (client : BarrierClient) (io : HandshakeIo) :
    Option (EspErr × BarrierClient) :=
  (tlsReadFull client io.lengthStart 4 io.reads).bind fun (err, client, rest) =>
    if err ≠ .ok then some (.fail, client)
    else
      (ioReadU32Be client.readBuf.bytes 0).bind fun helloLen =>
        if helloLen.toNat < barrierServerHello.length ∨ 64 < helloLen.toNat then
          some (.fail, client)
        else
          (tlsReadFull client io.payloadStart helloLen.toNat rest).bind fun (err, client, rest) =>
            if err ≠ .ok then some (.fail, client)
            else if client.readBuf.bytes.take barrierServerHello.length ≠ barrierServerHello then
              some (.fail, client)
            else if barrierServerHello.length + 4 ≤ helloLen.toNat then some (.ok, client)
            else
              (tlsReadFull client io.versionStart 4 rest).map fun (err, client, _) =>
                (if err ≠ .ok then .fail else .ok, client)

/-- The client hello, as the writes of step 4 lay it out from the start of `write_buf`:
length, name of the protocol, `BARRIER_CLIENT_MAJOR`, `BARRIER_CLIENT_MINOR`, device
name with its length. -/
def clientHello (name : Bytes) : Bytes :=
  u32Bytes (barrierServerHello.length + 2 + 2 + 4 + name.length).toUInt32 ++
    (barrierServerHello ++ (u16Bytes 1 ++ (u16Bytes 6 ++ (u32Bytes name.length.toUInt32 ++ name))))

/-- Step 4 of `handshake`. -/
def writeClientHello (client : BarrierClient) (cfg : DeskflowConfig)
    (writes : List EspTlsResult) : Option (EspErr × BarrierClient × List Event) :=
  let hello := clientHello cfg.deviceName.bytes
  (client.writeBuf.write 0 hello).bind fun writeBuf =>
    (tlsClientWrite client.tls hello.length writes).map fun (sent, accepted, tls) =>
      (if sent < 0 then .fail else .ok, { client with tls, writeBuf }, [.hello hello accepted])

/-- `handshake`. -/
def handshake (client : BarrierClient) (cfg : DeskflowConfig) (io : HandshakeIo) :
    Option (EspErr × BarrierClient × List Event) :=
  match tlsClientConnect client.tls io.connect with
  | (.ok, tls) =>
      (readServerHello { client with tls } io).bind fun (err, client) =>
        if err ≠ .ok then some (.fail, client, []) else writeClientHello client cfg io.writes
  | (err, tls) => some (err, { client with tls }, [])

/-! ## Packets -/

/-- `send_packet`: a short write is not an error. -/
def sendPacket (client : BarrierClient) (pkt : Packet) (writes : List EspTlsResult) :
    Option (EspErr × BarrierClient × List Event) :=
  (packetSerialize pkt client.writeBuf.bytes barrierWriteBufSize).bind fun (err, buf, outLen) =>
    (Buffer.ofBytes barrierWriteBufSize buf).bind fun writeBuf =>
      let client := { client with writeBuf }
      if err ≠ .ok then some (err, client, [])
      else
        (tlsClientWrite client.tls outLen writes).map fun (sent, accepted, tls) =>
          (if sent < 0 then .fail else .ok, { client with tls },
            [.sent pkt (buf.take outLen) accepted])

/-- What the outside does during `handle_packet`: the result of the actuator call, the
clock read after it, and the results of the write of a reply. -/
structure HandleIo where
  act : EspErr := .ok
  now : UInt64 := 0
  writes : List EspTlsResult := []
  deriving DecidableEq, Repr

/-- The packets that queue a command and then note the time. -/
def queueInput (client : BarrierClient) (cmd : ActCmd) (io : HandleIo) :
    EspErr × BarrierClient × List Event :=
  if io.act ≠ .ok then (io.act, client, [.act cmd])
  else (.ok, { client with lastActivityMs := io.now }, [.act cmd])

/-- `handle_packet`. -/
def handlePacket (client : BarrierClient) (cfg : DeskflowConfig) (pkt : Packet) (io : HandleIo) :
    Option (EspErr × BarrierClient × List Event) :=
  match pkt with
  | .qinf =>
      let reply : Packet := .dinf
        { x := 0, y := 0, w := cfg.screenWidth, h := cfg.screenHeight
          dummy := 0, mx := 0, my := 0 }
      sendPacket client reply io.writes
  | .calv =>
      -- A failure of the jiggle is only logged.
      let jiggle := if cfg.keepAwake then [Event.act .jiggle] else []
      (sendPacket client .calv io.writes).map fun (err, client, events) =>
        (err, client, jiggle ++ events)
  | .dmmv m => some (.ok, { client with lastActivityMs := io.now }, [.setMovement m.x m.y])
  | .dmrm m => some (.ok, { client with lastActivityMs := io.now }, [.moveRelative m.dx m.dy])
  | .dkdn k => some (queueInput client (.keyDown k.id k.mask k.button) io)
  | .dkup k => some (queueInput client (.keyUp k.id k.mask k.button) io)
  | .dmdn b => some (queueInput client (.mouseDown b.id) io)
  | .dmup b => some (queueInput client (.mouseUp b.id) io)
  | .dmwm w => some (queueInput client (.mouseWheel w.dx w.dy) io)
  | .cinn e => some (queueInput { client with cursorEntered := true } (.enter e.x e.y e.mask) io)
  | .cout => some (io.act, { client with cursorEntered := false }, [.act .leave])
  | .cbye | .eunk | .ebsy | .ebad | .eicv _ => some (.fail, client, [])
  | .dkrp k =>
      -- A failure of the call is only logged.
      some (.ok, { client with lastActivityMs := io.now },
        [.act (.keyRepeat k.id k.mask k.button k.count)])
  | .dinf _ | .ciak | .cnop | .crop => some (.ok, client, [])
  | .cclp _ | .dclp _ | .dsop | .unknown => some (.ok, client, [])

end Esp32Deskflow.Barrier
