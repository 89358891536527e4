/-
  Barrier/ClientTask.lean --- `barrier_client_task`, interleaved with the tasks that
  change the settings, set `EVENT_RECONNECT` or stop the client.

  A step of the client task is one statement that another task can see or come between:
  a read or a write of the event group, a read of the settings together with the call
  it is for, a call on the connection.  What only the task itself can see is done in
  the step next to it.  Reads and writes of the settings are atomic.

  A delay only lets the other tasks run: it is no step of its own, and its length is
  drawn for the retry counter alone.
-/
import Esp32Deskflow.Barrier.Client

set_option autoImplicit false

namespace Esp32Deskflow.Barrier

open Esp32Deskflow.Foundation Esp32Deskflow.Network Esp32Deskflow.Config Esp32Deskflow.Tusb

/-! ## State -/

/-- Where the client task is. -/
inductive Pc where
  /-- before the first statement -/
  | start
  /-- `while (client->running)` -/
  | outer
  | waitNetwork
  /-- the `EVENT_RECONNECT` check before the handshake, and its six actions -/
  | checkReconnect
  | clearReconnect
  | queueScreenSize
  | queueScaling
  | destroyTls
  | createTls
  | closeTls
  | handshake
  | handshakeFailed
  /-- the statements between the handshake and the packet loop -/
  | connected
  /-- the condition of the packet loop -/
  | loopHead
  | readPacket
  /-- the `ESP_ERR_TIMEOUT` branch of the packet loop -/
  | timedOut
  /-- the `EVENT_RECONNECT` check inside the packet loop, with its action -/
  | checkBit (pkt : Packet)
  | clearBit
  | handlePacket (pkt : Packet)
  /-- the cleanup after the packet loop -/
  | cleanup
  | closeSession
  | retry
  | stopped
  deriving DecidableEq, Repr

/-- The successive contents of `s_config`, the last one being the present one. -/
structure Settings where
  older : List DeskflowConfig
  current : DeskflowConfig
  deriving DecidableEq, Repr

/-- All contents so far; a version of the settings is an index into this list. -/
def Settings.versions (s : Settings) : List DeskflowConfig := s.older ++ [s.current]

/-- The version of the present contents. -/
def Settings.version (s : Settings) : Nat := s.older.length

/-- New contents; the ones before stay as an older version. -/
def Settings.put (s : Settings) (cfg : DeskflowConfig) : Settings := ⟨s.versions, cfg⟩

/-- The client task with its local `timeout_ms`, the settings, and the bit
`EVENT_RECONNECT`.  The last two fields are no part of the firmware: what the server had
still to send when the packet loop began, and the events so far. -/
structure World where
  pc : Pc
  client : BarrierClient
  timeoutMs : UInt32
  settings : Settings
  reconnectBit : Bool
  stream : Bytes
  trace : List Event
  deriving DecidableEq, Repr

/-- The task goes on at another place, with these events. -/
def World.goto (w : World) (pc : Pc) (events : List Event) : World :=
  { w with pc, trace := w.trace ++ events }

/-- The end of the task. -/
def World.finish (w : World) : World :=
  { w with pc := .stopped, client := { w.client with state := .idle, running := false } }

/-- The world after `barrier_client_create` and `barrier_client_start`. -/
def World.initial (cfg : DeskflowConfig) (networkEvents : Bool) : World where
  pc := .start
  client :=
    { state := .idle
      tls := tlsClientCreate true cfg.server.bytes cfg.port.toNat
      reconnect := reconnectInit
      running := false
      readBuf := Buffer.zeroed barrierReadBufSize
      writeBuf := Buffer.zeroed barrierWriteBufSize
      lastActivityMs := 0
      cursorEntered := false
      networkEvents }
  timeoutMs := 0
  settings := ⟨[], cfg⟩
  reconnectBit := false
  stream := []
  trace :=
    [.tlsCreate cfg.server.bytes cfg.port.toNat true,
      .act (.setScreenSize cfg.screenWidth cfg.screenHeight), .act (.setScaling cfg.scaling)]

/-! ## Steps -/

/-- What the outside decides during a step of the client task; a step uses what it needs. -/
structure Io where
  /-- `EVENT_ETH_HAS_IP` at the end of the wait -/
  hasIp : Bool := true
  /-- `calloc` in `tls_client_create` -/
  created : Bool := true
  random : UInt32 := 0
  handshake : HandshakeIo := { connect := .noCerts, reads := [], writes := [] }
  /-- the clock in milliseconds -/
  now : UInt64 := 0
  reads : List ReadStep := []
  handle : HandleIo := {}
  deriving DecidableEq, Repr

/-- `timeout_ms` of the packet loop. -/
def loopTimeout (cfg : DeskflowConfig) : UInt32 :=
  let timeoutMs := cfg.jiggleInterval.toUInt32 * 1000
  if timeoutMs = 0 then 0xFFFFFFFF else timeoutMs

/-- The wait for `EVENT_ETH_HAS_IP`. -/
def World.stepWaitNetwork (w : World) (hasIp : Bool) : World :=
  if w.client.networkEvents && w.client.running && !hasIp then w
  else w.goto .checkReconnect []

/-- The check before the handshake. -/
def World.stepCheckReconnect (w : World) : World :=
  if w.client.networkEvents && w.reconnectBit then w.goto .clearReconnect []
  else w.goto .handshake []

/-- `tls_client_create` of the server in force; without memory the task waits and begins again. -/
def World.stepCreateTls (w : World) (io : Io) : World :=
  let cfg := w.settings.current
  let server := cfg.server.bytes
  let port : Int := cfg.port.toNat
  let client := { w.client with tls := tlsClientCreate io.created server port }
  if io.created then
    { w with client }.goto .closeTls [.tlsCreate server port true]
  else
    let reconnect := (reconnectDelay (reconnectReset client.reconnect) io.random).2
    { w with client := { client with reconnect } }.goto .outer [.tlsCreate server port false]

/-- The handshake, and whether it succeeded. -/
def World.stepHandshake (w : World) (io : Io) : Option World :=
  (handshake { w.client with state := .handshake } w.settings.current io.handshake).map
    fun (err, client, events) =>
      { w with client }.goto (if err = EspErr.ok then .connected else .handshakeFailed)
        (.handshake :: events)

/-- After a handshake that failed: the next attempt, or the end of the task. -/
def World.stepHandshakeFailed (w : World) (io : Io) : World :=
  let client := { w.client with state := .disconnected }
  if reconnectShouldRetry client.reconnect then
    let reconnect := (reconnectDelay client.reconnect io.random).2
    { w with client := { client with reconnect, tls := tlsClientClose client.tls } }.goto .outer
      [.tlsClose]
  else { w with client }.finish

/-- The session begins. -/
def World.stepConnected (w : World) : World :=
  { w with
    client := { w.client with state := .connected, reconnect := reconnectReset w.client.reconnect }
    timeoutMs := loopTimeout w.settings.current
    stream := inbound w.client.tls }.goto .loopHead [.act .connected]

/-- The condition of the packet loop. -/
def World.stepLoopHead (w : World) : World :=
  if w.client.running && w.client.state = .connected then w.goto .readPacket []
  else w.goto .cleanup [.loopExit]

/-- `read_packet` in the packet loop. -/
def World.stepReadPacket (w : World) (io : Io) : Option World :=
  (readPacket w.client io.now w.timeoutMs.toUInt64 io.reads).bind fun (result, client, rest) =>
    if rest ≠ [] then none
    else
      match result with
      | .ok pkt => some ({ w with client }.goto (.checkBit pkt) [])
      | .error .timeout => some ({ w with client }.goto .timedOut [])
      | .error _ => some ({ w with client }.goto .cleanup [.loopExit])

/-- The keep-awake jiggle after a timeout. -/
def World.stepTimedOut (w : World) (io : Io) : World :=
  let cfg := w.settings.current
  if cfg.keepAwake && w.client.cursorEntered &&
      cfg.jiggleInterval.toUInt64 * 1000 < io.now - w.client.lastActivityMs then
    { w with client := { w.client with lastActivityMs := io.now } }.goto .loopHead [.act .jiggle]
  else w.goto .loopHead []

/-- The check inside the packet loop. -/
def World.stepCheckBit (w : World) (pkt : Packet) : World :=
  if w.client.networkEvents && w.reconnectBit then w.goto .clearBit []
  else w.goto (.handlePacket pkt) []

/-- `handle_packet`; an error ends the packet loop. -/
def World.stepHandlePacket (w : World) (pkt : Packet) (io : Io) : Option World :=
  (handlePacket w.client w.settings.current pkt io.handle).map fun (err, client, events) =>
    if err = EspErr.ok then { w with client }.goto .loopHead (.handled pkt :: events)
    else { w with client }.goto .cleanup (.handled pkt :: (events ++ [Event.loopExit]))

/-- After a session: the next attempt, or the end of the task. -/
def World.stepRetry (w : World) (io : Io) : World :=
  if !w.client.running then w.finish
  else if reconnectShouldRetry w.client.reconnect then
    let reconnect := (reconnectDelay w.client.reconnect io.random).2
    { w with client := { w.client with reconnect } }.goto .outer []
  else w.finish

/-- One step of the client task. -/
def taskStep (w : World) (io : Io) : Option World :=
  match w.pc with
  | .start =>
      some { w with
        pc := .outer, client := { w.client with running := true, lastActivityMs := io.now } }
  | .outer => some (if w.client.running then w.goto .waitNetwork [] else w.finish)
  | .waitNetwork => some (w.stepWaitNetwork io.hasIp)
  | .checkReconnect => some w.stepCheckReconnect
  | .clearReconnect =>
      some ({ w with reconnectBit := false }.goto .queueScreenSize [.reconnectCleared])
  | .queueScreenSize =>
      let cfg := w.settings.current
      some (w.goto .queueScaling [.act (.setScreenSize cfg.screenWidth cfg.screenHeight)])
  | .queueScaling => some (w.goto .destroyTls [.act (.setScaling w.settings.current.scaling)])
  | .destroyTls =>
      some ({ w with client := { w.client with tls := tlsClientDestroy w.client.tls } }.goto
        .createTls [.tlsDestroy])
  | .createTls => some (w.stepCreateTls io)
  | .closeTls =>
      some ({ w with client := { w.client with tls := tlsClientClose w.client.tls } }.goto
        .outer [.tlsClose])
  | .handshake => w.stepHandshake io
  | .handshakeFailed => some (w.stepHandshakeFailed io)
  | .connected => some w.stepConnected
  | .loopHead => some w.stepLoopHead
  | .readPacket => w.stepReadPacket io
  | .timedOut => some (w.stepTimedOut io)
  | .checkBit pkt => some (w.stepCheckBit pkt)
  | .clearBit =>
      some ({ w with reconnectBit := false }.goto .cleanup [.reconnectCleared, .loopExit])
  | .handlePacket pkt => w.stepHandlePacket pkt io
  | .cleanup =>
      some ({ w with
        client := { w.client with state := .disconnected, cursorEntered := false } }.goto
          .closeSession [.act .disconnected])
  | .closeSession =>
      some ({ w with client := { w.client with tls := tlsClientClose w.client.tls } }.goto
        .retry [.tlsClose])
  | .retry => some (w.stepRetry io)
  | .stopped => none

/-- What another task does. -/
inductive EnvAct where
  /-- new contents of `s_config`: `settings_post_handler` saves them, or `config_load` runs
  after a USB stick is mounted -/
  | putSettings (cfg : DeskflowConfig)
  /-- `settings_post_handler`, `cert_upload_handler` or `eth_reconfig_task` sets
  `EVENT_RECONNECT`, for a version of the settings that has been in force -/
  | setReconnect (version : Nat)
  /-- `barrier_client_stop` -/
  | stop
  deriving DecidableEq, Repr

/-- One step of the other tasks. -/
def envStep (w : World) : EnvAct → Option World
  | .putSettings cfg => some { w with settings := w.settings.put cfg }
  | .setReconnect version =>
      if version ≤ w.settings.version then
        some { w with reconnectBit := true, trace := w.trace ++ [.reconnectSet version] }
      else none
  | .stop => some { w with client := { w.client with running := false } }

/-- Who moves, with what the outside decides. -/
inductive Label where
  | task (io : Io)
  | env (act : EnvAct)
  deriving DecidableEq, Repr

/-- One step of the system. -/
def step (w : World) : Label → Option World
  | .task io => taskStep w io
  | .env act => envStep w act

/-! ## Sample runs -/

/-- A server hello with its version, and the frames after it. -/
def sampleStream (frames : Bytes) : Bytes :=
  u32Bytes 11 ++ (barrierServerHello ++ (u16Bytes 1 ++ (u16Bytes 6 ++ frames)))

/-- The steps that connect a client with the default settings to a server that sends
`frames` after its hello; `first` is the number of the steps before the handshake. -/
def connectLabels (first : Nat) (frames : Bytes) : List Label :=
  List.replicate first (.task {}) ++
    [.task { handshake := {
        connect := .connected (sampleStream frames)
        reads := [{ result := .moved 4 }, { result := .moved 11 }]
        writes := [.moved 34] } },
      .task {}]

/-- `CALV` on the wire. -/
def calvFrame : Bytes := u32Bytes 4 ++ ascii "CALV"

/-- A turn of the packet loop that reads a frame with `n` bytes of payload. -/
def turnLabels (n : Nat) (handle : HandleIo) : List Label :=
  [.task {}, .task { reads := [{ result := .moved 4 }, { result := .moved n }] }, .task {},
    .task { handle }]

end Esp32Deskflow.Barrier
