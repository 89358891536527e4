/-
  Barrier/TlsKept.lean --- what the client task does with its TLS client.

  Reads, writes and a handshake may lose the connection, but never the `tls_client_t`.  Only
  the steps that answer `EVENT_RECONNECT` destroy it, and only `tls_client_create` makes a
  new one.
-/
import Esp32Deskflow.Barrier.TaskSteps

set_option autoImplicit false

namespace Esp32Deskflow.Barrier

open Esp32Deskflow.Foundation Esp32Deskflow.Network Esp32Deskflow.Config Esp32Deskflow.Tusb

/-! ## The TLS client is kept -/

theorem tlsClientRead_isSome {client client' : Option TlsClient} {result : EspTlsResult}
    {len : Nat} {r : ReadResult} (h : tlsClientRead client result len = some (r, client')) :
    client'.isSome = client.isSome := by
  unfold tlsClientRead at h
  split at h
  · cases h
    rfl
  · split at h
    · split at h
      · split at h <;> cases h
        rfl
      · cases h
        rfl
      · cases h
        rfl
      · cases h
        rfl
    · cases h
      rfl

theorem readLoop_isSome {start timeoutMs : UInt64} {want : Nat} {tls : Option TlsClient}
    {steps : List ReadStep} {f : ReadEnd} (h : readLoop start timeoutMs want tls steps = some f) :
    f.tls.isSome = tls.isSome := by
  induction steps generalizing want tls f with
  | nil =>
      unfold readLoop at h
      split at h <;> cases h
      rfl
  | cons s steps ih =>
      unfold readLoop at h
      split at h
      · cases h
        rfl
      · simp only at h
        split at h
        · cases h
        · next bs tls' hread =>
            obtain ⟨f', hf', rfl⟩ := Option.map_eq_some_iff.mp h
            exact (ih hf').trans (tlsClientRead_isSome hread)
        · next tls' hread =>
            refine Eq.trans ?_ (tlsClientRead_isSome hread)
            split at h
            · cases h
              rfl
            · split at h
              · cases h
                rfl
              · exact ih h
        · next hread =>
            cases h
            exact tlsClientRead_isSome hread

theorem tlsClientWrite_isSome {client client' : Option TlsClient} {len accepted : Nat}
    {results : List EspTlsResult} {sent : Int}
    (h : tlsClientWrite client len results = some (sent, accepted, client')) :
    client'.isSome = client.isSome := by
  unfold tlsClientWrite at h
  split at h
  · cases h
    rfl
  · split at h
    · obtain ⟨out, -, hval⟩ := Option.map_eq_some_iff.mp h
      cases hval
      rfl
    · cases h
      rfl

theorem tlsClientConnect_isSome (client : Option TlsClient) (result : ConnectResult) :
    (tlsClientConnect client result).2.isSome = client.isSome := by
  cases client with
  | none => rfl
  | some c => cases result <;> rfl

theorem readPacket_isSome {client client' : BarrierClient} {start timeoutMs : UInt64}
    {steps rest : List ReadStep} {result : Except EspErr Packet}
    (h : readPacket client start timeoutMs steps = some (result, client', rest)) :
    client'.tls.isSome = client.tls.isSome := by
  obtain ⟨f, hf, ⟨_, _, rfl, _⟩ | ⟨_, rfl⟩ | ⟨_, n, _, _, h⟩⟩ := readPacket_cases h
  · exact readLoop_isSome hf
  · exact readLoop_isSome hf
  · obtain ⟨f', _, _, hf', _, _, rfl, _⟩ := readPayload_cases h
    exact (readLoop_isSome hf').trans (readLoop_isSome hf)

theorem tlsReadFull_isSome {client client' : BarrierClient} {start : UInt64} {len : Nat}
    {steps rest : List ReadStep} {err : EspErr}
    (h : tlsReadFull client start len steps = some (err, client', rest)) :
    client'.tls.isSome = client.tls.isSome := by
  obtain ⟨f, hf, h⟩ := Option.bind_eq_some_iff.mp h
  obtain ⟨readBuf, -, hval⟩ := Option.map_eq_some_iff.mp h
  cases hval
  exact readLoop_isSome hf

theorem readServerHello_isSome {client client' : BarrierClient} {io : HandshakeIo} {err : EspErr}
    (h : readServerHello client io = some (err, client')) :
    client'.tls.isSome = client.tls.isSome := by
  obtain ⟨⟨err₁, client₁, rest₁⟩, hread, h⟩ := Option.bind_eq_some_iff.mp h
  refine Eq.trans ?_ (tlsReadFull_isSome hread)
  simp only at h
  split at h
  · cases h
    rfl
  · obtain ⟨helloLen, -, h⟩ := Option.bind_eq_some_iff.mp h
    split at h
    · cases h
      rfl
    · obtain ⟨⟨err₂, client₂, rest₂⟩, hread₂, h⟩ := Option.bind_eq_some_iff.mp h
      refine Eq.trans ?_ (tlsReadFull_isSome hread₂)
      simp only at h
      split at h
      · cases h
        rfl
      · split at h
        · cases h
          rfl
        · split at h
          · cases h
            rfl
          · obtain ⟨⟨err₃, client₃, rest₃⟩, hread₃, hval⟩ := Option.map_eq_some_iff.mp h
            cases hval
            exact tlsReadFull_isSome hread₃

theorem handshake_isSome {client client' : BarrierClient} {cfg : DeskflowConfig}
    {io : HandshakeIo} {err : EspErr} {events : List Event}
    (h : handshake client cfg io = some (err, client', events)) :
    client'.tls.isSome = client.tls.isSome := by
  have hconnected := tlsClientConnect_isSome client.tls io.connect
  unfold handshake at h
  split at h
  · next tls hconnect =>
      rw [hconnect] at hconnected
      obtain ⟨⟨err₁, client₁⟩, hread, h⟩ := Option.bind_eq_some_iff.mp h
      refine Eq.trans ?_ ((readServerHello_isSome hread).trans hconnected)
      simp only at h
      split at h
      · cases h
        rfl
      · obtain ⟨writeBuf, -, h⟩ := Option.bind_eq_some_iff.mp h
        obtain ⟨⟨sent, accepted, tls₂⟩, hwrite, hval⟩ := Option.map_eq_some_iff.mp h
        cases hval
        exact tlsClientWrite_isSome hwrite
  · next hconnect =>
      rw [hconnect] at hconnected
      cases h
      exact hconnected

/-- Without a TLS client there is no handshake. -/
theorem handshake_none {client : BarrierClient} (htls : client.tls = none) (cfg : DeskflowConfig)
    (io : HandshakeIo) : handshake client cfg io = some (.invalidArg, client, []) := by
  have hsame : { client with tls := none } = client := by rw [← htls]
  unfold handshake
  rw [htls]
  exact congrArg (fun c => some (EspErr.invalidArg, c, [])) hsame

/-- A handshake that succeeds has connected. -/
theorem handshake_ok {client client' : BarrierClient} {cfg : DeskflowConfig}
    {io : HandshakeIo} {err : EspErr} {events : List Event}
    (h : handshake client cfg io = some (err, client', events)) (hok : err = .ok) :
    client.tls.isSome = true ∧ ∃ stream, io.connect = .connected stream := by
  subst hok
  cases htls : client.tls with
  | none =>
      rw [handshake_none htls] at h
      cases h
  | some c =>
      refine ⟨rfl, ?_⟩
      cases hconnect : io.connect with
      | connected stream => exact ⟨stream, rfl⟩
      | noCerts | initFailed | connFailed =>
          rw [handshake, htls, hconnect] at h
          cases h

/-- What most steps of the task leave alone. -/
structure ClientKeeps (client client' : BarrierClient) : Prop where
  tls : client'.tls.isSome = client.tls.isSome
  maxRetries : client'.reconnect.maxRetries = client.reconnect.maxRetries
  networkEvents : client'.networkEvents = client.networkEvents
  running : client.running = true → client'.running = true

theorem ClientKeeps.refl (client : BarrierClient) : ClientKeeps client client :=
  ⟨rfl, rfl, rfl, id⟩

theorem sendPacket_keeps {client client' : BarrierClient} {pkt : Packet}
    {writes : List EspTlsResult} {err : EspErr} {events : List Event}
    (h : sendPacket client pkt writes = some (err, client', events)) :
    ClientKeeps client client' := by
  obtain ⟨⟨err', buf, outLen⟩, -, h⟩ := Option.bind_eq_some_iff.mp h
  obtain ⟨writeBuf, -, h⟩ := Option.bind_eq_some_iff.mp h
  simp only at h
  split at h
  · cases h
    exact ⟨rfl, rfl, rfl, id⟩
  · obtain ⟨⟨sent, accepted, tls⟩, hwrite, h⟩ := Option.map_eq_some_iff.mp h
    cases h
    exact ⟨tlsClientWrite_isSome hwrite, rfl, rfl, id⟩

theorem handlePacket_keeps {client client' : BarrierClient} {cfg : DeskflowConfig} {pkt : Packet}
    {io : HandleIo} {err : EspErr} {events : List Event}
    (h : handlePacket client cfg pkt io = some (err, client', events)) :
    ClientKeeps client client' := by
  have hqueue : ∀ {c : BarrierClient} {cmd : ActCmd},
      some (queueInput c cmd io) = some (err, client', events) → ClientKeeps c client' := by
    intro c cmd hq
    unfold queueInput at hq
    split at hq <;> cases hq <;> exact ⟨rfl, rfl, rfl, id⟩
  cases pkt with
  | qinf => exact sendPacket_keeps h
  | calv =>
      obtain ⟨⟨err', client'', events'⟩, hsend, hval⟩ := Option.map_eq_some_iff.mp h
      cases hval
      exact sendPacket_keeps hsend
  | dkdn | dkup | dmdn | dmup | dmwm => exact hqueue h
  | cinn e =>
      have hkeeps : ClientKeeps { client with cursorEntered := true } client' := hqueue h
      exact ⟨hkeeps.tls, hkeeps.maxRetries, hkeeps.networkEvents, hkeeps.running⟩
  | _ =>
      cases h
      exact ⟨rfl, rfl, rfl, id⟩

/-- A write that fails at once. -/
theorem exists_write_failed (tls : Option TlsClient) (len : Nat) :
    ∃ out, tlsClientWrite tls len [.failed] = some out := by
  have hloop : ∀ c, ∃ out, writeLoop len c 0 0 [.failed] = some out := by
    intro c
    rw [writeLoop.eq_def]
    split <;> exact ⟨_, rfl⟩
  unfold tlsClientWrite
  split
  · exact ⟨_, rfl⟩
  · next c =>
      split
      · obtain ⟨out, hout⟩ := hloop c
        exact ⟨_, by rw [hout, Option.map_some]⟩
      · exact ⟨_, rfl⟩

/-- A packet can always be handled, if only the reply fails. -/
theorem exists_handlePacket (client : BarrierClient) (cfg : DeskflowConfig) (pkt : Packet) :
    ∃ out, handlePacket client cfg pkt { writes := [.failed] } = some out := by
  have hsend : ∀ reply, ∃ out, sendPacket client reply [.failed] = some out := by
    intro reply
    have hroom := frame_fits reply.type
    have hsize := client.writeBuf.size_eq
    have hdata := dataBytes_length reply
    have hrequired := requiredDataLen_le reply.type
    have hhead : (frameHeader reply.type).length = barrierHeaderLen := frameHeader_length _
    have hbuf : ∃ writeBuf, Buffer.ofBytes barrierWriteBufSize (frameHeader reply.type ++
        (dataBytes reply ++ client.writeBuf.bytes.drop
          (barrierHeaderLen + (dataBytes reply).length))) = some writeBuf := by
      refine ⟨_, dif_pos ?_⟩
      rw [List.length_append, List.length_append, List.length_drop, hhead, hdata]
      omega
    obtain ⟨writeBuf, hbuf⟩ := hbuf
    obtain ⟨written, hwritten⟩ := exists_write_failed client.tls
      (barrierHeaderLen + payloadDataLen reply.type)
    rw [sendPacket, packetSerialize_eq hroom (Nat.le_of_eq hsize.symm), Option.bind_some]
    simp only [hbuf, Option.bind_some, ne_eq, not_true_eq_false, if_false, hwritten,
      Option.map_some]
    exact ⟨_, rfl⟩
  cases pkt with
  | qinf => exact hsend _
  | calv =>
      obtain ⟨out, hout⟩ := hsend .calv
      exact ⟨_, by rw [handlePacket, hout, Option.map_some]⟩
  | _ => exact ⟨_, rfl⟩

/-! ## A step of the task -/

/-- The bit `EVENT_RECONNECT`, if the client looks at it. -/
def World.asked (w : World) : Bool := w.client.networkEvents && w.reconnectBit

/-- The places between a handshake that succeeded and the next outer loop. -/
def Pc.afterHandshake : Pc → Bool
  | .connected | .loopHead | .readPacket | .timedOut | .checkBit _ | .clearBit
  | .handlePacket _ | .cleanup | .closeSession | .retry => true
  | _ => false

/-- How the task gets to the places that a reconnect goes through. -/
structure PlaceMove (w : World) (io : Io) (pc : Pc) : Prop where
  toCheck : pc = .checkReconnect →
    w.pc = .waitNetwork ∧ (w.client.networkEvents && w.client.running && !io.hasIp) = false
  toHandshake : pc = .handshake → w.pc = .checkReconnect ∧ w.asked = false
  reconfigures : pc.reconfigures = true → w.pc.reconfigures = true ∨ w.asked = true
  connects : pc.afterHandshake = true → w.pc.afterHandshake = true ∨ pc = .connected

/-- A step of the task, with what it keeps of the client. -/
structure TaskMove (w : World) (io : Io) (w' : World) : Prop where
  place : PlaceMove w io w'.pc
  maxRetries : w'.client.reconnect.maxRetries = w.client.reconnect.maxRetries
  networkEvents : w'.client.networkEvents = w.client.networkEvents
  asked : w'.asked = true → w.asked = true
  tls : w.pc ≠ .destroyTls → w.pc ≠ .createTls →
    w'.client.tls.isSome = w.client.tls.isSome
  connected : w'.pc = .connected → w.pc = .handshake ∧ w.client.tls.isSome = true ∧
    ∃ stream, io.handshake.connect = .connected stream
  running : w.client.running = true → w'.pc ≠ .stopped → w'.client.running = true
  stopped : w'.pc = .stopped → w'.client.running = false ∧
    (w.client.running = false ∨ reconnectShouldRetry w.client.reconnect = false)

section

variable {w w' : World} {io : Io}

/-- A step that goes on, with the same TLS client. -/
theorem TaskMove.of_goto {client : BarrierClient} {reconnectBit : Bool} {pc : Pc}
    {events : List Event} (hkeeps : ClientKeeps w.client client)
    (hbit : reconnectBit = true → w.reconnectBit = true) (hplace : PlaceMove w io pc)
    (hconn : pc ≠ .connected) (hstop : pc ≠ .stopped) :
    TaskMove w io ({ w with client, reconnectBit }.goto pc events) where
  place := hplace
  maxRetries := hkeeps.maxRetries
  networkEvents := hkeeps.networkEvents
  asked := fun h => by
    obtain ⟨hevents, hset⟩ := Bool.and_eq_true_iff.mp h
    exact Bool.and_eq_true_iff.mpr ⟨hkeeps.networkEvents ▸ hevents, hbit hset⟩
  tls := fun _ _ => hkeeps.tls
  connected := fun h => absurd h hconn
  running := fun h _ => hkeeps.running h
  stopped := fun h => absurd h hstop

/-- The end of the task. -/
theorem TaskMove.of_finish {client : BarrierClient} (hkeeps : ClientKeeps w.client client)
    (hwhy : w.client.running = false ∨ reconnectShouldRetry w.client.reconnect = false) :
    TaskMove w io { w with client }.finish where
  place := ⟨nofun, nofun, nofun, nofun⟩
  maxRetries := hkeeps.maxRetries
  networkEvents := hkeeps.networkEvents
  asked := fun h => by
    obtain ⟨hevents, hset⟩ := Bool.and_eq_true_iff.mp h
    exact Bool.and_eq_true_iff.mpr ⟨hkeeps.networkEvents ▸ hevents, hset⟩
  tls := fun _ _ => hkeeps.tls
  connected := nofun
  running := fun _ h => absurd rfl h
  stopped := fun _ => ⟨rfl, hwhy⟩

/-- The places before the check of `EVENT_RECONNECT`, and the check. -/
theorem taskMove_before (hpc : w.pc = .start ∨ w.pc = .outer ∨ w.pc = .waitNetwork ∨
    w.pc = .checkReconnect) (h : taskStep w io = some w') : TaskMove w io w' := by
  have hkeeps := ClientKeeps.refl w.client
  unfold taskStep at h
  rcases hpc with hw | hw | hw | hw
  · -- start
    rw [hw] at h
    cases h
    exact ⟨⟨nofun, nofun, nofun, nofun⟩, rfl, rfl, id, fun _ _ => rfl, nofun,
      fun _ _ => rfl, nofun⟩
  · -- outer
    rw [hw] at h
    cases h
    split
    · exact .of_goto hkeeps id ⟨nofun, nofun, nofun, nofun⟩ nofun nofun
    · next hrunning => exact .of_finish hkeeps (.inl (by simpa using hrunning))
  · -- waitNetwork
    rw [hw] at h
    cases h
    unfold World.stepWaitNetwork
    split
    · exact ⟨⟨by simp [hw], by simp [hw], by simp [hw, Pc.reconfigures],
        by simp [hw, Pc.afterHandshake]⟩, rfl, rfl, id, fun _ _ => rfl, by simp [hw],
        fun h _ => h, by simp [hw]⟩
    · next hgo =>
        exact .of_goto hkeeps id ⟨fun _ => ⟨hw, Bool.eq_false_iff.mpr hgo⟩, nofun, nofun,
          nofun⟩ nofun nofun
  · -- checkReconnect
    rw [hw] at h
    cases h
    unfold World.stepCheckReconnect
    split
    · next hasked =>
        exact .of_goto hkeeps id ⟨nofun, nofun, fun _ => .inr hasked, nofun⟩ nofun nofun
    · next hasked =>
        exact .of_goto hkeeps id ⟨nofun, fun _ => ⟨hw, Bool.eq_false_iff.mpr hasked⟩,
          nofun, nofun⟩ nofun nofun

theorem PlaceMove.of_reconfigures {pc : Pc} (hfrom : w.pc.reconfigures = true)
    (hto : pc.reconfigures = true) : PlaceMove w io pc := by
  cases pc with
  | clearReconnect | queueScreenSize | queueScaling | destroyTls | createTls =>
      exact ⟨nofun, nofun, fun _ => .inl hfrom, nofun⟩
  | _ => cases hto

/-- The answer to `EVENT_RECONNECT`. -/
theorem taskMove_reconfigures (hpc : w.pc.reconfigures = true) (h : taskStep w io = some w') :
    TaskMove w io w' := by
  have hkeeps := ClientKeeps.refl w.client
  unfold taskStep at h
  cases hw : w.pc with
  | clearReconnect =>
      rw [hw] at h
      cases h
      exact .of_goto hkeeps nofun (.of_reconfigures hpc rfl) nofun nofun
  | queueScreenSize | queueScaling =>
      rw [hw] at h
      cases h
      exact .of_goto hkeeps id (.of_reconfigures hpc rfl) nofun nofun
  | destroyTls =>
      rw [hw] at h
      cases h
      exact ⟨.of_reconfigures hpc rfl, rfl, rfl, id, fun hne => absurd hw hne, nofun,
        fun h _ => h, nofun⟩
  | createTls =>
      rw [hw] at h
      cases h
      unfold World.stepCreateTls
      simp only
      split <;>
        exact ⟨⟨nofun, nofun, nofun, nofun⟩, rfl, rfl, id, fun _ hne => absurd hw hne, nofun,
          fun h _ => h, nofun⟩
  | _ =>
      rw [hw] at hpc
      cases hpc

/-- The handshake, and the two ways on from it. -/
theorem taskMove_handshake (hpc : w.pc = .handshake ∨ w.pc = .handshakeFailed ∨
    w.pc = .connected) (h : taskStep w io = some w') : TaskMove w io w' := by
  unfold taskStep at h
  rcases hpc with hw | hw | hw
  · -- handshake
    rw [hw] at h
    obtain ⟨⟨err, client, events⟩, hshake, hval⟩ := Option.map_eq_some_iff.mp h
    have hsome := handshake_isSome hshake
    have hok := handshake_ok hshake
    obtain ⟨⟨tls, readBuf, writeBuf, rfl⟩, -⟩ := handshake_frame hshake
    cases hval
    by_cases herr : err = .ok
    · simp only [if_pos herr]
      exact ⟨⟨nofun, nofun, nofun, fun _ => .inr rfl⟩, rfl, rfl, id, fun _ _ => hsome,
        fun _ => ⟨hw, hok herr⟩, fun h _ => h, nofun⟩
    · simp only [if_neg herr]
      exact .of_goto ⟨hsome, rfl, rfl, id⟩ id ⟨nofun, nofun, nofun, nofun⟩ nofun nofun
  · -- handshakeFailed
    rw [hw] at h
    cases h
    unfold World.stepHandshakeFailed
    simp only
    split
    · have hclose : ClientKeeps w.client { w.client with
          state := .disconnected
          reconnect := (reconnectDelay w.client.reconnect io.random).2
          tls := tlsClientClose w.client.tls } :=
        ⟨Option.isSome_map .., rfl, rfl, id⟩
      exact .of_goto hclose id ⟨nofun, nofun, nofun, nofun⟩ nofun nofun
    · next hretry =>
        exact .of_finish ⟨rfl, rfl, rfl, id⟩ (.inr (Bool.eq_false_iff.mpr hretry))
  · -- connected
    rw [hw] at h
    cases h
    exact ⟨⟨nofun, nofun, nofun, fun _ => .inl (by rw [hw]; rfl)⟩, rfl, rfl, id,
      fun _ _ => rfl, nofun, fun h _ => h, nofun⟩

/-- From inside of a session a step stays behind the handshake. -/
theorem TaskMove.of_session {client : BarrierClient} {reconnectBit : Bool} {pc : Pc}
    {events : List Event} (hpc : w.pc.afterHandshake = true)
    (hkeeps : ClientKeeps w.client client) (hbit : reconnectBit = true → w.reconnectBit = true)
    (hto : pc.afterHandshake = true) (hconn : pc ≠ .connected) :
    TaskMove w io ({ w with client, reconnectBit }.goto pc events) := by
  cases pc with
  | connected => exact absurd rfl hconn
  | loopHead | readPacket | timedOut | checkBit | clearBit | handlePacket | cleanup
  | closeSession | retry =>
      exact .of_goto hkeeps hbit ⟨nofun, nofun, nofun, fun _ => .inl hpc⟩ nofun nofun
  | _ => cases hto

theorem taskMove_session (hpc : w.pc.inSession = true) (h : taskStep w io = some w') :
    TaskMove w io w' := by
  have hkeeps := ClientKeeps.refl w.client
  have hafter : w.pc.afterHandshake = true := by
    cases hw : w.pc <;> first | rfl | (rw [hw] at hpc; cases hpc)
  unfold taskStep at h
  cases hw : w.pc with
  | loopHead =>
      rw [hw] at h
      cases h
      unfold World.stepLoopHead
      split <;> exact .of_session hafter hkeeps id rfl nofun
  | readPacket =>
      rw [hw] at h
      obtain ⟨⟨result, client, rest⟩, hread, h⟩ := Option.bind_eq_some_iff.mp h
      have hsome := readPacket_isSome hread
      obtain ⟨tls, readBuf, rfl⟩ := readPacket_frame hread
      simp only at h
      split at h
      · cases h
      · split at h <;> cases h <;>
          exact .of_session hafter ⟨hsome, rfl, rfl, id⟩ id rfl nofun
  | timedOut =>
      rw [hw] at h
      cases h
      unfold World.stepTimedOut
      simp only
      split
      · exact .of_session hafter ⟨rfl, rfl, rfl, id⟩ id rfl nofun
      · exact .of_session hafter hkeeps id rfl nofun
  | checkBit pkt =>
      rw [hw] at h
      cases h
      unfold World.stepCheckBit
      split <;> exact .of_session hafter hkeeps id rfl nofun
  | clearBit =>
      rw [hw] at h
      cases h
      exact .of_session hafter hkeeps nofun rfl nofun
  | handlePacket pkt =>
      rw [hw] at h
      obtain ⟨⟨err, client, events⟩, hhandle, hval⟩ := Option.map_eq_some_iff.mp h
      have hkeeps := handlePacket_keeps hhandle
      simp only at hval
      split at hval <;> cases hval <;> exact .of_session hafter hkeeps id rfl nofun
  | cleanup =>
      rw [hw] at h
      cases h
      exact .of_session hafter ⟨rfl, rfl, rfl, id⟩ id rfl nofun
  | _ =>
      rw [hw] at hpc
      cases hpc

/-- The closing of the TLS client, and the delay behind a session. -/
theorem taskMove_after (hpc : w.pc = .closeTls ∨ w.pc = .closeSession ∨ w.pc = .retry)
    (h : taskStep w io = some w') : TaskMove w io w' := by
  have hkeeps := ClientKeeps.refl w.client
  have hclose : ClientKeeps w.client { w.client with tls := tlsClientClose w.client.tls } :=
    ⟨Option.isSome_map .., rfl, rfl, id⟩
  unfold taskStep at h
  rcases hpc with hw | hw | hw
  · -- closeTls
    rw [hw] at h
    cases h
    exact .of_goto hclose id ⟨nofun, nofun, nofun, nofun⟩ nofun nofun
  · -- closeSession
    rw [hw] at h
    cases h
    exact .of_session (by rw [hw]; rfl) hclose id rfl nofun
  · -- retry
    rw [hw] at h
    cases h
    unfold World.stepRetry
    split
    · next hrunning => exact .of_finish hkeeps (.inl (by simpa using hrunning))
    · split
      · exact .of_goto ⟨rfl, rfl, rfl, id⟩ id ⟨nofun, nofun, nofun, nofun⟩ nofun nofun
      · next hretry => exact .of_finish hkeeps (.inr (Bool.eq_false_iff.mpr hretry))

theorem taskStep_taskMove (h : taskStep w io = some w') : TaskMove w io w' := by
  cases hw : w.pc with
  | start => exact taskMove_before (.inl hw) h
  | outer => exact taskMove_before (.inr (.inl hw)) h
  | waitNetwork => exact taskMove_before (.inr (.inr (.inl hw))) h
  | checkReconnect => exact taskMove_before (.inr (.inr (.inr hw))) h
  | clearReconnect | queueScreenSize | queueScaling | destroyTls | createTls =>
      exact taskMove_reconfigures (by rw [hw]; rfl) h
  | handshake => exact taskMove_handshake (.inl hw) h
  | handshakeFailed => exact taskMove_handshake (.inr (.inl hw)) h
  | connected => exact taskMove_handshake (.inr (.inr hw)) h
  | closeTls => exact taskMove_after (.inl hw) h
  | closeSession => exact taskMove_after (.inr (.inl hw)) h
  | retry => exact taskMove_after (.inr (.inr hw)) h
  | stopped =>
      rw [taskStep, hw] at h
      cases h
  | loopHead | readPacket | timedOut | checkBit | clearBit | handlePacket | cleanup =>
      exact taskMove_session (by rw [hw]; rfl) h

end

end Esp32Deskflow.Barrier
