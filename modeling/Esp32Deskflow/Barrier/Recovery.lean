/-
  Barrier/Recovery.lean --- from where the client gets back into a session.

  Wherever the task stands, if it was not stopped it can get to a handshake that succeeds
  by steps of its own, given memory, a network and a server that answer.  What it cannot do
  by itself others have to: get an IP address, load the three certificates and, when
  `tls_client_create` has failed after a reconnect was asked for, set `EVENT_RECONNECT`
  again.  The bit is cleared by then and `client->tls` stays NULL, or, if it was `strdup`
  that failed, the server has no name: no handshake succeeds any more.
-/
import Esp32Deskflow.Barrier.Handshake
import Esp32Deskflow.Barrier.TlsKept
import Esp32Deskflow.Foundation.Transition

set_option autoImplicit false

namespace Esp32Deskflow.Barrier

open Esp32Deskflow.Foundation Esp32Deskflow.Foundation.Transition Esp32Deskflow.Network
  Esp32Deskflow.Config Esp32Deskflow.Tusb

/-! ## What the task finds -/

/-- The client task with what it needs from the rest of the firmware. -/
structure Situated where
  world : World
  /-- `EVENT_ETH_HAS_IP`, which nothing clears -/
  hasIp : Bool
  /-- `s_ca`, `s_client_cert` and `s_client_key` are all set -/
  certs : Bool
  /-- `strdup` has copied the server name of the present TLS client -/
  named : Bool
  deriving DecidableEq, Repr

/-- What the outside decides during a step of the client task. -/
structure TaskTurn where
  io : Io := {}
  /-- `strdup` in `tls_client_create` -/
  copied : Bool := true
  deriving DecidableEq, Repr

/-- The answers that `tls_client_connect` can get.  Without one of the certificates it asks
for nothing else, and it has no length of a server name that was not copied. -/
def connectFits (certs named : Bool) : ConnectResult → Bool
  | .noCerts => !certs
  | .initFailed => certs
  | .connFailed | .connected _ => certs && named

/-- The answers are those of the present state. -/
def Situated.fits (s : Situated) (io : Io) : Bool :=
  match s.world.pc with
  | .waitNetwork => io.hasIp == s.hasIp
  | .handshake =>
      s.world.client.tls.isNone || connectFits s.certs s.named io.handshake.connect
  | _ => true

/-- A step of the client task. -/
def Situated.taskStep (s : Situated) (turn : TaskTurn) : Option Situated :=
  if s.fits turn.io then
    (Barrier.taskStep s.world turn.io).map fun world =>
      { s with world, named := if s.world.pc = .createTls then turn.copied else s.named }
  else none

/-- Who moves. -/
inductive SituatedLabel where
  | task (turn : TaskTurn)
  | env (act : EnvAct)
  /-- `got_ip_event_handler` -/
  | gotIp
  /-- `config_load_certs` or `config_upload_cert`, with what they leave behind -/
  | loadCerts (certs : Bool)
  deriving DecidableEq, Repr

/-- One step of any task. -/
def Situated.step (s : Situated) : SituatedLabel → Option Situated
  | .task turn => s.taskStep turn
  | .env act => (envStep s.world act).map fun world => { s with world }
  | .gotIp => some { s with hasIp := true }
  | .loadCerts certs => some { s with certs }

/-- After `barrier_client_create`; `named` is what `strdup` did there. -/
def Situated.initial (cfg : DeskflowConfig) (networkEvents hasIp certs named : Bool) :
    Situated where
  world := World.initial cfg networkEvents
  hasIp := hasIp
  certs := certs
  named := named

/-- The wait for the network ends. -/
def Situated.online (s : Situated) : Bool := !s.world.client.networkEvents || s.hasIp

/-- There is a TLS client, with the name of its server. -/
def Situated.ready (s : Situated) : Bool := s.world.client.tls.isSome && s.named

/-- Behind the wait for the network, and on the way to the handshake. -/
def World.pastWait (w : World) : Bool :=
  match w.pc with
  | .checkReconnect => !w.asked
  | .handshake => true
  | _ => false

/-- A handshake that succeeds can be made now. -/
def CanConnect (s : Situated) : Prop :=
  s.world.pc = .handshake ∧ ∃ turn t, s.taskStep turn = some t ∧ t.world.pc = .connected

/-- The task can get to a handshake that succeeds by itself. -/
def Recovers (s : Situated) : Prop := CanReach Situated.taskStep CanConnect s

/-! ## What every run keeps -/

/-- A step of the client task, with what it leaves alone. -/
structure SituatedMove (s : Situated) (turn : TaskTurn) (t : Situated) : Prop where
  fits : s.fits turn.io = true
  move : TaskMove s.world turn.io t.world
  hasIp : t.hasIp = s.hasIp
  certs : t.certs = s.certs
  named : s.world.pc ≠ .createTls → t.named = s.named

section

variable {s t : Situated} {turn : TaskTurn}

theorem Situated.taskStep_move (h : s.taskStep turn = some t) : SituatedMove s turn t := by
  unfold Situated.taskStep at h
  split at h
  · next hfits =>
      obtain ⟨w, hstep, rfl⟩ := Option.map_eq_some_iff.mp h
      exact ⟨hfits, taskStep_taskMove hstep, rfl, rfl, fun hne => if_neg hne⟩
  · cases h

theorem SituatedMove.ready (h : SituatedMove s turn t) (hpc : s.world.pc.reconfigures = false) :
    t.ready = s.ready := by
  have htls := h.move.tls (fun hc => by rw [hc] at hpc; cases hpc)
    (fun hc => by rw [hc] at hpc; cases hpc)
  have hnamed := h.named (fun hc => by rw [hc] at hpc; cases hpc)
  rw [Situated.ready, htls, hnamed, Situated.ready]

theorem SituatedMove.online (h : SituatedMove s turn t) : t.online = s.online := by
  rw [Situated.online, h.move.networkEvents, h.hasIp, Situated.online]

/-- A handshake succeeds only with the certificates and the server name. -/
theorem SituatedMove.connected (h : SituatedMove s turn t) (hpc : t.world.pc = .connected) :
    s.world.pc = .handshake ∧ s.certs = true ∧ s.ready = true := by
  obtain ⟨hshake, htls, stream, hconnect⟩ := h.move.connected hpc
  have hfits := h.fits
  rw [Situated.fits, hshake] at hfits
  simp only [hconnect, connectFits, Bool.or_eq_true, Bool.and_eq_true,
    Option.isNone_iff_eq_none] at hfits
  rcases hfits with hnone | ⟨hcerts, hnamed⟩
  · rw [hnone] at htls
    cases htls
  · exact ⟨hshake, hcerts, by rw [Situated.ready, htls, hnamed]; rfl⟩

end

/-- The retries never run out, a session has its TLS client, and only the end of the task
stops it from running. -/
structure RecoverInv (s : Situated) : Prop where
  retries : s.world.client.reconnect.maxRetries < 0
  ready : s.world.pc.afterHandshake = true → s.ready = true
  stopped : s.world.pc = .stopped → s.world.client.running = false

section

variable {s t : Situated}

theorem RecoverInv.shouldRetry (h : RecoverInv s) :
    reconnectShouldRetry s.world.client.reconnect = true := by
  rw [reconnectShouldRetry, decide_eq_true h.retries, Bool.true_or]

theorem reconfigures_of_afterHandshake {pc : Pc} (h : pc.afterHandshake = true) :
    pc.reconfigures = false := by
  cases pc <;> first | rfl | cases h

theorem taskStep_recoverInv {turn : TaskTurn} (h : RecoverInv s)
    (hstep : s.taskStep turn = some t) : RecoverInv t := by
  have hmove := Situated.taskStep_move hstep
  refine ⟨hmove.move.maxRetries ▸ h.retries, fun hafter => ?_, fun hpc =>
    (hmove.move.stopped hpc).1⟩
  rcases hmove.move.place.connects hafter with hold | hconn
  · rw [hmove.ready (reconfigures_of_afterHandshake hold)]
    exact h.ready hold
  · obtain ⟨hshake, -, hready⟩ := hmove.connected hconn
    rw [hmove.ready (by rw [hshake]; rfl)]
    exact hready

theorem step_recoverInv {l : SituatedLabel} (h : RecoverInv s) (hstep : s.step l = some t) :
    RecoverInv t := by
  cases l with
  | task turn => exact taskStep_recoverInv h hstep
  | env act =>
      obtain ⟨w, hact, rfl⟩ := Option.map_eq_some_iff.mp hstep
      cases act with
      | putSettings cfg =>
          cases hact
          exact ⟨h.retries, h.ready, h.stopped⟩
      | setReconnect version =>
          simp only [envStep] at hact
          split at hact
          · cases hact
            exact ⟨h.retries, h.ready, h.stopped⟩
          · cases hact
      | stop =>
          cases hact
          exact ⟨h.retries, h.ready, fun _ => rfl⟩
  | gotIp | loadCerts certs =>
      cases hstep
      exact ⟨h.retries, h.ready, h.stopped⟩

end

theorem recoverInv_initial (cfg : DeskflowConfig) (networkEvents hasIp certs named : Bool) :
    RecoverInv (.initial cfg networkEvents hasIp certs named) :=
  ⟨show (-1 : Int) < 0 by decide, fun h => (by cases h), fun h => (by cases h)⟩

/-! ## The way to the next session -/

/-- A server hello, and the turns of the handshake that reads it and writes `n` bytes. -/
def welcome (n : Nat) : HandshakeIo where
  connect := .connected (sampleStream [])
  reads := [⟨.moved 4, 0, false⟩] ++ ([⟨.moved 11, 0, false⟩] ++ ([] ++ []))
  writes := [.moved n]

theorem startsWithHello_sample : StartsWithHello (sampleStream []) :=
  ⟨by decide, by decide, by decide, by decide, by decide⟩

/-- A handshake with a server that says hello and takes the answer. -/
theorem handshake_welcome {client : BarrierClient} (htls : client.tls.isSome = true)
    (cfg : DeskflowConfig) :
    ∃ client' events, handshake client cfg (welcome (clientHello cfg.deviceName.bytes).length) =
      some (.ok, client', events) := by
  obtain ⟨c, hc⟩ := Option.isSome_iff_exists.mp htls
  obtain ⟨tls, hconnect, husable, hin⟩ : ∃ tls, tlsClientConnect client.tls
      (welcome (clientHello cfg.deviceName.bytes).length).connect = (.ok, tls) ∧ Usable tls ∧
        inbound tls = sampleStream [] := by
    rw [hc]
    exact ⟨_, rfl, ⟨_, rfl, rfl, rfl⟩, rfl⟩
  have hlength : payloadLen (sampleStream []) = 11 := by decide
  have hstream : (sampleStream []).length = 15 := by decide
  have hcuts : HelloCuts (welcome (clientHello cfg.deviceName.bytes).length) (sampleStream [])
      [⟨.moved 4, 0, false⟩] [⟨.moved 11, 0, false⟩] [] [] := by
    refine ⟨rfl, ?_, fun _ _ _ => ?_, fun _ _ hshort _ => ?_⟩
    · simp [hstream, cuts_moved_iff, cuts_nil_iff]
    · simp [hlength, hstream, cuts_moved_iff, cuts_nil_iff]
    · rw [hlength] at hshort
      exact absurd hshort (by decide)
  obtain ⟨err, mid, hread, hpart⟩ := readServerHello_cuts { client with tls } husable hin hcuts
  obtain rfl := hpart.ok_iff.mpr startsWithHello_sample
  have hpos : 0 < (clientHello cfg.deviceName.bytes).length := by
    rw [clientHello_length]
    omega
  have hwrite : tlsClientWrite mid.tls (clientHello cfg.deviceName.bytes).length
      (welcome (clientHello cfg.deviceName.bytes).length).writes =
        some (((clientHello cfg.deviceName.bytes).length : Int),
          (clientHello cfg.deviceName.bytes).length, mid.tls) := by
    obtain ⟨c, hmid, hconn, hsome⟩ := hpart.usable rfl
    obtain ⟨stream, hstream⟩ := Option.isSome_iff_exists.mp hsome
    simp [tlsClientWrite, hmid, hconn, hstream, welcome, writeLoop, hpos, Nat.ne_of_gt hpos]
  obtain ⟨client', hcall, -⟩ := writeClientHello_spec hwrite
  refine ⟨client', [.hello (clientHello cfg.deviceName.bytes)
    (clientHello cfg.deviceName.bytes).length], ?_⟩
  simp only [handshake, hconnect, hread, Option.bind_some]
  rw [if_neg (by simp), hcall, if_neg (by omega)]

/-- The turn in which the server of the settings says hello. -/
def welcomeTurn (cfg : DeskflowConfig) : TaskTurn :=
  { io := { handshake := welcome (clientHello cfg.deviceName.bytes).length } }

/-- There is no memory for the connection. -/
def noMemory : HandshakeIo := { connect := .initFailed, reads := [], writes := [] }

theorem handshake_noMemory (client : BarrierClient) (cfg : DeskflowConfig) :
    ∃ err client', handshake client cfg noMemory =
      some (err, client', []) ∧ err ≠ .ok ∧ ClientKeeps client client' := by
  cases htls : client.tls with
  | none =>
      exact ⟨.invalidArg, client, handshake_none htls cfg _, by decide, .refl client⟩
  | some c =>
      refine ⟨.fail, { client with tls := some (if c.connected then c.dropTls else c) }, ?_,
        by decide, by rw [htls]; rfl, rfl, rfl, id⟩
      simp only [handshake, htls, tlsClientConnect, noMemory]

/-- The places whose step asks nothing of the rest of the firmware. -/
def Pc.alone : Pc → Bool
  | .waitNetwork | .createTls | .handshake => false
  | _ => true

/-- A task that was not stopped, with the certificates and the network. -/
structure Able (s : Situated) : Prop where
  running : s.world.client.running = true
  inv : RecoverInv s
  certs : s.certs = true
  online : s.online = true

section

variable {s t : Situated}

theorem Able.next {turn : TaskTurn} (h : Able s) (hstep : s.taskStep turn = some t) :
    Able t := by
  have hmove := Situated.taskStep_move hstep
  refine ⟨hmove.move.running h.running fun hpc => ?_, taskStep_recoverInv h.inv hstep,
    hmove.certs.trans h.certs, hmove.online.trans h.online⟩
  rcases (hmove.move.stopped hpc).2 with hno | hno
  · exact absurd h.running (by simp [hno])
  · exact absurd h.inv.shouldRetry (by simp [hno])

theorem Situated.taskStep_alone {io : Io} {w : World} (hpc : s.world.pc.alone = true)
    (hstep : Barrier.taskStep s.world io = some w) :
    s.taskStep { io } = some { s with world := w } := by
  have hfits : s.fits io = true := by
    unfold Situated.fits
    split
    · next hw =>
        rw [hw] at hpc
        cases hpc
    · next hw =>
        rw [hw] at hpc
        cases hpc
    · rfl
  have hne : s.world.pc ≠ .createTls := fun hw => by rw [hw] at hpc; cases hpc
  rw [Situated.taskStep, if_pos hfits, hstep, Option.map_some, if_neg hne]

/-- A step from such a place, on the way. -/
theorem Able.go {io : Io} {w : World} (h : Able s) (hpc : s.world.pc.alone = true)
    (hstep : Barrier.taskStep s.world io = some w)
    (hnext : Able { s with world := w } → Recovers { s with world := w }) : Recovers s := by
  have hgo := Situated.taskStep_alone hpc hstep
  exact .after hgo (hnext (h.next hgo))

theorem recovers_handshake (hcerts : s.certs = true) (hready : s.ready = true)
    (hpc : s.world.pc = .handshake) : Recovers s := by
  obtain ⟨htls, hnamed⟩ := Bool.and_eq_true_iff.mp hready
  obtain ⟨client', events, hshake⟩ := @handshake_welcome
    { s.world.client with state := .handshake } htls s.world.settings.current
  have hfits : s.fits (welcomeTurn s.world.settings.current).io = true := by
    simp only [Situated.fits, hpc, welcomeTurn, welcome, connectFits, hcerts, hnamed,
      Bool.and_self, Bool.or_true]
  have hgo : Barrier.taskStep s.world (welcomeTurn s.world.settings.current).io =
      some ({ s.world with client := client' }.goto .connected (.handshake :: events)) := by
    simp only [Barrier.taskStep, hpc, World.stepHandshake, welcomeTurn, hshake, Option.map_some,
      if_true]
  have hgo' : s.taskStep (welcomeTurn s.world.settings.current) = some { s with
      world := { s.world with client := client' }.goto .connected (.handshake :: events) } := by
    rw [Situated.taskStep, if_pos hfits, hgo, Option.map_some, if_neg (by simp [hpc])]
  exact .here ⟨hpc, _, _, hgo', rfl⟩

/-- The check before the handshake. -/
theorem stepCheckReconnect_eq (w : World) : w.stepCheckReconnect =
    if w.asked then w.goto .clearReconnect [] else w.goto .handshake [] := rfl

/-- Behind the wait for the network there is no need of it. -/
theorem recovers_pastWait (hcerts : s.certs = true) (hready : s.ready = true)
    (hpc : s.world.pastWait = true) : Recovers s := by
  unfold World.pastWait at hpc
  split at hpc
  · next hw =>
      have hasked : s.world.asked = false := by simpa using hpc
      have hstep : Barrier.taskStep s.world {} = some (s.world.goto .handshake []) := by
        simp only [Barrier.taskStep, hw, stepCheckReconnect_eq, hasked, Bool.false_eq_true,
          if_false]
      exact .after (Situated.taskStep_alone (by rw [hw]; rfl) hstep)
        (recovers_handshake hcerts hready rfl)
  · next hw => exact recovers_handshake hcerts hready hw
  · cases hpc

theorem recovers_waitNetwork (h : Able s) (hpc : s.world.pc = .waitNetwork)
    (hnext : ∀ t, Able t → t.world.pc = .checkReconnect → t.ready = s.ready →
      t.world.asked = s.world.asked → Recovers t) : Recovers s := by
  have hgo : s.taskStep { io := { hasIp := s.hasIp } } =
      some { s with world := s.world.goto .checkReconnect [] } := by
    have hwait : (s.world.client.networkEvents && s.world.client.running && !s.hasIp) ≠ true := by
      have honline := h.online
      rw [Situated.online] at honline
      cases hevents : s.world.client.networkEvents <;> simp_all
    simp only [Situated.taskStep, Situated.fits, hpc, beq_self_eq_true, if_true,
      Barrier.taskStep, World.stepWaitNetwork, Option.map_some]
    rw [if_neg hwait]
    simp
  exact .after hgo (hnext _ (h.next hgo) rfl rfl rfl)

theorem recovers_outer (h : Able s) (hpc : s.world.pc = .outer)
    (hnext : ∀ t, Able t → t.world.pc = .checkReconnect → t.ready = s.ready →
      t.world.asked = s.world.asked → Recovers t) : Recovers s := by
  have hstep : Barrier.taskStep s.world {} = some (s.world.goto .waitNetwork []) := by
    simp [Barrier.taskStep, hpc, h.running]
  exact h.go (by rw [hpc]; rfl) hstep fun h' => recovers_waitNetwork h' rfl hnext

/-- With a TLS client and nothing to reconnect for, the next session is a handshake away. -/
theorem recovers_outer_ready (h : Able s) (hpc : s.world.pc = .outer)
    (hready : s.ready = true) (hasked : s.world.asked = false) : Recovers s := by
  refine recovers_outer h hpc fun t ht hcheck htls hno =>
    recovers_pastWait ht.certs (htls.trans hready) ?_
  rw [World.pastWait, hcheck]
  simp [hno, hasked]

theorem recovers_closeTls (h : Able s) (hpc : s.world.pc = .closeTls)
    (hnext : ∀ t, Able t → t.world.pc = .outer → t.ready = s.ready →
      t.world.asked = s.world.asked → Recovers t) : Recovers s := by
  have hstep : Barrier.taskStep s.world {} = some ({ s.world with
      client := { s.world.client with tls := tlsClientClose s.world.client.tls } }.goto .outer
        [.tlsClose]) := by
    simp only [Barrier.taskStep, hpc]
  refine h.go (by rw [hpc]; rfl) hstep fun h' => hnext _ h' rfl ?_ rfl
  simp [Situated.ready, World.goto, tlsClientClose]

section

-- what is known of the outer loop when a new TLS client is made on the way to it
variable {asked : Bool}
  (houter : ∀ t, Able t → t.world.pc = .outer → t.ready = true → t.world.asked = asked →
    Recovers t)

include houter

theorem recovers_createTls (h : Able s) (hpc : s.world.pc = .createTls)
    (hasked : s.world.asked = asked) : Recovers s := by
  have hgo : s.taskStep {} = some { s with world := s.world.stepCreateTls {}, named := true } := by
    simp only [Situated.taskStep, Situated.fits, hpc, if_true, Barrier.taskStep, Option.map_some]
  exact .after hgo (recovers_closeTls (h.next hgo) rfl fun t ht hout hready hsame =>
    houter t ht hout hready (hsame.trans hasked))

theorem recovers_destroyTls (h : Able s) (hpc : s.world.pc = .destroyTls)
    (hasked : s.world.asked = asked) : Recovers s := by
  have hstep : Barrier.taskStep s.world {} = some ({ s.world with
      client := { s.world.client with tls := none } }.goto .createTls [.tlsDestroy]) := by
    simp only [Barrier.taskStep, hpc, tlsClientDestroy]
  exact h.go (by rw [hpc]; rfl) hstep fun h' => recovers_createTls houter h' rfl hasked

theorem recovers_queueScaling (h : Able s) (hpc : s.world.pc = .queueScaling)
    (hasked : s.world.asked = asked) : Recovers s := by
  have hstep : Barrier.taskStep s.world {} = some (s.world.goto .destroyTls
      [.act (.setScaling s.world.settings.current.scaling)]) := by
    simp only [Barrier.taskStep, hpc]
  exact h.go (by rw [hpc]; rfl) hstep fun h' => recovers_destroyTls houter h' rfl hasked

/-- Once `EVENT_RECONNECT` is cleared, a new TLS client is made. -/
theorem recovers_queueScreenSize (h : Able s) (hpc : s.world.pc = .queueScreenSize)
    (hasked : s.world.asked = asked) : Recovers s := by
  have hstep : Barrier.taskStep s.world {} = some (s.world.goto .queueScaling
      [.act (.setScreenSize s.world.settings.current.screenWidth
        s.world.settings.current.screenHeight)]) := by
    simp only [Barrier.taskStep, hpc]
  exact h.go (by rw [hpc]; rfl) hstep fun h' => recovers_queueScaling houter h' rfl hasked

end

theorem recovers_clearReconnect (h : Able s) (hpc : s.world.pc = .clearReconnect) :
    Recovers s := by
  have hstep : Barrier.taskStep s.world {} = some ({ s.world with
      reconnectBit := false }.goto .queueScreenSize [.reconnectCleared]) := by
    simp only [Barrier.taskStep, hpc]
  exact h.go (by rw [hpc]; rfl) hstep fun h' =>
    recovers_queueScreenSize (fun t ht => recovers_outer_ready ht) h' rfl (Bool.and_false _)

/-- Ready, or asked to make a new TLS client, the task gets from the outer loop to a
session. -/
theorem recovers_outer_of (h : Able s) (hpc : s.world.pc = .outer)
    (hway : s.ready = true ∨ s.world.asked = true) : Recovers s := by
  cases hasked : s.world.asked with
  | false => exact recovers_outer_ready h hpc (hway.resolve_right (by simp [hasked])) hasked
  | true =>
      refine recovers_outer h hpc fun t ht hcheck _ hyes => ?_
      have hstep : Barrier.taskStep t.world {} = some (t.world.goto .clearReconnect []) := by
        simp only [Barrier.taskStep, hcheck, stepCheckReconnect_eq, hyes, hasked, if_true]
      exact ht.go (by rw [hcheck]; rfl) hstep fun h' => recovers_clearReconnect h' rfl

theorem recovers_reconfigures (h : Able s) (hpc : s.world.pc.reconfigures = true) :
    Recovers s := by
  have houter : ∀ t, Able t → t.world.pc = .outer → t.ready = true →
      t.world.asked = s.world.asked → Recovers t :=
    fun t ht hout hready _ => recovers_outer_of ht hout (.inl hready)
  cases hw : s.world.pc with
  | clearReconnect => exact recovers_clearReconnect h hw
  | queueScreenSize => exact recovers_queueScreenSize houter h hw rfl
  | queueScaling => exact recovers_queueScaling houter h hw rfl
  | destroyTls => exact recovers_destroyTls houter h hw rfl
  | createTls => exact recovers_createTls houter h hw rfl
  | _ =>
      rw [hw] at hpc
      cases hpc

theorem recovers_handshakeFailed (h : Able s) (hpc : s.world.pc = .handshakeFailed)
    (hway : s.ready = true ∨ s.world.asked = true) : Recovers s := by
  have hstep : Barrier.taskStep s.world {} = some (s.world.stepHandshakeFailed {}) := by
    simp only [Barrier.taskStep, hpc]
  have hretry := h.inv.shouldRetry
  unfold World.stepHandshakeFailed at hstep
  simp only [hretry, if_true] at hstep
  refine h.go (by rw [hpc]; rfl) hstep fun h' =>
    recovers_outer_of h' rfl (hway.imp_left fun hready => ?_)
  simpa [Situated.ready, World.goto, tlsClientClose] using hready

/-- At the handshake the bit still counts: when it fails, the task gets back to the check. -/
theorem recovers_handshake_of (h : Able s) (hpc : s.world.pc = .handshake)
    (hway : s.ready = true ∨ s.world.asked = true) : Recovers s := by
  by_cases hready : s.ready = true
  · exact recovers_handshake h.certs hready hpc
  · obtain ⟨err, client', hfails, herr, hkeeps⟩ := handshake_noMemory
      { s.world.client with state := .handshake } s.world.settings.current
    have hgo : s.taskStep { io := { handshake := noMemory } } = some { s with
        world := { s.world with client := client' }.goto .handshakeFailed [.handshake] } := by
      have hfits : s.fits { handshake := noMemory } = true := by
        simp only [Situated.fits, hpc, noMemory, connectFits, h.certs, Bool.or_true]
      rw [Situated.taskStep, if_pos hfits, Barrier.taskStep, hpc]
      simp only [World.stepHandshake, hfails, Option.map_some, if_neg herr, reduceCtorEq, if_false]
    refine .after hgo (recovers_handshakeFailed (h.next hgo) rfl (.inr ?_))
    exact (congrArg (· && s.world.reconnectBit) hkeeps.networkEvents).trans
      (hway.resolve_left hready)

theorem recovers_checkReconnect (h : Able s) (hpc : s.world.pc = .checkReconnect)
    (hway : s.ready = true ∨ s.world.asked = true) : Recovers s := by
  have hstep : Barrier.taskStep s.world {} = some s.world.stepCheckReconnect := by
    simp only [Barrier.taskStep, hpc]
  rw [stepCheckReconnect_eq] at hstep
  split at hstep
  · exact h.go (by rw [hpc]; rfl) hstep fun h' => recovers_clearReconnect h' rfl
  · exact h.go (by rw [hpc]; rfl) hstep fun h' => recovers_handshake_of h' rfl hway

/-! ## Out of a session -/

theorem recovers_retry (h : Able s) (hpc : s.world.pc = .retry) : Recovers s := by
  have hready := h.inv.ready (by rw [hpc]; rfl)
  have hstep : Barrier.taskStep s.world {} = some (s.world.stepRetry {}) := by
    simp only [Barrier.taskStep, hpc]
  have hrunning : (!s.world.client.running) ≠ true := by simp [h.running]
  rw [World.stepRetry, if_neg hrunning, if_pos h.inv.shouldRetry] at hstep
  exact h.go (by rw [hpc]; rfl) hstep fun h' => recovers_outer_of h' rfl (.inl hready)

theorem recovers_closeSession (h : Able s) (hpc : s.world.pc = .closeSession) : Recovers s := by
  have hstep : Barrier.taskStep s.world {} = some ({ s.world with
      client := { s.world.client with tls := tlsClientClose s.world.client.tls } }.goto .retry
        [.tlsClose]) := by
    simp only [Barrier.taskStep, hpc]
  exact h.go (by rw [hpc]; rfl) hstep fun h' => recovers_retry h' rfl

theorem recovers_cleanup (h : Able s) (hpc : s.world.pc = .cleanup) : Recovers s := by
  have hstep : Barrier.taskStep s.world {} = some ({ s.world with
      client := { s.world.client with state := .disconnected, cursorEntered := false } }.goto
        .closeSession [.act .disconnected]) := by
    simp only [Barrier.taskStep, hpc]
  exact h.go (by rw [hpc]; rfl) hstep fun h' => recovers_closeSession h' rfl

/-- A read that fails ends the session. -/
theorem readPacket_failed (client : BarrierClient) (start timeoutMs : UInt64) :
    ∃ client', readPacket client start timeoutMs [⟨.failed, 0, false⟩] =
      some (.error .fail, client', []) := by
  have hread : ∃ tls, tlsClientRead client.tls .failed 4 = some (.error, tls) := by
    unfold tlsClientRead
    split
    · exact ⟨_, rfl⟩
    · split <;> exact ⟨_, rfl⟩
  obtain ⟨tls, hread⟩ := hread
  refine ⟨{ client with tls }, ?_⟩
  simp [readPacket, readLoop, hread]

theorem recovers_readPacket (h : Able s) (hpc : s.world.pc = .readPacket) : Recovers s := by
  obtain ⟨client', hread⟩ := readPacket_failed s.world.client 0 s.world.timeoutMs.toUInt64
  have hstep : Barrier.taskStep s.world { reads := [⟨.failed, 0, false⟩] } =
      some ({ s.world with client := client' }.goto .cleanup [.loopExit]) := by
    simp only [Barrier.taskStep, hpc, World.stepReadPacket, hread, Option.bind_some, ne_eq,
      not_true_eq_false, if_false]
  exact h.go (by rw [hpc]; rfl) hstep fun h' => recovers_cleanup h' rfl

theorem recovers_loopHead (h : Able s) (hpc : s.world.pc = .loopHead) : Recovers s := by
  have hstep : Barrier.taskStep s.world {} = some s.world.stepLoopHead := by
    simp only [Barrier.taskStep, hpc]
  unfold World.stepLoopHead at hstep
  split at hstep
  · exact h.go (by rw [hpc]; rfl) hstep fun h' => recovers_readPacket h' rfl
  · exact h.go (by rw [hpc]; rfl) hstep fun h' => recovers_cleanup h' rfl

theorem recovers_handlePacket {pkt : Packet} (h : Able s)
    (hpc : s.world.pc = .handlePacket pkt) : Recovers s := by
  obtain ⟨⟨err, client, events⟩, hhandle⟩ :=
    exists_handlePacket s.world.client s.world.settings.current pkt
  have hstep : Barrier.taskStep s.world { handle := { writes := [.failed] } } =
      s.world.stepHandlePacket pkt { handle := { writes := [.failed] } } := by
    simp only [Barrier.taskStep, hpc]
  simp only [World.stepHandlePacket, hhandle, Option.map_some] at hstep
  split at hstep
  · exact h.go (by rw [hpc]; rfl) hstep fun h' => recovers_loopHead h' rfl
  · exact h.go (by rw [hpc]; rfl) hstep fun h' => recovers_cleanup h' rfl

theorem recovers_clearBit (h : Able s) (hpc : s.world.pc = .clearBit) : Recovers s := by
  have hstep : Barrier.taskStep s.world {} = some ({ s.world with
      reconnectBit := false }.goto .cleanup [.reconnectCleared, .loopExit]) := by
    simp only [Barrier.taskStep, hpc]
  exact h.go (by rw [hpc]; rfl) hstep fun h' => recovers_cleanup h' rfl

theorem recovers_checkBit {pkt : Packet} (h : Able s) (hpc : s.world.pc = .checkBit pkt) :
    Recovers s := by
  have hstep : Barrier.taskStep s.world {} = some (s.world.stepCheckBit pkt) := by
    simp only [Barrier.taskStep, hpc]
  unfold World.stepCheckBit at hstep
  split at hstep
  · exact h.go (by rw [hpc]; rfl) hstep fun h' => recovers_clearBit h' rfl
  · exact h.go (by rw [hpc]; rfl) hstep fun h' => recovers_handlePacket h' rfl

/-- Behind a handshake that succeeded, the next one can. -/
theorem recovers_afterHandshake (h : Able s) (hpc : s.world.pc.afterHandshake = true) :
    Recovers s := by
  cases hw : s.world.pc with
  | connected =>
      have hstep : Barrier.taskStep s.world {} = some s.world.stepConnected := by
        simp only [Barrier.taskStep, hw]
      exact h.go (by rw [hw]; rfl) hstep fun h' => recovers_loopHead h' rfl
  | loopHead => exact recovers_loopHead h hw
  | readPacket => exact recovers_readPacket h hw
  | timedOut =>
      have hstep : Barrier.taskStep s.world {} = some (s.world.stepTimedOut {}) := by
        simp only [Barrier.taskStep, hw]
      unfold World.stepTimedOut at hstep
      simp only at hstep
      split at hstep <;>
        exact h.go (by rw [hw]; rfl) hstep fun h' => recovers_loopHead h' rfl
  | checkBit pkt => exact recovers_checkBit h hw
  | clearBit => exact recovers_clearBit h hw
  | handlePacket pkt => exact recovers_handlePacket h hw
  | cleanup => exact recovers_cleanup h hw
  | closeSession => exact recovers_closeSession h hw
  | retry => exact recovers_retry h hw
  | _ =>
      rw [hw] at hpc
      cases hpc

theorem taskStep_start {w w' : World} {io : Io} (hpc : w.pc = .start)
    (hstep : Barrier.taskStep w io = some w') :
    w' = { w with
      pc := .outer, client := { w.client with running := true, lastActivityMs := io.now } } := by
  rw [Barrier.taskStep, hpc] at hstep
  cases hstep
  rfl

/-- The task starts to run by itself. -/
theorem recovers_start (hinv : RecoverInv s) (hcerts : s.certs = true)
    (honline : s.online = true) (hpc : s.world.pc = .start)
    (hway : s.ready = true ∨ s.world.asked = true) : Recovers s := by
  have hstep : Barrier.taskStep s.world {} = some { s.world with
      pc := .outer, client := { s.world.client with running := true, lastActivityMs := 0 } } := by
    simp only [Barrier.taskStep, hpc]
  have hgo := Situated.taskStep_alone (by rw [hpc]; rfl) hstep
  exact .after hgo (recovers_outer_of ⟨rfl, taskStep_recoverInv hinv hgo, hcerts, honline⟩ rfl hway)

/-- With the network, whoever is ready, asked or on the way to a new TLS client recovers. -/
theorem recovers_of (h : Able s)
    (hway : s.ready = true ∨ s.world.asked = true ∨ s.world.pc.reconfigures = true) :
    Recovers s := by
  have hway' : s.world.pc.reconfigures = false → s.ready = true ∨ s.world.asked = true := by
    intro hno
    simpa [hno] using hway
  cases hw : s.world.pc with
  | start => exact recovers_start h.inv h.certs h.online hw (hway' (by rw [hw]; rfl))
  | outer => exact recovers_outer_of h hw (hway' (by rw [hw]; rfl))
  | waitNetwork =>
      have hold := hway' (by rw [hw]; rfl)
      refine recovers_waitNetwork h hw fun t ht hcheck hready hasked =>
        recovers_checkReconnect ht hcheck ?_
      rw [hready, hasked]
      exact hold
  | checkReconnect => exact recovers_checkReconnect h hw (hway' (by rw [hw]; rfl))
  | handshake => exact recovers_handshake_of h hw (hway' (by rw [hw]; rfl))
  | handshakeFailed => exact recovers_handshakeFailed h hw (hway' (by rw [hw]; rfl))
  | closeTls =>
      have hold := hway' (by rw [hw]; rfl)
      refine recovers_closeTls h hw fun t ht hout hready hasked => recovers_outer_of ht hout ?_
      rw [hready, hasked]
      exact hold
  | stopped => exact absurd (h.inv.stopped hw) (by simp [h.running])
  | clearReconnect | queueScreenSize | queueScaling | destroyTls | createTls =>
      exact recovers_reconfigures h (by rw [hw]; rfl)
  | connected | loopHead | readPacket | timedOut | checkBit | clearBit | handlePacket | cleanup
  | closeSession | retry => exact recovers_afterHandshake h (by rw [hw]; rfl)

/-! ## The ways that are closed -/

theorem CanConnect.ready (h : CanConnect s) : s.certs = true ∧ s.ready = true := by
  obtain ⟨-, turn, t, hstep, hpc⟩ := h
  exact ((Situated.taskStep_move hstep).connected hpc).2

theorem not_recovers_of_noCerts (hcerts : s.certs = false) : ¬ Recovers s := by
  refine @not_canReach _ _ _ _ _ (fun s => s.certs = false) (fun s turn t hno hstep => ?_)
    (fun s hno hgoal => ?_) hcerts
  · exact (Situated.taskStep_move hstep).certs.trans hno
  · exact absurd hgoal.ready.1 (by simp [hno])

/-- Not ready, and with nobody asking for a new TLS client. -/
structure Stuck (s : Situated) : Prop where
  ready : s.ready = false
  asked : s.world.asked = false
  outside : s.world.pc.afterHandshake = false
  recreates : s.world.pc.reconfigures = false

theorem taskStep_stuck {turn : TaskTurn} (h : Stuck s) (hstep : s.taskStep turn = some t) :
    Stuck t := by
  have hmove := Situated.taskStep_move hstep
  refine ⟨(hmove.ready h.recreates).trans h.ready, ?_, ?_, ?_⟩
  · exact Bool.eq_false_iff.mpr fun hasked =>
      Bool.eq_false_iff.mp h.asked (hmove.move.asked hasked)
  · refine Bool.eq_false_iff.mpr fun hafter => ?_
    rcases hmove.move.place.connects hafter with hold | hconn
    · exact Bool.eq_false_iff.mp h.outside hold
    · exact Bool.eq_false_iff.mp h.ready (hmove.connected hconn).2.2
  · refine Bool.eq_false_iff.mpr fun hnew => ?_
    rcases hmove.move.place.reconfigures hnew with hold | hasked
    · exact Bool.eq_false_iff.mp h.recreates hold
    · exact Bool.eq_false_iff.mp h.asked hasked

theorem not_recovers_of_stuck (h : Stuck s) : ¬ Recovers s := by
  refine not_canReach (fun _ _ _ => taskStep_stuck) (fun s hs hgoal => ?_) h
  exact Bool.eq_false_iff.mp hs.ready hgoal.ready.2

/-- Before a wait for the network that does not end. -/
structure Offline (s : Situated) : Prop where
  online : s.online = false
  running : s.world.pc = .start ∨ s.world.pc = .stopped ∨ s.world.client.running = true
  before : s.world.pastWait = true → s.ready = false

theorem taskStep_offline {turn : TaskTurn} (h : Offline s) (hstep : s.taskStep turn = some t) :
    Offline t := by
  have hmove := Situated.taskStep_move hstep
  refine ⟨hmove.online.trans h.online, ?_, fun hpast => ?_⟩
  · by_cases hstop : t.world.pc = .stopped
    · exact .inr (.inl hstop)
    · refine .inr (.inr ?_)
      unfold Situated.taskStep at hstep
      split at hstep
      · obtain ⟨w, hw, rfl⟩ := Option.map_eq_some_iff.mp hstep
        rcases h.running with hstart | hstopped | hrunning
        · simp only [taskStep_start hstart hw]
        · rw [Barrier.taskStep, hstopped] at hw
          cases hw
        · exact hmove.move.running hrunning hstop
      · cases hstep
  · unfold World.pastWait at hpast
    split at hpast
    · next hcheck =>
        -- the wait for the network is the only way to the check
        obtain ⟨hwait, hends⟩ := hmove.move.place.toCheck hcheck
        have hfits := hmove.fits
        simp only [Situated.fits, hwait, beq_iff_eq] at hfits
        have hrunning : s.world.client.running = true := by simpa [hwait] using h.running
        have honline := h.online
        simp only [Situated.online, Bool.or_eq_false_iff, Bool.not_eq_false'] at honline
        rw [hfits, honline.1, honline.2, hrunning] at hends
        cases hends
    · next hshake =>
        obtain ⟨hcheck, hasked⟩ := hmove.move.place.toHandshake hshake
        rw [hmove.ready (by rw [hcheck]; rfl)]
        exact h.before (by simp [World.pastWait, hcheck, hasked])
    · cases hpast

theorem not_recovers_of_offline (h : Offline s) : ¬ Recovers s := by
  refine not_canReach (fun _ _ _ => taskStep_offline) (fun s hs hgoal => ?_) h
  have hpast : s.world.pastWait = true := by rw [World.pastWait, hgoal.1]
  exact Bool.eq_false_iff.mp (hs.before hpast) hgoal.ready.2

end

/-- A reconnect that finds no memory for the new TLS client. -/
def failedRecreate : List SituatedLabel :=
  .env (.setReconnect 0) :: List.replicate 8 (.task {}) ++ [.task { io := { created := false } }]

end Esp32Deskflow.Barrier
