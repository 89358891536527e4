/-
  Barrier/TaskSteps.lean --- what a step can do, said once for all invariants.

  A step is one of six: a step of another task; a step outside of a session; the step
  that opens a session; a step inside of it without a packet; the handling of a packet;
  the step that ends it.
-/
import Esp32Deskflow.Barrier.ClientCalls
import Esp32Deskflow.Barrier.ClientTask

set_option autoImplicit false

namespace Esp32Deskflow.Barrier

open Esp32Deskflow.Foundation Esp32Deskflow.Network Esp32Deskflow.Config

/-! ## Outside of a session -/

/-- Between the attempts to queue `ACT_CMD_CONNECTED` and `ACT_CMD_DISCONNECTED`. -/
def Pc.inSession : Pc → Bool
  | .loopHead | .readPacket | .timedOut | .checkBit _ | .clearBit | .handlePacket _
  | .cleanup => true
  | _ => false

/-- The events outside of a session: the connection, and the settings given to the actuator. -/
def Event.isControl : Event → Bool
  | .reconnectSet _ | .reconnectCleared | .tlsDestroy | .tlsCreate _ _ _ | .tlsClose
  | .handshake | .hello _ _ => true
  | .act (.setScreenSize _ _) | .act (.setScaling _) => true
  | _ => false

/-- The actions of the `EVENT_RECONNECT` check before the handshake. -/
def Pc.reconfigures : Pc → Bool
  | .clearReconnect | .queueScreenSize | .queueScaling | .destroyTls | .createTls => true
  | _ => false

/-- `EVENT_RECONNECT` is neither set nor cleared. -/
def Event.Plain (e : Event) : Prop := e ≠ .reconnectCleared ∧ ∀ v, e ≠ .reconnectSet v

/-- A step that ends outside of a session, with control events only. -/
structure OutsideStep (w w' : World) (events : List Event) : Prop where
  trace : w'.trace = w.trace ++ events
  control : ∀ e ∈ events, e.isControl = true
  pc : w'.pc.inSession = false
  stream : w'.stream = w.stream
  cursor : w'.client.cursorEntered = w.client.cursorEntered
  settings : w'.settings = w.settings
  plain : w.pc.reconfigures = false → (∀ e ∈ events, e.Plain) ∧
    (w'.pc.reconfigures = true → w'.pc = .clearReconnect)

/-- The events of a step outside of a session, by the place where it is taken. -/
def Pc.Emits (pc : Pc) (e : Event) : Prop :=
  match pc with
  | .clearReconnect => e = .reconnectCleared
  | .queueScreenSize => ∃ w h, e = .act (.setScreenSize w h)
  | .queueScaling => ∃ scaling, e = .act (.setScaling scaling)
  | .destroyTls => e = .tlsDestroy
  | .createTls => ∃ server port created, e = .tlsCreate server port created
  | .closeTls | .closeSession | .handshakeFailed => e = .tlsClose
  | .handshake => e = .handshake ∨ ∃ bytes accepted, e = .hello bytes accepted
  | _ => False

theorem Pc.Emits.isControl {pc : Pc} {e : Event} (h : pc.Emits e) : e.isControl = true := by
  cases pc with
  | clearReconnect | destroyTls | closeTls | closeSession | handshakeFailed =>
      cases h
      rfl
  | queueScreenSize =>
      obtain ⟨_, _, rfl⟩ := h
      rfl
  | queueScaling =>
      obtain ⟨_, rfl⟩ := h
      rfl
  | createTls =>
      obtain ⟨_, _, _, rfl⟩ := h
      rfl
  | handshake => rcases h with rfl | ⟨_, _, rfl⟩ <;> rfl
  | _ => cases h

theorem Pc.Emits.plain {pc : Pc} {e : Event} (h : pc.Emits e) (hpc : pc.reconfigures = false) :
    e.Plain := by
  cases pc with
  | closeTls | closeSession | handshakeFailed =>
      cases h
      exact ⟨nofun, nofun⟩
  | handshake => rcases h with rfl | ⟨_, _, rfl⟩ <;> exact ⟨nofun, nofun⟩
  | clearReconnect | queueScreenSize | queueScaling | destroyTls | createTls => cases hpc
  | _ => cases h

/-- Where a step outside of a session leads; only a handshake leads into a session. -/
structure NextPc (pc pc' : Pc) : Prop where
  outside : pc'.inSession = false
  connects : pc' = .connected → pc = .handshake
  reconfigures : pc.reconfigures = false → pc'.reconfigures = true → pc' = .clearReconnect

/-- A step outside of a session, with all that it leaves alone. -/
structure OutsideMove (w w' : World) (events : List Event) : Prop where
  trace : w'.trace = w.trace ++ events
  emits : ∀ e ∈ events, w.pc.Emits e
  next : NextPc w.pc w'.pc
  stream : w'.stream = w.stream
  cursor : w'.client.cursorEntered = w.client.cursorEntered
  settings : w'.settings = w.settings

theorem OutsideMove.outsideStep {w w' : World} {events : List Event}
    (h : OutsideMove w w' events) : OutsideStep w w' events where
  trace := h.trace
  control := fun e he => (h.emits e he).isControl
  pc := h.next.outside
  stream := h.stream
  cursor := h.cursor
  settings := h.settings
  plain := fun hold => ⟨fun e he => (h.emits e he).plain hold, h.next.reconfigures hold⟩

/-- A step without an event. -/
theorem outsideMove_of_silent {w w' : World} (htrace : w'.trace = w.trace)
    (hnext : NextPc w.pc w'.pc) (hstream : w'.stream = w.stream)
    (hcursor : w'.client.cursorEntered = w.client.cursorEntered)
    (hsettings : w'.settings = w.settings) : OutsideMove w w' [] :=
  ⟨htrace.trans (List.append_nil _).symm, by simp, hnext, hstream, hcursor, hsettings⟩

theorem outsideMove_of_goto {w : World} {client : BarrierClient} {pc : Pc}
    (hnext : NextPc w.pc pc) (hcursor : client.cursorEntered = w.client.cursorEntered) :
    OutsideMove w ({ w with client }.goto pc []) [] :=
  outsideMove_of_silent (List.append_nil _) hnext rfl hcursor rfl

theorem outsideMove_of_event {w : World} {client : BarrierClient} {reconnectBit : Bool} {pc : Pc}
    {e : Event} (hemits : w.pc.Emits e) (hnext : NextPc w.pc pc)
    (hcursor : client.cursorEntered = w.client.cursorEntered) :
    OutsideMove w ({ w with client, reconnectBit }.goto pc [e]) [e] :=
  ⟨rfl, fun _ he => List.mem_singleton.mp he ▸ hemits, hnext, rfl, hcursor, rfl⟩

theorem outsideMove_finish {w : World} {client : BarrierClient}
    (hcursor : client.cursorEntered = w.client.cursorEntered) :
    OutsideMove w { w with client }.finish [] :=
  outsideMove_of_silent rfl ⟨rfl, nofun, nofun⟩ rfl hcursor rfl

theorem taskStep_outsideMove {w w' : World} {io : Io} (hpc : w.pc.inSession = false)
    (hconn : w.pc ≠ .connected) (h : taskStep w io = some w') :
    ∃ events, OutsideMove w w' events := by
  unfold taskStep at h
  cases hw : w.pc with
  | start =>
      rw [hw] at h
      cases h
      exact ⟨[], outsideMove_of_silent rfl ⟨rfl, nofun, nofun⟩ rfl rfl rfl⟩
  | outer =>
      rw [hw] at h
      cases h
      split
      · exact ⟨[], outsideMove_of_goto ⟨rfl, nofun, nofun⟩ rfl⟩
      · exact ⟨[], outsideMove_finish rfl⟩
  | waitNetwork =>
      rw [hw] at h
      cases h
      unfold World.stepWaitNetwork
      split
      · refine ⟨[], outsideMove_of_silent rfl ⟨hpc, fun hc => absurd hc hconn, ?_⟩ rfl rfl rfl⟩
        rw [hw]
        nofun
      · exact ⟨[], outsideMove_of_goto ⟨rfl, nofun, nofun⟩ rfl⟩
  | checkReconnect =>
      rw [hw] at h
      cases h
      unfold World.stepCheckReconnect
      split
      · exact ⟨[], outsideMove_of_goto ⟨rfl, nofun, fun _ _ => rfl⟩ rfl⟩
      · exact ⟨[], outsideMove_of_goto ⟨rfl, nofun, nofun⟩ rfl⟩
  | clearReconnect | destroyTls =>
      rw [hw] at h
      cases h
      exact ⟨_, outsideMove_of_event (hw ▸ rfl) (hw ▸ ⟨rfl, nofun, nofun⟩) rfl⟩
  | queueScreenSize =>
      rw [hw] at h
      cases h
      exact ⟨_, outsideMove_of_event (hw ▸ ⟨_, _, rfl⟩) (hw ▸ ⟨rfl, nofun, nofun⟩) rfl⟩
  | queueScaling =>
      rw [hw] at h
      cases h
      exact ⟨_, outsideMove_of_event (hw ▸ ⟨_, rfl⟩) (hw ▸ ⟨rfl, nofun, nofun⟩) rfl⟩
  | createTls =>
      rw [hw] at h
      cases h
      unfold World.stepCreateTls
      simp only
      split
      · exact ⟨_, outsideMove_of_event (hw ▸ ⟨_, _, _, rfl⟩) ⟨rfl, nofun, nofun⟩ rfl⟩
      · exact ⟨_, outsideMove_of_event (hw ▸ ⟨_, _, _, rfl⟩) ⟨rfl, nofun, nofun⟩ rfl⟩
  | closeTls | closeSession =>
      rw [hw] at h
      cases h
      exact ⟨_, outsideMove_of_event (hw ▸ rfl) ⟨rfl, nofun, nofun⟩ rfl⟩
  | handshake =>
      rw [hw] at h
      obtain ⟨⟨err, client, events⟩, hshake, hval⟩ := Option.map_eq_some_iff.mp h
      obtain ⟨⟨tls, readBuf, writeBuf, rfl⟩, hevents⟩ := handshake_frame hshake
      cases hval
      refine ⟨.handshake :: events, rfl, fun e he => ?_, ⟨?_, fun _ => hw, ?_⟩, rfl, rfl, rfl⟩
      · rw [hw]
        exact (List.mem_cons.mp he).imp_right (hevents e)
      · simp only [World.goto]
        split <;> rfl
      · simp only [World.goto]
        split <;> nofun
  | handshakeFailed =>
      rw [hw] at h
      cases h
      unfold World.stepHandshakeFailed
      simp only
      split
      · exact ⟨_, outsideMove_of_event (hw ▸ rfl) ⟨rfl, nofun, nofun⟩ rfl⟩
      · exact ⟨[], outsideMove_finish rfl⟩
  | retry =>
      rw [hw] at h
      cases h
      unfold World.stepRetry
      split
      · exact ⟨[], outsideMove_finish rfl⟩
      · split
        · exact ⟨[], outsideMove_of_goto ⟨rfl, nofun, nofun⟩ rfl⟩
        · exact ⟨[], outsideMove_finish rfl⟩
  | connected => exact absurd hw hconn
  | stopped =>
      rw [hw] at h
      cases h
  | loopHead | readPacket | timedOut | checkBit | clearBit | handlePacket | cleanup =>
      rw [hw] at hpc
      cases hpc

theorem taskStep_outside {w w' : World} {io : Io} (hpc : w.pc.inSession = false)
    (hconn : w.pc ≠ .connected) (h : taskStep w io = some w') :
    ∃ events, OutsideStep w w' events :=
  (taskStep_outsideMove hpc hconn h).imp fun _ hmove => hmove.outsideStep

/-- Another task leaves the client task where it is; it may ask for a reconnect. -/
theorem envStep_frame {w w' : World} {act : EnvAct} (h : envStep w act = some w') :
    w'.pc = w.pc ∧ w'.stream = w.stream ∧ w'.client.tls = w.client.tls ∧
      w'.client.cursorEntered = w.client.cursorEntered ∧
      ∃ events, w'.trace = w.trace ++ events ∧
        ∀ e ∈ events, ∃ v, v ≤ w.settings.version ∧ e = .reconnectSet v := by
  cases act with
  | putSettings cfg =>
      cases h
      exact ⟨rfl, rfl, rfl, rfl, [], (List.append_nil _).symm, by simp⟩
  | setReconnect v =>
      simp only [envStep] at h
      split at h
      · rename_i hv
        cases h
        exact ⟨rfl, rfl, rfl, rfl, [.reconnectSet v], rfl, by simpa using hv⟩
      · cases h
  | stop =>
      cases h
      exact ⟨rfl, rfl, rfl, rfl, [], (List.append_nil _).symm, by simp⟩

/-! ## Inside of a session -/

/-- A packet has been read and is not yet handled. -/
def Pc.hasPacket : Pc → Bool
  | .checkBit _ | .clearBit | .handlePacket _ => true
  | _ => false

theorem Pc.inSession_of_hasPacket {pc : Pc} (h : pc.hasPacket = true) : pc.inSession = true := by
  cases pc <;> first | rfl | cases h

/-- A step inside of a session that handles no packet. -/
structure SessionMove (w w' : World) (events : List Event) : Prop where
  start : w.pc ≠ .cleanup
  trace : w'.trace = w.trace ++ events
  quiet : ∀ e ∈ events, e = .act .jiggle ∨ e = .reconnectCleared ∨ e = .loopExit
  cleared : .reconnectCleared ∈ events → w.pc = .clearBit
  exits : .loopExit ∈ events → w'.pc = .cleanup
  pc : w'.pc.inSession = true
  cursor : w'.client.cursorEntered = w.client.cursorEntered
  usable : Usable w'.client.tls → Usable w.client.tls
  packet : w'.pc.hasPacket = true → w.pc.hasPacket = true ∨ Usable w.client.tls
  settings : w'.settings = w.settings
  toClear : w'.pc = .clearBit →
    (∃ pkt, w.pc = .checkBit pkt) ∧ (w.client.networkEvents && w.reconnectBit) = true

/-- The handling of a packet: back to the head of the loop, or out of it. -/
structure PacketStep (w w' : World) (pkt : Packet) (err : EspErr) (events : List Event) :
    Prop where
  pc : w.pc = .handlePacket pkt
  settings : w'.settings = w.settings
  handled : Handled w.client pkt err w'.client events
  next : (err = .ok ∧ w'.pc = .loopHead ∧ w'.trace = w.trace ++ .handled pkt :: events) ∨
    (err ≠ .ok ∧ w'.pc = .cleanup ∧
      w'.trace = w.trace ++ .handled pkt :: (events ++ [.loopExit]))

theorem SessionMove.of_goto {w : World} {client : BarrierClient} {pc : Pc}
    (hstart : w.pc ≠ .cleanup) (hpc : pc.inSession = true)
    (hcursor : client.cursorEntered = w.client.cursorEntered)
    (husable : Usable client.tls → Usable w.client.tls)
    (hpacket : pc.hasPacket = true → w.pc.hasPacket = true ∨ Usable w.client.tls)
    (hclear : pc ≠ .clearBit) : SessionMove w ({ w with client }.goto pc []) [] :=
  ⟨hstart, rfl, by simp, by simp, by simp, hpc, hcursor, husable, hpacket, rfl,
    fun h => absurd h hclear⟩

theorem SessionMove.of_exit {w : World} {client : BarrierClient} (hstart : w.pc ≠ .cleanup)
    (hcursor : client.cursorEntered = w.client.cursorEntered)
    (husable : Usable client.tls → Usable w.client.tls) :
    SessionMove w ({ w with client }.goto .cleanup [.loopExit]) [.loopExit] :=
  ⟨hstart, rfl, by simp, by simp, fun _ => rfl, rfl, hcursor, husable, nofun, rfl, nofun⟩

theorem sessionMove_readPacket {w w' : World} {io : Io} (hstart : w.pc ≠ .cleanup)
    (h : w.stepReadPacket io = some w') :
    ∃ events, SessionMove w w' events := by
  obtain ⟨⟨result, client, rest⟩, hread, h⟩ := Option.bind_eq_some_iff.mp h
  have husable := readPacket_usable hread
  obtain ⟨tls, readBuf, rfl⟩ := readPacket_frame hread
  simp only at h
  split at h
  · cases h
  · split at h
    · cases h
      obtain ⟨_, _, _, _, hbefore, _⟩ := readPacket_ok hread
      exact ⟨[], .of_goto hstart rfl rfl husable (fun _ => Or.inr hbefore) nofun⟩
    · cases h
      exact ⟨[], .of_goto hstart rfl rfl husable nofun nofun⟩
    · cases h
      exact ⟨[.loopExit], .of_exit hstart rfl husable⟩

theorem taskStep_inSession {w w' : World} {io : Io} (hpc : w.pc.inSession = true)
    (h : taskStep w io = some w') :
    (∃ events, SessionMove w w' events) ∨ (∃ pkt err events, PacketStep w w' pkt err events) ∨
      (w.pc = .cleanup ∧ w'.pc = .closeSession ∧ w'.trace = w.trace ++ [.act .disconnected] ∧
        w'.client.cursorEntered = false ∧ w'.settings = w.settings) := by
  unfold taskStep at h
  cases hw : w.pc with
  | loopHead =>
      rw [hw] at h
      cases h
      unfold World.stepLoopHead
      split
      · exact Or.inl ⟨[], .of_goto (by simp [hw]) rfl rfl id nofun nofun⟩
      · exact Or.inl ⟨[.loopExit], .of_exit (by simp [hw]) rfl id⟩
  | readPacket =>
      rw [hw] at h
      exact Or.inl (sessionMove_readPacket (by simp [hw]) h)
  | timedOut =>
      rw [hw] at h
      cases h
      refine Or.inl ?_
      unfold World.stepTimedOut
      simp only
      split
      · exact ⟨[.act .jiggle], by simp [hw], rfl, by simp, by simp, by simp, rfl, rfl, id, nofun,
          rfl, nofun⟩
      · exact ⟨[], .of_goto (by simp [hw]) rfl rfl id nofun nofun⟩
  | checkBit pkt =>
      rw [hw] at h
      cases h
      have hpacket : w.pc.hasPacket = true := by rw [hw]; rfl
      unfold World.stepCheckBit
      refine Or.inl ?_
      split
      · rename_i hbit
        exact ⟨[], by simp [hw], rfl, by simp, by simp, by simp, rfl, rfl, id,
          fun _ => Or.inl hpacket, rfl, fun _ => ⟨⟨pkt, hw⟩, hbit⟩⟩
      · exact ⟨[], .of_goto (by simp [hw]) rfl rfl id (fun _ => Or.inl hpacket) nofun⟩
  | clearBit =>
      rw [hw] at h
      cases h
      exact Or.inl ⟨[.reconnectCleared, .loopExit], by simp [hw], rfl, by simp, fun _ => hw,
        fun _ => rfl, rfl, rfl, id, nofun, rfl, nofun⟩
  | handlePacket pkt =>
      rw [hw] at h
      obtain ⟨⟨err, client, events⟩, hhandle, hval⟩ := Option.map_eq_some_iff.mp h
      have hh := handlePacket_spec hhandle
      refine Or.inr (Or.inl ⟨pkt, err, events, ?_⟩)
      simp only at hval
      split at hval
      · rename_i herr
        cases hval
        exact ⟨hw, rfl, hh, Or.inl ⟨herr, rfl, rfl⟩⟩
      · rename_i herr
        cases hval
        exact ⟨hw, rfl, hh, Or.inr ⟨herr, rfl, rfl⟩⟩
  | cleanup =>
      rw [hw] at h
      cases h
      exact Or.inr (Or.inr ⟨rfl, rfl, rfl, rfl, rfl⟩)
  | _ =>
      rw [hw] at hpc
      cases hpc

/-- The events of a handled packet. -/
theorem Handled.events {client client' : BarrierClient} {pkt : Packet} {err : EspErr}
    {events : List Event} (hh : Handled client pkt err client' events) :
    ∀ e ∈ Event.handled pkt :: events, e.isControl = false ∧ e ≠ .act .connected ∧
      e ≠ .act .disconnected ∧ e ≠ .loopExit := by
  intro e he
  rcases List.mem_cons.mp he with rfl | he
  · exact ⟨rfl, nofun, nofun, nofun⟩
  · rcases hh.calls e he with hcall | hcall
    · cases e with
      | act cmd => cases cmd <;> first | (cases hcall; done) | exact ⟨rfl, nofun, nofun, nofun⟩
      | setMovement | moveRelative => exact ⟨rfl, nofun, nofun, nofun⟩
      | _ => cases hcall
    · cases e with
      | sent => exact ⟨rfl, nofun, nofun, nofun⟩
      | _ => cases hcall

/-! ## All steps -/

/-- The six kinds of steps. -/
inductive StepKind (w w' : World) : Prop
  | other (events : List Event) (hpc : w'.pc = w.pc) (htls : w'.client.tls = w.client.tls)
      (hcursor : w'.client.cursorEntered = w.client.cursorEntered)
      (htrace : w'.trace = w.trace ++ events) (hevents : ∀ e ∈ events, ∃ v, e = .reconnectSet v)
  | outside (events : List Event) (hpc : w.pc.inSession = false)
      (hstep : OutsideStep w w' events)
      (hclose : w.pc = .closeSession → events = [.tlsClose])
  | opens (hpc : w.pc = .connected) (hw' : w' = w.stepConnected)
  | move (events : List Event) (hpc : w.pc.inSession = true) (hstep : SessionMove w w' events)
  | packet (pkt : Packet) (err : EspErr) (events : List Event)
      (hstep : PacketStep w w' pkt err events)
  | closes (hpc : w.pc = .cleanup) (hpc' : w'.pc = .closeSession)
      (htrace : w'.trace = w.trace ++ [.act .disconnected])
      (hcursor : w'.client.cursorEntered = false) (hsettings : w'.settings = w.settings)

theorem step_kind {w w' : World} {l : Label} (h : step w l = some w') : StepKind w w' := by
  cases l with
  | env act =>
      obtain ⟨hpc, _, htls, hcursor, events, htrace, hevents⟩ := envStep_frame h
      exact .other events hpc htls hcursor htrace fun e he =>
        have ⟨v, _, hv⟩ := hevents e he
        ⟨v, hv⟩
  | task io =>
      by_cases hpc : w.pc.inSession = true
      · obtain ⟨events, hmove⟩ | ⟨pkt, err, events, hpacket⟩ |
            ⟨hclose, hpc', htrace, hcursor, hsettings⟩ := taskStep_inSession hpc h
        · exact .move events hpc hmove
        · exact .packet pkt err events hpacket
        · exact .closes hclose hpc' htrace hcursor hsettings
      · have hout := Bool.eq_false_iff.mpr hpc
        by_cases hconn : w.pc = .connected
        · have hw' : taskStep w io = some w.stepConnected := by
            unfold taskStep
            rw [hconn]
          exact .opens hconn (Option.some.inj (h.symm.trans hw'))
        · by_cases hclose : w.pc = .closeSession
          · unfold step taskStep at h
            rw [hclose] at h
            cases h
            have hemits : w.pc.Emits .tlsClose := by
              rw [hclose]
              rfl
            refine .outside [.tlsClose] hout (OutsideMove.outsideStep ?_) fun _ => rfl
            exact outsideMove_of_event hemits ⟨rfl, nofun, nofun⟩ rfl
          · obtain ⟨events, hstep⟩ := taskStep_outside hout hconn h
            exact .outside events hout hstep fun hc => absurd hc hclose

end Esp32Deskflow.Barrier
