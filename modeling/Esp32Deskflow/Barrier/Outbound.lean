/-
  Barrier/Outbound.lean --- what the client writes on a connection.

  A write can be cut at any byte, and the handshake and the packet loop take some of the
  short writes for success.  But every incomplete write leaves the connection unusable, the
  next read fails, and nothing is written before the next connection.
-/
import Esp32Deskflow.Barrier.TaskSteps
import Esp32Deskflow.Foundation.BlockStream
import Esp32Deskflow.Foundation.History
import Esp32Deskflow.Foundation.Transition

set_option autoImplicit false

namespace Esp32Deskflow.Barrier

open Esp32Deskflow.Foundation Esp32Deskflow.Foundation.BlockWrite
  Esp32Deskflow.Foundation.History Esp32Deskflow.Foundation.Transition Esp32Deskflow.Network
  Esp32Deskflow.Config

/-! ## Connections -/

/-- A block given to `tls_client_write`, if the event is one. -/
def Event.blockWrite : Event → Option (BlockWrite UInt8)
  | .hello bytes accepted => some ⟨bytes, accepted⟩
  | .sent _ frame accepted => some ⟨frame, accepted⟩
  | _ => none

/-- The blocks given to `tls_client_write`, in order. -/
def blockWrites (events : List Event) : List (BlockWrite UInt8) :=
  events.filterMap Event.blockWrite

/-- A connection begins here. -/
def Event.isHandshake : Event → Bool
  | .handshake => true
  | _ => false

/-- The trace cut at the handshakes.  A connection is made at the beginning of a handshake and
nowhere else, so all that is written on it lies in one piece. -/
def connections (trace : List Event) : List (List Event) × List Event :=
  cut Event.isHandshake trace

/-- What was written on a connection: a hello for one of these settings, then the frames of the
packets sent; only the last of these blocks may be cut short. -/
structure FramedConnection (versions : List DeskflowConfig) (conn : List Event) : Prop where
  blocks : blockWrites conn = [] ∨ ∃ cfg ∈ versions, blocks (blockWrites conn) =
    clientHello cfg.deviceName.bytes :: (outgoing conn).map fun out => wireFrame out.pkt
  cutAtEnd : CutAtEnd (blockWrites conn)

@[simp] theorem blockWrites_append (es fs : List Event) :
    blockWrites (es ++ fs) = blockWrites es ++ blockWrites fs := List.filterMap_append

theorem blockWrites_eq_nil {events : List Event} (h : ∀ e ∈ events, e.blockWrite = none) :
    blockWrites events = [] := List.filterMap_eq_nil_iff.mpr h

/-- What writes nothing sends nothing. -/
theorem outgoing_of_noWrite {events : List Event} (h : ∀ e ∈ events, e.blockWrite = none) :
    outgoing events = [] := by
  refine outgoing_eq_nil fun e he => ?_
  have hnone := h e he
  cases e <;> first | rfl | cases hnone

theorem framedConnection_nil (versions : List DeskflowConfig) : FramedConnection versions [] :=
  ⟨Or.inl rfl, cutAtEnd_nil⟩

theorem FramedConnection.mono {versions versions' : List DeskflowConfig} {conn : List Event}
    (h : FramedConnection versions conn) (hsub : versions ⊆ versions') :
    FramedConnection versions' conn := by
  refine ⟨h.blocks.imp_right ?_, h.cutAtEnd⟩
  rintro ⟨cfg, hcfg, hblocks⟩
  exact ⟨cfg, hsub hcfg, hblocks⟩

theorem FramedConnection.append {versions : List DeskflowConfig} {conn events : List Event}
    (h : FramedConnection versions conn) (hevents : ∀ e ∈ events, e.blockWrite = none) :
    FramedConnection versions (conn ++ events) := by
  have hwrites : blockWrites (conn ++ events) = blockWrites conn := by
    rw [blockWrites_append, blockWrites_eq_nil hevents, List.append_nil]
  have hout : outgoing (conn ++ events) = outgoing conn := by
    rw [outgoing_append, outgoing_of_noWrite hevents, List.append_nil]
  refine ⟨?_, ?_⟩
  · rw [hwrites, hout]
    exact h.blocks
  · rw [hwrites]
    exact h.cutAtEnd

/-! ## What a step writes -/

/-- The hello of a handshake, unless it ends before. -/
theorem handshake_spec {client client' : BarrierClient} {cfg : DeskflowConfig} {io : HandshakeIo}
    {err : EspErr} {events : List Event}
    (h : handshake client cfg io = some (err, client', events)) :
    (err ≠ .ok ∧ events = []) ∨
      ∃ accepted, events = [.hello (clientHello cfg.deviceName.bytes) accepted] ∧
        accepted ≤ (clientHello cfg.deviceName.bytes).length ∧
        (err = .ok → accepted = (clientHello cfg.deviceName.bytes).length ∨
          ¬ Usable client'.tls) := by
  unfold handshake at h
  split at h
  · obtain ⟨⟨err₁, client₁⟩, _, h⟩ := Option.bind_eq_some_iff.mp h
    simp only at h
    split at h
    · cases h
      exact Or.inl ⟨by decide, rfl⟩
    · obtain ⟨writeBuf, _, h⟩ := Option.bind_eq_some_iff.mp h
      obtain ⟨⟨sent, accepted, tls⟩, hwrite, hval⟩ := Option.map_eq_some_iff.mp h
      obtain ⟨hle, hcomplete, _⟩ := tlsClientWrite_spec hwrite
      cases hval
      refine Or.inr ⟨accepted, rfl, hle, fun hok => hcomplete ?_⟩
      by_contra hneg
      rw [if_pos (by omega)] at hok
      cases hok
  · next err₁ tls hnotok _ =>
      cases h
      exact Or.inl ⟨hnotok, rfl⟩

/-- Outside of a session only a handshake writes. -/
theorem Pc.Emits.noWrite {pc : Pc} {e : Event} (h : pc.Emits e) (hpc : pc ≠ .handshake) :
    e.blockWrite = none ∧ e.isHandshake = false := by
  cases pc with
  | clearReconnect | destroyTls | closeTls | closeSession | handshakeFailed =>
      cases h
      exact ⟨rfl, rfl⟩
  | queueScreenSize =>
      obtain ⟨_, _, rfl⟩ := h
      exact ⟨rfl, rfl⟩
  | queueScaling =>
      obtain ⟨_, rfl⟩ := h
      exact ⟨rfl, rfl⟩
  | createTls =>
      obtain ⟨_, _, _, rfl⟩ := h
      exact ⟨rfl, rfl⟩
  | handshake => exact absurd rfl hpc
  | _ => cases h

/-- A handled packet writes the replies that it sends. -/
theorem Handled.blockWrites {client client' : BarrierClient} {pkt : Packet} {err : EspErr}
    {events : List Event} (hh : Handled client pkt err client' events) :
    blockWrites (.handled pkt :: events) =
      (outgoing events).map fun out => ⟨out.frame, out.accepted⟩ := by
  have hsame : ∀ e ∈ events, e.blockWrite =
      e.outgoing.map fun out => ⟨out.frame, out.accepted⟩ := by
    intro e he
    have hcontrol := (hh.events e (List.mem_cons_of_mem _ he)).1
    cases e <;> first | rfl | cases hcontrol
  have hhead : Barrier.blockWrites (.handled pkt :: events) = Barrier.blockWrites events := rfl
  rw [hhead, Barrier.blockWrites, outgoing, List.map_filterMap]
  exact List.filterMap_congr hsame

theorem handlePacket_accepted {client client' : BarrierClient} {cfg : DeskflowConfig}
    {pkt : Packet} {io : HandleIo} {err : EspErr} {events : List Event}
    (h : handlePacket client cfg pkt io = some (err, client', events)) :
    ∀ out ∈ outgoing events, out.accepted ≤ out.frame.length := by
  have hreply : ∀ {reply : Packet} {events : List Event} {err : EspErr} {client' : BarrierClient},
      reply.type ≠ .cinn → sendPacket client reply io.writes = some (err, client', events) →
      ∀ out ∈ outgoing events, out.accepted ≤ out.frame.length := by
    intro reply events err client' hcinn hsend out hout
    obtain ⟨_, _, accepted, _, rfl, _, _, hle⟩ := sendPacket_spec hcinn hsend
    cases List.mem_singleton.mp hout
    exact hle
  by_cases hnone : replyType pkt = none
  · rw [(handlePacket_spec h).outgoing_eq_nil hnone]
    exact nofun
  · cases pkt with
    | qinf => exact hreply (by simp [Packet.type]) h
    | calv =>
        obtain ⟨⟨err', client'', events'⟩, hsend, hval⟩ := Option.map_eq_some_iff.mp h
        cases hval
        intro out hout
        apply hreply (by decide) hsend out
        rw [outgoing_append] at hout
        apply (List.mem_append.mp hout).resolve_left
        cases cfg.keepAwake <;> simp [outgoing, Event.outgoing]
    | _ => exact absurd rfl hnone

/-! ## What holds in every state -/

/-- The client can write here, or could after a successful read. -/
def World.CanWrite (w : World) : Prop :=
  w.pc.hasPacket = true ∨
    ((w.pc = .connected ∨ (w.pc.inSession = true ∧ w.pc ≠ .cleanup)) ∧ Usable w.client.tls)

/-- The hello has been written on the present connection. -/
def Pc.greeted (pc : Pc) : Bool := pc = .connected || pc.inSession

/-- All connections are framed, and the present one can be written to only while every write on it
was whole. -/
structure OutboundInv (w : World) : Prop where
  past : ∀ conn ∈ (connections w.trace).1, FramedConnection w.settings.versions conn
  present : FramedConnection w.settings.versions (connections w.trace).2
  hello : w.pc.greeted = true → blockWrites (connections w.trace).2 ≠ []
  whole : w.CanWrite → ∀ write ∈ blockWrites (connections w.trace).2, write.Complete

theorem connections_append {trace events : List Event}
    (h : ∀ e ∈ events, e.isHandshake = false) :
    connections (trace ++ events) = ((connections trace).1, (connections trace).2 ++ events) :=
  cut_append_of_forall h

/-- A step that writes nothing. -/
theorem OutboundInv.append {w w' : World} {events : List Event} (hinv : OutboundInv w)
    (htrace : w'.trace = w.trace ++ events)
    (hevents : ∀ e ∈ events, e.blockWrite = none ∧ e.isHandshake = false)
    (hsub : w.settings.versions ⊆ w'.settings.versions)
    (hgreeted : w'.pc.greeted = true → w.pc.greeted = true)
    (hcan : w'.CanWrite → w.CanWrite) : OutboundInv w' := by
  have hcut : connections (w.trace ++ events) = _ := connections_append fun e he => (hevents e he).2
  have hnone : ∀ e ∈ events, e.blockWrite = none := fun e he => (hevents e he).1
  have hwrites : blockWrites ((connections w.trace).2 ++ events) =
      blockWrites (connections w.trace).2 := by
    rw [blockWrites_append, blockWrites_eq_nil hnone, List.append_nil]
  refine ⟨?_, ?_, ?_, ?_⟩
  · rw [htrace, hcut]
    exact fun conn hconn => (hinv.past conn hconn).mono hsub
  · rw [htrace, hcut]
    exact (hinv.present.mono hsub).append hnone
  · rw [htrace, hcut, hwrites]
    exact fun hg => hinv.hello (hgreeted hg)
  · rw [htrace, hcut, hwrites]
    exact fun hc => hinv.whole (hcan hc)

/-! ## Steps -/

theorem not_canWrite {w : World} (hin : w.pc.inSession = false) (hconn : w.pc ≠ .connected) :
    ¬ w.CanWrite := by
  rintro (hpacket | ⟨hc | ⟨hsession, _⟩, _⟩)
  · rw [Pc.inSession_of_hasPacket hpacket] at hin
    cases hin
  · exact hconn hc
  · rw [hsession] at hin
    cases hin

theorem not_greeted {pc : Pc} (hin : pc.inSession = false) (hconn : pc ≠ .connected) :
    ¬ pc.greeted = true := by
  simp [Pc.greeted, hin, hconn]

/-- A handshake begins the next connection. -/
theorem OutboundInv.handshake {w w' : World} {io : Io} (hinv : OutboundInv w)
    (hstep : w.stepHandshake io = some w') : OutboundInv w' := by
  obtain ⟨⟨err, client, events⟩, hshake, rfl⟩ := Option.map_eq_some_iff.mp hstep
  have hcurrent : w.settings.current ∈ w.settings.versions := by simp [Settings.versions]
  have hpast : ∀ conn ∈ (connections w.trace).1 ++ [(connections w.trace).2],
      FramedConnection w.settings.versions conn := by
    intro conn hconn
    rcases List.mem_append.mp hconn with hconn | hconn
    · exact hinv.past conn hconn
    · rw [List.mem_singleton.mp hconn]
      exact hinv.present
  have hcut : ∀ es : List Event, (∀ e ∈ es, e.isHandshake = false) →
      connections (w.trace ++ .handshake :: es) =
        ((connections w.trace).1 ++ [(connections w.trace).2], es) := by
    intro es hes
    have hone : connections (w.trace ++ [.handshake]) =
        ((connections w.trace).1 ++ [(connections w.trace).2], []) := cut_concat _ _
    rw [List.append_cons, connections_append hes, hone, List.nil_append]
  rcases handshake_spec hshake with ⟨hfailed, rfl⟩ | ⟨accepted, rfl, hle, hcomplete⟩
  · have hpc : (if err = EspErr.ok then Pc.connected else .handshakeFailed) = .handshakeFailed :=
      if_neg hfailed
    have hcut' := hcut [] (by simp)
    simp only [World.goto, hpc]
    refine ⟨?_, ?_, ?_, ?_⟩
    · rw [hcut']
      exact hpast
    · rw [hcut']
      exact framedConnection_nil _
    · intro hconnected
      cases hconnected
    · exact fun hc => absurd hc (not_canWrite rfl (by simp))
  · have hcut' := hcut [.hello (clientHello w.settings.current.deviceName.bytes) accepted]
      (by simp [Event.isHandshake])
    simp only [World.goto]
    refine ⟨?_, ?_, ?_, ?_⟩
    · rw [hcut']
      exact hpast
    · rw [hcut']
      refine ⟨Or.inr ⟨w.settings.current, hcurrent, rfl⟩, ?_⟩
      exact cutAtEnd_nil.concat (by simp) hle
    · rw [hcut']
      exact fun _ => List.cons_ne_nil _ _
    · rw [hcut']
      intro hcan write hwrite
      cases List.mem_singleton.mp hwrite
      by_cases hok : err = EspErr.ok
      · simp only [hok, if_true] at hcan
        rcases hcan with hpacket | ⟨_, husable⟩
        · cases hpacket
        · exact (hcomplete hok).resolve_right (not_not_intro husable)
      · simp only [hok, if_false] at hcan
        exact absurd hcan (not_canWrite rfl (by simp))

/-- The reply to a packet comes behind whole blocks, the hello first. -/
theorem FramedConnection.handled {versions : List DeskflowConfig} {conn events : List Event}
    {client client' : BarrierClient} {pkt : Packet} {err : EspErr}
    (h : FramedConnection versions conn) (hwhole : ∀ write ∈ blockWrites conn, write.Complete)
    (hhello : blockWrites conn ≠ []) (hh : Handled client pkt err client' events)
    (hle : ∀ out ∈ outgoing events, out.accepted ≤ out.frame.length) :
    FramedConnection versions (conn ++ .handled pkt :: events) := by
  have hwrites : blockWrites (conn ++ .handled pkt :: events) = blockWrites conn ++
      (outgoing events).map fun out => ⟨out.frame, out.accepted⟩ := by
    rw [blockWrites_append, hh.blockWrites]
  have hout : outgoing (conn ++ .handled pkt :: events) = outgoing conn ++ outgoing events :=
    outgoing_append conn _
  refine ⟨Or.inr ?_, ?_⟩
  · obtain ⟨cfg, hcfg, hblocks⟩ := h.blocks.resolve_left hhello
    refine ⟨cfg, hcfg, ?_⟩
    have hframes : (outgoing events).map Outgoing.frame =
        (outgoing events).map fun out => wireFrame out.pkt := List.map_congr_left hh.frames
    rw [hwrites, hout, BlockWrite.blocks, List.map_append, List.map_append, ← hframes,
      ← List.cons_append, ← hblocks, List.map_map]
    rfl
  · rw [hwrites]
    rcases hh.outgoing_cases with hnil | ⟨out, hone⟩
    · rw [hnil, List.map_nil, List.append_nil]
      exact h.cutAtEnd
    · rw [hone] at hle ⊢
      exact h.cutAtEnd.concat hwhole (hle out List.mem_cons_self)

theorem OutboundInv.handled {w w' : World} {pkt : Packet} {err : EspErr} {events : List Event}
    (hinv : OutboundInv w) (hpc : w.pc = .handlePacket pkt)
    (hh : Handled w.client pkt err w'.client events)
    (hle : ∀ out ∈ outgoing events, out.accepted ≤ out.frame.length)
    (htrace : w'.trace = w.trace ++ .handled pkt :: events) (hsettings : w'.settings = w.settings)
    (hcan : w'.CanWrite → ∀ out ∈ outgoing events, out.Complete) : OutboundInv w' := by
  have hwhole := hinv.whole (Or.inl (by rw [hpc]; rfl))
  have hhello := hinv.hello (by rw [hpc]; rfl)
  have hevents : ∀ e ∈ Event.handled pkt :: events, e.isHandshake = false := by
    intro e he
    have hcontrol := (hh.events e he).1
    cases e <;> first | rfl | cases hcontrol
  have hcut : connections w'.trace =
      ((connections w.trace).1, (connections w.trace).2 ++ .handled pkt :: events) := by
    rw [htrace]
    exact connections_append hevents
  have hwrites : blockWrites ((connections w.trace).2 ++ .handled pkt :: events) =
      blockWrites (connections w.trace).2 ++
        (outgoing events).map fun out => ⟨out.frame, out.accepted⟩ := by
    rw [blockWrites_append, hh.blockWrites]
  refine ⟨?_, ?_, ?_, ?_⟩
  · rw [hcut, hsettings]
    exact hinv.past
  · rw [hcut, hsettings]
    exact hinv.present.handled hwhole hhello hh hle
  · rw [hcut, hwrites]
    exact fun _ => List.append_ne_nil_of_left_ne_nil hhello _
  · rw [hcut, hwrites]
    intro hc write hwrite
    rcases List.mem_append.mp hwrite with hwrite | hwrite
    · exact hwhole write hwrite
    · obtain ⟨out, hout, rfl⟩ := List.mem_map.mp hwrite
      exact hcan hc out hout

theorem OutboundInv.handlePacket {w w' : World} {pkt : Packet} {io : Io} (hinv : OutboundInv w)
    (hpc : w.pc = .handlePacket pkt) (hstep : w.stepHandlePacket pkt io = some w') :
    OutboundInv w' := by
  obtain ⟨⟨err, client, events⟩, hhandle, hval⟩ := Option.map_eq_some_iff.mp hstep
  have hh := handlePacket_spec hhandle
  have hle := handlePacket_accepted hhandle
  have hnot : ∀ v : World, v.pc = .cleanup → ¬ v.CanWrite := by
    rintro v hv (hpacket | ⟨hc | ⟨_, hne⟩, _⟩)
    · rw [hv] at hpacket
      cases hpacket
    · rw [hv] at hc
      cases hc
    · exact hne hv
  simp only at hval
  split at hval
  · next hok =>
      cases hval
      refine hinv.handled hpc hh hle rfl rfl fun hcan out hout => ?_
      rcases hcan with hpacket | ⟨_, husable⟩
      · cases hpacket
      · exact (hh.complete hok out hout).resolve_right (not_not_intro husable)
  · cases hval
    have hdone : OutboundInv ({ w with client }.goto .cleanup (.handled pkt :: events)) :=
      hinv.handled hpc hh hle rfl rfl fun hcan => absurd hcan (hnot _ rfl)
    have htrace : w.trace ++ .handled pkt :: (events ++ [Event.loopExit]) =
        (w.trace ++ .handled pkt :: events) ++ [.loopExit] := by simp
    exact hdone.append htrace (by simp [Event.blockWrite, Event.isHandshake])
      (List.Subset.refl _) (fun _ => rfl) fun hcan => absurd hcan (hnot _ rfl)

theorem sessionMove_quiet {w w' : World} {events : List Event} (hmove : SessionMove w w' events) :
    ∀ e ∈ events, e.blockWrite = none ∧ e.isHandshake = false := by
  intro e he
  rcases hmove.quiet e he with rfl | rfl | rfl <;> exact ⟨rfl, rfl⟩

theorem OutboundInv.move {w w' : World} {events : List Event} (hinv : OutboundInv w)
    (hpc : w.pc.inSession = true) (hmove : SessionMove w w' events) : OutboundInv w' := by
  refine hinv.append hmove.trace (sessionMove_quiet hmove) ?_ ?_ ?_
  · rw [hmove.settings]
    exact List.Subset.refl _
  · intro _
    simp [Pc.greeted, hpc]
  · rintro (hpacket | ⟨_, husable⟩)
    · rcases hmove.packet hpacket with hold | husable
      · exact Or.inl hold
      · exact Or.inr ⟨Or.inr ⟨hpc, hmove.start⟩, husable⟩
    · exact Or.inr ⟨Or.inr ⟨hpc, hmove.start⟩, hmove.usable husable⟩

/-- Settings that have been in force stay among the versions. -/
theorem envStep_versions {w w' : World} {act : EnvAct} (hstep : envStep w act = some w') :
    w.settings.versions ⊆ w'.settings.versions := by
  intro cfg hcfg
  cases act with
  | putSettings cfg' =>
      cases hstep
      exact List.mem_append_left _ hcfg
  | setReconnect v =>
      simp only [envStep] at hstep
      split at hstep
      · cases hstep
        exact hcfg
      · cases hstep
  | stop =>
      cases hstep
      exact hcfg

theorem step_outboundInv {w w' : World} {l : Label} (hinv : OutboundInv w)
    (hstep : step w l = some w') : OutboundInv w' := by
  cases l with
  | env act =>
      obtain ⟨hpc, _, htls, _, events, htrace, hevents⟩ := envStep_frame hstep
      refine hinv.append htrace ?_ (envStep_versions hstep) ?_ ?_
      · intro e he
        obtain ⟨v, _, rfl⟩ := hevents e he
        exact ⟨rfl, rfl⟩
      · rw [hpc]
        exact id
      · unfold World.CanWrite
        rw [hpc, htls]
        exact id
  | task io =>
      by_cases hpacket : ∃ pkt, w.pc = .handlePacket pkt
      · obtain ⟨pkt, hpc⟩ := hpacket
        unfold step taskStep at hstep
        rw [hpc] at hstep
        exact hinv.handlePacket hpc hstep
      · by_cases hshake : w.pc = .handshake
        · unfold step taskStep at hstep
          rw [hshake] at hstep
          exact hinv.handshake hstep
        · by_cases hsession : w.pc.inSession = true
          · obtain ⟨events, hmove⟩ | ⟨pkt, err, events, hp⟩ |
                ⟨_, hpc', htrace, _, hsettings⟩ := taskStep_inSession hsession hstep
            · exact hinv.move hsession hmove
            · exact absurd ⟨pkt, hp.pc⟩ hpacket
            · refine hinv.append htrace (by simp [Event.blockWrite, Event.isHandshake]) ?_ ?_ ?_
              · rw [hsettings]
                exact List.Subset.refl _
              · rw [hpc']
                exact nofun
              · exact fun hcan =>
                  absurd hcan (not_canWrite (by rw [hpc']; rfl) (by rw [hpc']; nofun))
          · by_cases hconn : w.pc = .connected
            · unfold step taskStep at hstep
              rw [hconn] at hstep
              cases hstep
              refine hinv.append rfl (by simp [Event.blockWrite, Event.isHandshake])
                (List.Subset.refl _) (fun _ => by rw [hconn]; rfl) ?_
              rintro (hpk | ⟨_, husable⟩)
              · cases hpk
              · exact Or.inr ⟨Or.inl hconn, husable⟩
            · have hout := Bool.eq_false_iff.mpr hsession
              obtain ⟨events, hmove⟩ := taskStep_outsideMove hout hconn hstep
              have hpc' : w'.pc ≠ .connected := fun hc => hshake (hmove.next.connects hc)
              refine hinv.append hmove.trace ?_ ?_ ?_ ?_
              · exact fun e he => (hmove.emits e he).noWrite hshake
              · rw [hmove.settings]
                exact List.Subset.refl _
              · exact fun hg => absurd hg (not_greeted hmove.next.outside hpc')
              · exact fun hcan => absurd hcan (not_canWrite hmove.next.outside hpc')

/-! ## Runs -/

theorem outboundInv_initial (cfg : DeskflowConfig) (networkEvents : Bool) :
    OutboundInv (World.initial cfg networkEvents) where
  past := nofun
  present := ⟨Or.inl rfl, cutAtEnd_nil⟩
  hello := nofun
  whole := fun hcan => absurd hcan (not_canWrite rfl nofun)

/-- What a connection has accepted: the hello for one of these settings and the frames of the
packets sent, in order, all of them whole but for the last one that was written. -/
structure OutboundFramed (versions : List DeskflowConfig) (conn : List Event) : Prop where
  blocks : blockWrites conn = [] ∨ ∃ cfg ∈ versions, blocks (blockWrites conn) =
    clientHello cfg.deviceName.bytes :: (outgoing conn).map fun out => wireFrame out.pkt
  accepted : WholeThenCut (BlockWrite.blocks (blockWrites conn)) (stream (blockWrites conn))

/-- However esp-tls cuts, delays and breaks the writes: every connection carries whole blocks and
at most one proper prefix at its end.  `tls_client_write` returns the length only if all was
accepted, and thirty timeouts in a row end it. -/
theorem outbound_framed {cfg : DeskflowConfig} {networkEvents : Bool} {labels : List Label}
    {w : World} (hrun : run step (World.initial cfg networkEvents) labels = some w) :
    (∀ conn ∈ (connections w.trace).1 ++ [(connections w.trace).2],
      OutboundFramed w.settings.versions conn) ∧
    (∀ client client' len accepted results,
      tlsClientWrite client len results = some ((len : Int), accepted, client') →
        accepted = len) ∧
    (∀ client len pre post result, tlsClientWrite client len (pre ++ post) = some result →
      ∃ result', ∀ more, tlsClientWrite client len
        (pre ++ (List.replicate tlsWriteMaxRetries .timedOut ++ more)) = some result') := by
  have hinv := run_invariant (fun _ _ _ h => step_outboundInv h)
    (outboundInv_initial cfg networkEvents) hrun
  have hframed : ∀ conn, FramedConnection w.settings.versions conn →
      OutboundFramed w.settings.versions conn :=
    fun conn h => ⟨h.blocks, h.cutAtEnd.wholeThenCut⟩
  refine ⟨?_, fun _ _ _ _ _ => tlsClientWrite_len, fun _ _ _ _ _ => tlsClientWrite_ends⟩
  intro conn hconn
  rcases List.mem_append.mp hconn with hconn | hconn
  · exact hframed conn (hinv.past conn hconn)
  · rw [List.mem_singleton.mp hconn]
    exact hframed _ hinv.present

/-- A keep-alive whose reply is cut after three bytes, and the next connection. -/
def cutReplyLabels : List Label :=
  connectLabels 4 calvFrame ++ turnLabels 4 { writes := [.moved 3, .timedOut, .closed] } ++
    [.task {}, .task { reads := [{ result := .moved 1 }] }] ++ List.replicate 3 (.task {}) ++
    connectLabels 3 []

theorem outbound_framed_cutReply :
    ∃ w, run step (World.initial configDefaults true) cutReplyLabels = some w ∧
      (connections w.trace).1.map (fun conn => (stream (blockWrites conn)).length) = [0, 37] ∧
      (∀ conn ∈ (connections w.trace).1 ++ [(connections w.trace).2],
        OutboundFramed w.settings.versions conn) ∧
      ∃ result, ∀ more, tlsClientWrite
        (some { server := [], port := 24800, connected := true, tls := some [] }) 8
        ([.moved 3] ++ (List.replicate tlsWriteMaxRetries .timedOut ++ more)) = some result := by
  have hview : (run step (World.initial configDefaults true) cutReplyLabels).map
      (fun w => (connections w.trace).1.map fun conn => (stream (blockWrites conn)).length) =
      some [0, 37] := by
    decide +kernel
  obtain ⟨w, hrun, hlengths⟩ := Option.map_eq_some_iff.mp hview
  obtain ⟨hframed, _, hends⟩ := outbound_framed hrun
  exact ⟨w, hrun, hlengths, hframed, hends _ 8 [.moved 3] [.moved 5] _ rfl⟩

end Esp32Deskflow.Barrier
