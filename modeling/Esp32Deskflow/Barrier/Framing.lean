/-
  Barrier/Framing.lean --- the packet loop and the frames of the server's stream.

  Each call of `read_packet` has to begin where a frame begins.  A call that ends
  with `ESP_ERR_TIMEOUT` is followed by another one, so it must not have taken a part of
  a frame.  It has done so exactly if one of its reads delivered bytes before the
  timeout that met the deadline: the header and the payload are kept in local memory and
  the next call starts afresh.
-/
import Esp32Deskflow.Barrier.TaskSteps
import Esp32Deskflow.Foundation.History
import Esp32Deskflow.Foundation.Transition

set_option autoImplicit false

namespace Esp32Deskflow.Barrier

open Esp32Deskflow.Foundation Esp32Deskflow.Foundation.History
  Esp32Deskflow.Foundation.Transition Esp32Deskflow.Network Esp32Deskflow.Config

/-! ## Frames and packets of a session -/

/-- The packet loop begins here. -/
def Event.isConnected : Event → Bool
  | .act .connected => true
  | _ => false

/-- The packets handled since the last packet loop began. -/
def packetsOfSession (trace : List Event) : List Packet :=
  handledPackets (cut Event.isConnected trace).2

/-- The first frames of a stream. -/
def FirstFrames (stream : Bytes) (frames : List Bytes) : Prop :=
  (∀ frame ∈ frames, IsFrame frame) ∧ frames.flatten <+: stream

/-- The connection, if it can still be read, stands right behind these first frames of the
server's stream. -/
def StandsBehind (w : World) (frames : List Bytes) : Prop :=
  FirstFrames w.stream frames ∧
    (Usable w.client.tls → w.stream = frames.flatten ++ inbound w.client.tls)

/-- The packets handled in the session are the first frames of the stream, in order; and a
call of `read_packet` begins right behind them. -/
def InStep (w : World) : Prop :=
  ∃ frames, List.Forall₂ ParsesTo frames (packetsOfSession w.trace) ∧
    FirstFrames w.stream frames ∧ (w.pc = .readPacket → StandsBehind w frames)

/-- The step does not let a deadline pass with a frame begun. -/
def KeepsFrame (w : World) : Label → Prop
  | .task io => w.pc = .readPacket → ¬ ExpiresMidFrame io.now w.timeoutMs.toUInt64 io.reads
  | .env _ => True

instance : (w : World) → (l : Label) → Decidable (KeepsFrame w l)
  | w, .task io =>
      inferInstanceAs (Decidable (w.pc = .readPacket →
        ¬ ExpiresMidFrame io.now w.timeoutMs.toUInt64 io.reads))
  | _, .env _ => isTrue trivial

theorem packetsOfSession_append {trace events : List Event}
    (hevents : ∀ e ∈ events, e.isConnected = false) :
    packetsOfSession (trace ++ events) = packetsOfSession trace ++ handledPackets events := by
  rw [packetsOfSession, cut_append_of_forall hevents, handledPackets_append]
  rfl

theorem packetsOfSession_connected (trace : List Event) :
    packetsOfSession (trace ++ [.act .connected]) = [] := by
  rw [packetsOfSession, cut_concat]
  rfl

/-- Events that neither begin a session nor are handled packets. -/
theorem packetsOfSession_append_of_quiet {trace events : List Event}
    (hevents : ∀ e ∈ events, e.isConnected = false ∧ e.handledPacket = none) :
    packetsOfSession (trace ++ events) = packetsOfSession trace := by
  rw [packetsOfSession_append fun e he => (hevents e he).1]
  rw [handledPackets_eq_nil fun e he => (hevents e he).2, List.append_nil]

theorem quiet_of_isControl {e : Event} (h : e.isControl = true) :
    e.isConnected = false ∧ e.handledPacket = none := by
  cases e with
  | act cmd => cases cmd <;> first | exact ⟨rfl, rfl⟩ | cases h
  | handled _ => cases h
  | _ => exact ⟨rfl, rfl⟩

/-! ## The invariant -/

/-- How far the connection is, by the place of the task. -/
def FramePosition (w : World) (frames : List Bytes) : Prop :=
  match w.pc with
  | .loopHead | .readPacket | .timedOut => StandsBehind w frames
  | .checkBit pkt | .handlePacket pkt =>
      ∃ frame, ParsesTo frame pkt ∧ StandsBehind w (frames ++ [frame])
  | _ => FirstFrames w.stream frames

/-- The packets handled are those of the first frames, and the connection stands behind these. -/
def FrameInv (w : World) : Prop :=
  ∃ frames, List.Forall₂ ParsesTo frames (packetsOfSession w.trace) ∧ FramePosition w frames

theorem FirstFrames.of_append {stream : Bytes} {frames more : List Bytes}
    (h : FirstFrames stream (frames ++ more)) : FirstFrames stream frames := by
  refine ⟨fun frame hframe => h.1 frame (List.mem_append_left _ hframe), ?_⟩
  have hprefix := h.2
  rw [List.flatten_append] at hprefix
  exact (List.prefix_append _ _).trans hprefix

theorem FramePosition.firstFrames {w : World} {frames : List Bytes} (h : FramePosition w frames) :
    FirstFrames w.stream frames := by
  unfold FramePosition at h
  split at h
  · exact h.1
  · exact h.1
  · exact h.1
  · obtain ⟨_, _, hbehind⟩ := h
    exact hbehind.1.of_append
  · obtain ⟨_, _, hbehind⟩ := h
    exact hbehind.1.of_append
  · exact h

theorem FrameInv.inStep {w : World} (h : FrameInv w) : InStep w := by
  obtain ⟨frames, hpackets, hpos⟩ := h
  refine ⟨frames, hpackets, hpos.firstFrames, fun hpc => ?_⟩
  unfold FramePosition at hpos
  rwa [hpc] at hpos

/-! ## Steps -/

theorem framePosition_outside {w : World} (hpc : w.pc.inSession = false) {frames : List Bytes}
    (h : FirstFrames w.stream frames) : FramePosition w frames := by
  unfold FramePosition
  split <;> first | exact h | (rename_i hw; rw [hw] at hpc; cases hpc)

/-- Where nothing is read, only the frames handled so far matter. -/
theorem FrameInv.of_firstFrames {w w' : World} (hinv : FrameInv w)
    (hpos : ∀ frames, FirstFrames w'.stream frames → FramePosition w' frames)
    (hstream : w'.stream = w.stream)
    (hpackets : packetsOfSession w'.trace = packetsOfSession w.trace) : FrameInv w' := by
  obtain ⟨frames, hall, hold⟩ := hinv
  refine ⟨frames, ?_, hpos frames ?_⟩
  · rwa [hpackets]
  · rw [hstream]
    exact hold.firstFrames

/-- The end of the packet loop. -/
theorem FrameInv.leave {w : World} {client : BarrierClient} {reconnectBit : Bool}
    {events : List Event} (hinv : FrameInv w)
    (hquiet : ∀ e ∈ events, e.isConnected = false ∧ e.handledPacket = none) :
    FrameInv ({ w with client, reconnectBit }.goto .cleanup events) :=
  hinv.of_firstFrames (fun _ h => h) rfl (packetsOfSession_append_of_quiet hquiet)

theorem frameInv_connected (w : World) : FrameInv w.stepConnected := by
  refine ⟨[], ?_, ⟨by simp, List.nil_prefix⟩, fun _ => rfl⟩
  have hnone : packetsOfSession w.stepConnected.trace = [] := packetsOfSession_connected w.trace
  rw [hnone]
  exact .nil

theorem frameInv_loopHead {w : World} (hinv : FrameInv w) (hw : w.pc = .loopHead) :
    FrameInv w.stepLoopHead := by
  unfold World.stepLoopHead
  split
  · obtain ⟨frames, hall, hpos⟩ := hinv
    unfold FramePosition at hpos
    rw [hw] at hpos
    refine ⟨frames, ?_, hpos⟩
    rwa [World.goto, List.append_nil]
  · exact hinv.leave (by simp [Event.isConnected, Event.handledPacket])

theorem frameInv_readPacket {w w' : World} {io : Io} (hinv : FrameInv w)
    (hw : w.pc = .readPacket)
    (hkeep : ¬ ExpiresMidFrame io.now w.timeoutMs.toUInt64 io.reads)
    (h : w.stepReadPacket io = some w') : FrameInv w' := by
  obtain ⟨⟨result, client, rest⟩, hread, h⟩ := Option.bind_eq_some_iff.mp h
  have ⟨frames, hall, hpos⟩ := hinv
  unfold FramePosition at hpos
  rw [hw] at hpos
  obtain ⟨⟨hframes, hprefix⟩, hstands⟩ := hpos
  simp only at h
  split at h
  · cases h
  · split at h
    · -- A packet: its frame is the next one of the stream.
      rename_i pkt
      cases h
      obtain ⟨frame, hframe, hparse, hin, hbefore, _⟩ := readPacket_ok hread
      have hstream : w.stream = (frames ++ [frame]).flatten ++ inbound client.tls := by
        rw [hstands hbefore, hin, List.flatten_append, List.append_assoc]
        simp
      refine ⟨frames, ?_, frame, hparse, ⟨?_, ?_⟩, fun _ => hstream⟩
      · rwa [World.goto, List.append_nil]
      · intro f hf
        rcases List.mem_append.mp hf with hf | hf
        · exact hframes f hf
        · exact List.mem_singleton.mp hf ▸ hframe
      · exact ⟨inbound client.tls, hstream.symm⟩
    · -- A timeout with no frame begun: nothing has been read.
      cases h
      cases readPacket_timeout hread hkeep
      refine ⟨frames, ?_, ⟨hframes, hprefix⟩, hstands⟩
      rwa [World.goto, List.append_nil]
    · cases h
      exact hinv.leave (by simp [Event.isConnected, Event.handledPacket])

theorem frameInv_timedOut {w : World} {io : Io} (hinv : FrameInv w) (hw : w.pc = .timedOut) :
    FrameInv (w.stepTimedOut io) := by
  obtain ⟨frames, hall, hpos⟩ := hinv
  unfold FramePosition at hpos
  rw [hw] at hpos
  unfold World.stepTimedOut
  simp only
  split
  · refine ⟨frames, ?_, hpos⟩
    rw [World.goto,
      packetsOfSession_append_of_quiet (by simp [Event.isConnected, Event.handledPacket])]
    exact hall
  · refine ⟨frames, ?_, hpos⟩
    rwa [World.goto, List.append_nil]

theorem frameInv_checkBit {w : World} {pkt : Packet} (hinv : FrameInv w)
    (hw : w.pc = .checkBit pkt) : FrameInv (w.stepCheckBit pkt) := by
  obtain ⟨frames, hall, hpos⟩ := hinv
  have hfirst := hpos.firstFrames
  unfold FramePosition at hpos
  rw [hw] at hpos
  unfold World.stepCheckBit
  split
  · refine ⟨frames, ?_, hfirst⟩
    rwa [World.goto, List.append_nil]
  · refine ⟨frames, ?_, hpos⟩
    rwa [World.goto, List.append_nil]

/-- The events of a handled packet add just this packet. -/
theorem packetsOfSession_handled {client client' : BarrierClient} {pkt : Packet} {err : EspErr}
    {trace events : List Event} (hh : Handled client pkt err client' events) :
    packetsOfSession (trace ++ .handled pkt :: events) = packetsOfSession trace ++ [pkt] := by
  have hquiet : ∀ e ∈ events, e.isConnected = false ∧ e.handledPacket = none := by
    intro e he
    refine ⟨?_, hh.no_packet e he⟩
    obtain ⟨_, hconn, _⟩ := hh.events e (List.mem_cons_of_mem _ he)
    cases e with
    | act cmd => cases cmd <;> first | rfl | exact absurd rfl hconn
    | _ => rfl
  have hone : packetsOfSession (trace ++ [.handled pkt]) = packetsOfSession trace ++ [pkt] :=
    packetsOfSession_append (by simp [Event.isConnected])
  rw [List.append_cons, packetsOfSession_append_of_quiet hquiet, hone]

theorem frameInv_handlePacket {w w' : World} {pkt : Packet} {io : Io} (hinv : FrameInv w)
    (hw : w.pc = .handlePacket pkt) (h : w.stepHandlePacket pkt io = some w') : FrameInv w' := by
  obtain ⟨⟨err, client, events⟩, hhandle, hval⟩ := Option.map_eq_some_iff.mp h
  have hh := handlePacket_spec hhandle
  obtain ⟨frames, hall, hpos⟩ := hinv
  unfold FramePosition at hpos
  rw [hw] at hpos
  obtain ⟨frame, hparse, hfirst, hstands⟩ := hpos
  have hall' : List.Forall₂ ParsesTo (frames ++ [frame])
      (packetsOfSession (w.trace ++ .handled pkt :: events)) := by
    rw [packetsOfSession_handled hh]
    exact List.rel_append hall (.cons hparse .nil)
  simp only at hval
  split at hval
  · cases hval
    refine ⟨frames ++ [frame], hall', hfirst, fun husable => ?_⟩
    have hsame : client.tls = w.client.tls := hh.connection husable
    rw [World.goto] at husable ⊢
    simp only at husable ⊢
    rw [hsame] at husable ⊢
    exact hstands husable
  · cases hval
    refine ⟨frames ++ [frame], ?_, hfirst⟩
    rw [World.goto, ← List.cons_append, ← List.append_assoc, packetsOfSession_append_of_quiet (by
      simp [Event.isConnected, Event.handledPacket])]
    exact hall'

theorem taskStep_frameInv {w w' : World} {io : Io} (hinv : FrameInv w)
    (hkeep : KeepsFrame w (.task io)) (h : taskStep w io = some w') : FrameInv w' := by
  have hstep := h
  unfold taskStep at h
  cases hw : w.pc with
  | connected =>
      rw [hw] at h
      cases h
      exact frameInv_connected w
  | loopHead =>
      rw [hw] at h
      cases h
      exact frameInv_loopHead hinv hw
  | readPacket =>
      rw [hw] at h
      exact frameInv_readPacket hinv hw (hkeep hw) h
  | timedOut =>
      rw [hw] at h
      cases h
      exact frameInv_timedOut hinv hw
  | checkBit pkt =>
      rw [hw] at h
      cases h
      exact frameInv_checkBit hinv hw
  | clearBit =>
      rw [hw] at h
      cases h
      exact hinv.leave (by simp [Event.isConnected, Event.handledPacket])
  | handlePacket pkt =>
      rw [hw] at h
      exact frameInv_handlePacket hinv hw h
  | cleanup =>
      rw [hw] at h
      cases h
      refine hinv.of_firstFrames (fun _ hfirst => hfirst) rfl ?_
      exact packetsOfSession_append_of_quiet (by simp [Event.isConnected, Event.handledPacket])
  | _ =>
      obtain ⟨events, hout⟩ := taskStep_outside (by rw [hw]; rfl) (by rw [hw]; simp) hstep
      refine hinv.of_firstFrames (fun _ hfirst => framePosition_outside hout.pc hfirst)
        hout.stream ?_
      rw [hout.trace]
      exact packetsOfSession_append_of_quiet fun e he => quiet_of_isControl (hout.control e he)

theorem envStep_frameInv {w w' : World} {act : EnvAct} (hinv : FrameInv w)
    (h : envStep w act = some w') : FrameInv w' := by
  obtain ⟨hpc, hstream, htls, _, events, htrace, hevents⟩ := envStep_frame h
  obtain ⟨frames, hall, hpos⟩ := hinv
  refine ⟨frames, ?_, ?_⟩
  · rw [htrace, packetsOfSession_append_of_quiet]
    · exact hall
    · intro e he
      obtain ⟨v, _, rfl⟩ := hevents e he
      exact ⟨rfl, rfl⟩
  · unfold FramePosition StandsBehind at hpos ⊢
    rwa [hpc, hstream, htls]

theorem step_frameInv {w w' : World} {l : Label} (hinv : FrameInv w) (hkeep : KeepsFrame w l)
    (h : step w l = some w') : FrameInv w' := by
  cases l with
  | task io => exact taskStep_frameInv hinv hkeep h
  | env act => exact envStep_frameInv hinv h

/-! ## Runs -/

theorem frameInv_initial (cfg : DeskflowConfig) (networkEvents : Bool) :
    FrameInv (World.initial cfg networkEvents) := by
  refine ⟨[], ?_, by simp, List.nil_prefix⟩
  exact List.Forall₂.nil

/-- Whatever the server sends, however it is cut into reads and wherever the timeouts
fall: unless a deadline passes with a frame begun, each call of `read_packet` in the
packet loop begins at a frame boundary, and the packets handled are the first frames of
the server's stream, in order. -/
theorem packetLoop_inStep {cfg : DeskflowConfig} {networkEvents : Bool} {labels : List Label}
    {w : World} (hkeep : AllSteps step KeepsFrame (World.initial cfg networkEvents) labels)
    (hrun : run step (World.initial cfg networkEvents) labels = some w) : InStep w := by
  have hinv := run_invariant_of_good (fun _ _ _ => step_frameInv)
    (frameInv_initial cfg networkEvents) hkeep hrun
  exact hinv.inStep

/-- Two keep-alives, the first one cut into three reads with a timeout in between; then a
deadline passes with nothing read. -/
def keepAliveLabels : List Label :=
  connectLabels 4 (calvFrame ++ calvFrame) ++
    [.task {},
      .task { reads := [{ result := .moved 2 }, { result := .timedOut, now := 20 },
        { result := .moved 2 }, { result := .moved 4 }] },
      .task {}, .task { handle := { writes := [.moved 8] } }, .task {},
      .task { now := 20, reads := [{ result := .timedOut, now := 30020 }] }, .task {}, .task {}]

theorem packetLoop_inStep_keepAlives :
    ∃ w, run step (World.initial configDefaults true) keepAliveLabels = some w ∧
      w.pc = .readPacket ∧ packetsOfSession w.trace = [.calv] ∧ InStep w := by
  have hkeep : AllSteps step KeepsFrame (World.initial configDefaults true) keepAliveLabels := by
    decide +kernel
  have hrun : (run step (World.initial configDefaults true) keepAliveLabels).map
      (fun w => (w.pc, packetsOfSession w.trace)) = some (.readPacket, [.calv]) := by
    decide +kernel
  obtain ⟨w, hw, hval⟩ := Option.map_eq_some_iff.mp hrun
  obtain ⟨hpc, hpackets⟩ := Prod.mk.inj hval
  exact ⟨w, hw, hpc, hpackets, packetLoop_inStep hkeep hw⟩

/-- A keep-alive of which two bytes arrive before the deadline passes. -/
def halfFrameLabels : List Label :=
  connectLabels 4 calvFrame ++
    [.task {},
      .task { reads := [{ result := .moved 2 }, { result := .timedOut, now := 30000 }] },
      .task {}, .task {}]

/-- The next call of `read_packet` begins two bytes after a frame boundary. -/
theorem packetLoop_out_of_step :
    ¬ ∀ (cfg : DeskflowConfig) (networkEvents : Bool) (labels : List Label) (w : World),
      run step (World.initial cfg networkEvents) labels = some w → InStep w := by
  intro hall
  have hloop : (run step (World.initial configDefaults true) halfFrameLabels).map
      (fun w => (w.pc, packetsOfSession w.trace)) = some (.readPacket, []) := by
    decide +kernel
  have hstream : (run step (World.initial configDefaults true) halfFrameLabels).map
      (fun w => (w.stream, inbound w.client.tls)) = some (calvFrame, calvFrame.drop 2) := by
    decide +kernel
  have husable : (run step (World.initial configDefaults true) halfFrameLabels).map
      (fun w => w.client.tls.map TlsClient.connected) = some (some true) := by
    decide +kernel
  obtain ⟨w, hw, hval⟩ := Option.map_eq_some_iff.mp hloop
  rw [hw] at hstream husable
  obtain ⟨hpc, hpackets⟩ := Prod.mk.inj hval
  obtain ⟨hserver, hleft⟩ := Prod.mk.inj (Option.some.inj hstream)
  obtain ⟨c, hc, hconn⟩ := Option.map_eq_some_iff.mp (Option.some.inj husable)
  obtain ⟨frames, hforall, _, hbehind⟩ := hall _ _ _ w hw
  rw [hpackets] at hforall
  cases hforall
  have hhandle : c.tls.isSome := by
    cases htls : c.tls with
    | some _ => rfl
    | none =>
        rw [hc, inbound, Option.bind_some, htls] at hleft
        cases hleft
  have hstands := (hbehind hpc).2 ⟨c, hc, hconn, hhandle⟩
  rw [hserver, hleft] at hstands
  revert hstands
  decide

end Esp32Deskflow.Barrier
