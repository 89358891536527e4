/-
  Barrier/InputPath.lean --- from the server's bytes to the calls of the actuator.

  What the user does arrives as packets in a byte stream that TLS hands out in pieces of
  any size, with timeouts in between.  Unless a deadline passes with a frame begun, the
  calls that the client makes for the user are those of the packets that the server has
  written, one call for each, in order.  Of a clipboard packet the client keeps the type
  only, and makes no call.  Jiggles are the client's own calls.
-/
import Esp32Deskflow.Barrier.Framing
import Esp32Deskflow.Barrier.PacketGrammar
import Esp32Deskflow.Foundation.BlockStream

set_option autoImplicit false

namespace Esp32Deskflow.Barrier

open Esp32Deskflow.Foundation Esp32Deskflow.Foundation.History
  Esp32Deskflow.Foundation.Transition Esp32Deskflow.Network Esp32Deskflow.Config
  Esp32Deskflow.Tusb

/-! ## What the server writes -/

/-- The frame of a packet as the server writes it. -/
def serverFrame (pkt : Packet) : Bytes :=
  u32Bytes (barrierCodeLen + requiredDataLen pkt.type).toUInt32 ++
    (typeToCode pkt.type ++ dataBytes pkt)

theorem required_toNat (t : PacketType) :
    (barrierCodeLen + requiredDataLen t).toUInt32.toNat = barrierCodeLen + requiredDataLen t := by
  cases t <;> rfl

theorem isFrame_serverFrame (pkt : Packet) : IsFrame (serverFrame pkt) := by
  refine ⟨_, _, rfl, ?_⟩
  rw [required_toNat, List.length_append, typeToCode_length, dataBytes_length]

/-- The parser records what the server wrote. -/
theorem parsesTo_serverFrame (pkt : Packet) : ParsesTo (serverFrame pkt) (recorded pkt) := by
  have hlen : barrierHeaderLen ≤ (serverFrame pkt).length := by
    rw [serverFrame, List.length_append, List.length_append, u32Bytes_length, typeToCode_length]
    exact Nat.add_le_add_left (Nat.le_add_right _ _) 4
  have hdata := parseData_recorded pkt [] (Nat.le_refl (requiredDataLen pkt.type))
  rw [List.append_nil] at hdata
  change packetParse (u32Bytes _ ++ (typeToCode pkt.type ++ dataBytes pkt))
    (serverFrame pkt).length = _
  rw [packetParse_frame _ _ _ hlen, required_toNat, if_pos (Nat.le_add_right _ _),
    Nat.add_sub_cancel_left, hdata]

/-- The length prefix says where a frame ends. -/
theorem prefixFree_isFrame : PrefixFree IsFrame := by
  rintro _ _ ⟨n, payload, rfl, hn⟩ ⟨m, payload', rfl, hm⟩ hprefix
  obtain ⟨rest, hrest⟩ := hprefix
  rw [List.append_assoc] at hrest
  obtain ⟨hword, hpayload⟩ := List.append_inj hrest (by rw [u32Bytes_length, u32Bytes_length])
  have hnm : n = m := by
    have hread := ioReadU32Be_u32Bytes [] [] n
    rw [hword, ioReadU32Be_u32Bytes [] [] m] at hread
    exact (Option.some.inj hread).symm
  have hnil : rest = [] := by
    have hlengths := congrArg List.length hpayload
    rw [List.length_append, hn, hm, hnm] at hlengths
    exact List.length_eq_zero_iff.mp (by omega)
  rw [hnil, List.append_nil] at hpayload
  rw [hword, hpayload]

/-! ## The calls of a packet -/

/-- The call that a packet of the user leads to. -/
def userCall : Packet → Option Event
  | .dmmv m => some (.setMovement m.x m.y)
  | .dmrm m => some (.moveRelative m.dx m.dy)
  | .dkdn k => some (.act (.keyDown k.id k.mask k.button))
  | .dkup k => some (.act (.keyUp k.id k.mask k.button))
  | .dkrp k => some (.act (.keyRepeat k.id k.mask k.button k.count))
  | .dmdn b => some (.act (.mouseDown b.id))
  | .dmup b => some (.act (.mouseUp b.id))
  | .dmwm w => some (.act (.mouseWheel w.dx w.dy))
  | .cinn e => some (.act (.enter e.x e.y e.mask))
  | .cout => some (.act .leave)
  | _ => none

/-- A call for the user, and no jiggle. -/
def Event.isUserCall (e : Event) : Bool := e.isInput && e != .act .jiggle

/-- The calls for the user, in order. -/
def userCalls (events : List Event) : List Event := events.filter Event.isUserCall

/-- The calls for the user since the last packet loop began. -/
def callsOfSession (trace : List Event) : List Event :=
  userCalls (cut Event.isConnected trace).2

theorem userCalls_sendPacket {client client' : BarrierClient} {pkt : Packet}
    {writes : List EspTlsResult} {err : EspErr} {events : List Event}
    (h : sendPacket client pkt writes = some (err, client', events)) : userCalls events = [] := by
  obtain ⟨⟨err', buf, outLen⟩, -, h⟩ := Option.bind_eq_some_iff.mp h
  obtain ⟨writeBuf, -, h⟩ := Option.bind_eq_some_iff.mp h
  simp only at h
  split at h
  · cases h
    rfl
  · obtain ⟨⟨sent, accepted, tls⟩, -, h⟩ := Option.map_eq_some_iff.mp h
    cases h
    rfl

theorem queueInput_events (client : BarrierClient) (cmd : ActCmd) (io : HandleIo) :
    (queueInput client cmd io).2.2 = [.act cmd] := by
  unfold queueInput
  split <;> rfl

/-- A packet makes the client call the actuator exactly as it says. -/
theorem userCalls_handlePacket {client client' : BarrierClient} {cfg : DeskflowConfig}
    {pkt : Packet} {io : HandleIo} {err : EspErr} {events : List Event}
    (h : handlePacket client cfg pkt io = some (err, client', events)) :
    userCalls events = (userCall pkt).toList := by
  have hqueue : ∀ {c : BarrierClient} {cmd : ActCmd},
      some (queueInput c cmd io) = some (err, client', events) → events = [.act cmd] := by
    intro c cmd hq
    rw [← queueInput_events c cmd io, Option.some.inj hq]
  cases pkt with
  | qinf => exact userCalls_sendPacket h
  | calv =>
      obtain ⟨⟨err', client'', events'⟩, hsend, hval⟩ := Option.map_eq_some_iff.mp h
      cases hval
      have hsent := userCalls_sendPacket hsend
      unfold userCalls at hsent ⊢
      rw [List.filter_append, hsent, List.append_nil]
      cases cfg.keepAwake <;> rfl
  | dmmv | dmrm | dkrp | cout =>
      cases h
      rfl
  | dkdn | dkup | dmdn | dmup | dmwm | cinn =>
      rw [hqueue h]
      rfl
  | cbye | eunk | ebsy | ebad | eicv | dinf | ciak | cnop | crop | cclp | dclp | dsop | unknown =>
      cases h
      rfl

/-! ## The invariant -/

/-- The calls of the session are those of its packets. -/
def CallsInv (w : World) : Prop :=
  callsOfSession w.trace = (packetsOfSession w.trace).filterMap userCall

theorem callsOfSession_append {trace events : List Event}
    (hevents : ∀ e ∈ events, e.isConnected = false) :
    callsOfSession (trace ++ events) = callsOfSession trace ++ userCalls events := by
  rw [callsOfSession, cut_append_of_forall hevents, userCalls, List.filter_append]
  rfl

/-- Events that neither begin a session nor come from a packet. -/
def Event.Idle (e : Event) : Prop :=
  e.isConnected = false ∧ e.handledPacket = none ∧ e.isUserCall = false

theorem CallsInv.append_of_idle {w w' : World} {events : List Event} (h : CallsInv w)
    (htrace : w'.trace = w.trace ++ events) (hevents : ∀ e ∈ events, e.Idle) : CallsInv w' := by
  have hnone : userCalls events = [] := by
    rw [userCalls, List.filter_eq_nil_iff]
    intro e he
    rw [(hevents e he).2.2]
    exact Bool.false_ne_true
  unfold CallsInv
  rw [htrace, callsOfSession_append fun e he => (hevents e he).1, hnone, List.append_nil,
    packetsOfSession_append_of_quiet fun e he => ⟨(hevents e he).1, (hevents e he).2.1⟩]
  exact h

theorem idle_of_isControl {e : Event} (h : e.isControl = true) : e.Idle := by
  obtain ⟨hconnected, hpacket⟩ := quiet_of_isControl h
  refine ⟨hconnected, hpacket, ?_⟩
  cases e with
  | act cmd => cases cmd <;> first | rfl | cases h
  | setMovement | moveRelative => cases h
  | _ => rfl

/-- A handled packet adds its call. -/
theorem CallsInv.handled {w w' : World} {pkt : Packet} {err : EspErr} {events : List Event}
    {client' : BarrierClient} (h : CallsInv w) (hh : Handled w.client pkt err client' events)
    (hcalls : userCalls events = (userCall pkt).toList)
    (htrace : w'.trace = w.trace ++ .handled pkt :: events) : CallsInv w' := by
  have hconnected : ∀ e ∈ Event.handled pkt :: events, e.isConnected = false := by
    intro e he
    obtain ⟨-, hconn, -, -⟩ := hh.events e he
    cases e with
    | act cmd => cases cmd <;> first | rfl | exact absurd rfl hconn
    | _ => rfl
  have hone : userCalls (.handled pkt :: events) = (userCall pkt).toList := hcalls
  unfold CallsInv
  rw [htrace, callsOfSession_append hconnected, hone, packetsOfSession_handled hh, h,
    List.filterMap_append]
  cases hcall : userCall pkt <;> simp [hcall]

theorem callsInv_handlePacket {w w' : World} {pkt : Packet} {io : Io} (h : CallsInv w)
    (hstep : w.stepHandlePacket pkt io = some w') : CallsInv w' := by
  obtain ⟨⟨err, client, events⟩, hhandle, hval⟩ := Option.map_eq_some_iff.mp hstep
  have hh := handlePacket_spec hhandle
  have hcalls := userCalls_handlePacket hhandle
  simp only at hval
  split at hval
  · cases hval
    exact h.handled hh hcalls rfl
  · cases hval
    have hbefore : CallsInv { w with trace := w.trace ++ .handled pkt :: events } :=
      h.handled hh hcalls rfl
    have hexit : w.trace ++ .handled pkt :: (events ++ [.loopExit]) =
        (w.trace ++ .handled pkt :: events) ++ [.loopExit] := by
      rw [← List.cons_append, ← List.append_assoc]
    exact hbefore.append_of_idle hexit (by simp [Event.Idle, Event.isConnected,
      Event.handledPacket, Event.isUserCall, Event.isInput])

theorem step_callsInv {w w' : World} {l : Label} (h : CallsInv w) (hstep : step w l = some w') :
    CallsInv w' := by
  cases step_kind hstep with
  | other events hpc htls hcursor htrace hevents =>
      refine h.append_of_idle htrace fun e he => ?_
      obtain ⟨v, rfl⟩ := hevents e he
      exact ⟨rfl, rfl, rfl⟩
  | outside events hpc hout hclose =>
      exact h.append_of_idle hout.trace fun e he => idle_of_isControl (hout.control e he)
  | opens hpc hw' =>
      subst hw'
      have hcut : cut Event.isConnected (w.trace ++ [.act .connected]) = _ := cut_concat _ _
      change callsOfSession (w.trace ++ [.act .connected]) =
        (packetsOfSession (w.trace ++ [.act .connected])).filterMap userCall
      rw [packetsOfSession_connected, callsOfSession, hcut]
      rfl
  | move events hpc hmove =>
      refine h.append_of_idle hmove.trace fun e he => ?_
      rcases hmove.quiet e he with rfl | rfl | rfl <;> exact ⟨rfl, rfl, rfl⟩
  | packet pkt err events hpacket =>
      cases l with
      | env act =>
          obtain ⟨hpc, -⟩ := envStep_frame hstep
          rcases hpacket.next with ⟨-, hpc', -⟩ | ⟨-, hpc', -⟩
          · rw [hpc, hpacket.pc] at hpc'
            cases hpc'
          · rw [hpc, hpacket.pc] at hpc'
            cases hpc'
      | task io =>
          have htask : taskStep w io = some w' := hstep
          unfold taskStep at htask
          rw [hpacket.pc] at htask
          exact callsInv_handlePacket h htask
  | closes hpc hpc' htrace hcursor hsettings =>
      exact h.append_of_idle htrace (by simp [Event.Idle, Event.isConnected,
        Event.handledPacket, Event.isUserCall, Event.isInput, isInputCmd])

theorem callsInv_initial (cfg : DeskflowConfig) (networkEvents : Bool) :
    CallsInv (World.initial cfg networkEvents) := rfl

/-! ## Runs -/

/-- Frames that the server wrote are read as it wrote them. -/
theorem map_recorded_of_parsesTo {sent read : List Packet}
    (h : List.Forall₂ ParsesTo (sent.map serverFrame) read) : read = sent.map recorded := by
  induction sent generalizing read with
  | nil =>
      cases h
      rfl
  | cons pkt sent ih =>
      cases h with
      | cons hpkt hrest =>
          have hparsed := parsesTo_serverFrame pkt
          unfold ParsesTo at hpkt hparsed
          rw [hparsed] at hpkt
          cases hpkt
          rw [ih hrest, List.map_cons]

/-- The frames that were read are those that the server wrote, as far as it wrote any. -/
theorem packets_of_frames {frames : List Bytes} {handled pkts : List Packet} {rest : Bytes}
    (hparse : List.Forall₂ ParsesTo frames handled)
    (hfirst : FirstFrames ((pkts.map serverFrame).flatten ++ rest) frames) :
    handled <+: pkts.map recorded ∨ pkts.map recorded <+: handled := by
  have hwritten : ∀ frame ∈ pkts.map serverFrame, IsFrame frame := by
    intro frame hframe
    obtain ⟨pkt, -, rfl⟩ := List.mem_map.mp hframe
    exact isFrame_serverFrame pkt
  rcases Nat.le_total frames.length pkts.length with hshort | hlong
  · refine .inl ?_
    have hprefix := prefixFree_isFrame.prefix_of_flatten hfirst.1 hwritten hfirst.2
      (List.prefix_append _ _) (by rwa [List.length_map])
    obtain ⟨n, hn⟩ : ∃ n, frames = (pkts.take n).map serverFrame := by
      rw [List.prefix_iff_eq_take] at hprefix
      exact ⟨frames.length, by rw [List.map_take]; exact hprefix⟩
    rw [hn] at hparse
    rw [map_recorded_of_parsesTo hparse, List.map_take]
    exact List.take_prefix _ _
  · refine .inr ?_
    have hprefix := prefixFree_isFrame.prefix_of_flatten hwritten hfirst.1
      (List.prefix_append _ _) hfirst.2 (by rwa [List.length_map])
    have hfront := List.forall₂_take (pkts.map serverFrame).length hparse
    rw [← List.prefix_iff_eq_take.mp hprefix] at hfront
    rw [← map_recorded_of_parsesTo hfront]
    exact List.take_prefix _ _

/-- Unless a deadline passes with a frame begun, the packets of a session are the first ones
that the server has written. -/
theorem packetsOfSession_written {cfg : DeskflowConfig} {networkEvents : Bool}
    {labels : List Label} {w : World} {pkts : List Packet} {rest : Bytes}
    (hkeep : AllSteps step KeepsFrame (World.initial cfg networkEvents) labels)
    (hrun : run step (World.initial cfg networkEvents) labels = some w)
    (hstream : w.stream = (pkts.map serverFrame).flatten ++ rest) :
    packetsOfSession w.trace <+: pkts.map recorded ∨
      pkts.map recorded <+: packetsOfSession w.trace := by
  obtain ⟨frames, hparse, hfirst⟩ := (run_invariant_of_good (fun _ _ _ => step_frameInv)
    (frameInv_initial cfg networkEvents) hkeep hrun).inStep
  exact packets_of_frames hparse (hstream ▸ hfirst.1)

/-- In every run the client calls the actuator for the user exactly as the packets say that it
handles in the session, whatever the network does with the bytes, whatever the calls return and
whatever other tasks do.  Unless a deadline passes with a frame begun, these are the first ones
that the server has written. -/
theorem session_calls {cfg : DeskflowConfig} {networkEvents : Bool} {labels : List Label}
    {w : World} (hrun : run step (World.initial cfg networkEvents) labels = some w) :
    callsOfSession w.trace = (packetsOfSession w.trace).filterMap userCall ∧
      (AllSteps step KeepsFrame (World.initial cfg networkEvents) labels →
        ∀ (pkts : List Packet) (rest : Bytes), w.stream = (pkts.map serverFrame).flatten ++ rest →
          packetsOfSession w.trace <+: pkts.map recorded ∨
            pkts.map recorded <+: packetsOfSession w.trace) :=
  ⟨run_invariant (fun _ _ _ h => step_callsInv h) (callsInv_initial cfg networkEvents) hrun,
    fun hkeep _ _ hstream => packetsOfSession_written hkeep hrun hstream⟩

/-- A key goes down, the pointer moves and the key goes up: three frames in five reads, two of
which end inside of a frame, with a timeout in between. -/
def typedPackets : List Packet :=
  [.dkdn ⟨0x61, 0, 38⟩, .dmmv ⟨300, 600⟩, .dkup ⟨0x61, 0, 38⟩]

/-- The steps of that session. -/
def typedLabels : List Label :=
  connectLabels 4 ((typedPackets.map serverFrame).flatten) ++
    [.task {},
      .task { reads := [{ result := .moved 1 }, { result := .timedOut, now := 20 },
        { result := .moved 3 }, { result := .moved 10 }] }, .task {}, .task {}] ++
    turnLabels 8 {} ++ turnLabels 10 {}

theorem session_calls_typed :
    ∃ w, run step (World.initial configDefaults true) typedLabels = some w ∧
      (packetsOfSession w.trace <+: typedPackets.map recorded ∨
        typedPackets.map recorded <+: packetsOfSession w.trace) ∧
      callsOfSession w.trace =
        [.act (.keyDown 0x61 0 38), .setMovement 300 600, .act (.keyUp 0x61 0 38)] := by
  have hkeep : AllSteps step KeepsFrame (World.initial configDefaults true) typedLabels := by
    decide +kernel
  have hrun : (run step (World.initial configDefaults true) typedLabels).map
      (fun w => (w.stream, packetsOfSession w.trace)) =
      some ((typedPackets.map serverFrame).flatten, typedPackets) := by
    decide +kernel
  obtain ⟨w, hw, hval⟩ := Option.map_eq_some_iff.mp hrun
  obtain ⟨hstream, hpackets⟩ := Prod.mk.inj hval
  obtain ⟨hcalls, hwritten⟩ := session_calls hw
  refine ⟨w, hw, hwritten hkeep typedPackets [] ?_, ?_⟩
  · rw [hstream, List.append_nil]
  · rw [hcalls, hpackets]
    rfl

end Esp32Deskflow.Barrier
