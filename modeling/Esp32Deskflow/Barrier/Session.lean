/-
  Barrier/Session.lean --- sessions of the client task: how they open and close, what
  happens inside of them, and what the client answers.

  A session lasts from the attempt to queue `ACT_CMD_CONNECTED` to the attempt to queue
  `ACT_CMD_DISCONNECTED`.  The four parts of the invariant are about the trace of the
  task: that sessions alternate with what is outside of them and hold all that comes
  from a packet; that the connection is closed after each packet loop; that
  `cursor_entered` is the last crossing; that the replies are those of the packets.
-/
import Esp32Deskflow.Barrier.TaskSteps
import Esp32Deskflow.Foundation.History
import Esp32Deskflow.Foundation.Transition

set_option autoImplicit false

namespace Esp32Deskflow.Barrier

open Esp32Deskflow.Foundation Esp32Deskflow.Foundation.History
  Esp32Deskflow.Foundation.Transition Esp32Deskflow.Network Esp32Deskflow.Config
  Esp32Deskflow.Tusb

/-! ## The trace of a session -/

/-- The lifecycle command of the event, if it is one. -/
def Event.lifecycle : Event → Option ActCmd
  | .act .connected => some .connected
  | .act .disconnected => some .disconnected
  | _ => none

/-- The attempted lifecycle commands, in order. -/
def lifecycle (trace : List Event) : List ActCmd := trace.filterMap Event.lifecycle

/-- `CONNECTED`, `DISCONNECTED`, `CONNECTED`, ... -/
def Alternates (cmds : List ActCmd) : Prop :=
  cmds = (List.range cmds.length).map fun i => if i % 2 = 0 then .connected else .disconnected

/-- A `CONNECTED` has been attempted and no `DISCONNECTED` since. -/
def SessionOpen (trace : List Event) : Prop := (lifecycle trace).getLast? = some .connected

/-- Calls for the user's input, handled packets and sent packets. -/
def Event.ofSession (e : Event) : Bool :=
  e.isInput || e.handledPacket.isSome || e.outgoing.isSome

/-- The trace cut at the lifecycle commands: every session is one of the pieces. -/
def sessions (trace : List Event) : List (List Event) × List Event :=
  cut (fun e => e.lifecycle.isSome) trace

/-- A crossing of the screen's border. -/
def crossing : Packet → Option PacketType
  | .cinn _ => some .cinn
  | .cout => some .cout
  | _ => none

/-- The last `CINN` or `COUT` handled. -/
def lastCrossing (events : List Event) : Option PacketType :=
  ((handledPackets events).filterMap crossing).getLast?

/-- The connection ends here. -/
def Event.isClose : Event → Bool
  | .tlsClose | .tlsDestroy => true
  | _ => false

/-- After each end of the packet loop the connection has been closed. -/
def LoopsClosed (trace : List Event) : Prop :=
  AtEach (fun e => e = .loopExit) (fun _ after => ∃ e ∈ after, e.isClose = true) trace

/-- The packets sent are the replies to the packets handled, in order, as whole frames; only
the last one may have been cut short. -/
structure Answered (session : List Event) : Prop where
  replies : (outgoing session).map (fun out => out.pkt.type) =
    (handledPackets session).filterMap replyType
  frames : ∀ out ∈ outgoing session, out.frame = wireFrame out.pkt
  complete : ∀ out ∈ (outgoing session).dropLast, out.Complete

/-- The sessions of a run. -/
structure Bracketed (w : World) : Prop where
  alternates : Alternates (lifecycle w.trace)
  inside : Always (fun before e => e.ofSession = true → SessionOpen before) w.trace
  closed : Always (fun before e => e = .handshake → LoopsClosed before) w.trace
  cursor : w.client.cursorEntered = true ↔
    SessionOpen w.trace ∧ lastCrossing (sessions w.trace).2 = some .cinn
  answered : ∀ session ∈ (sessions w.trace).1 ++ [(sessions w.trace).2], Answered session

/-! ## Opening and closing -/

theorem lifecycle_append_of_none {trace events : List Event}
    (h : ∀ e ∈ events, e.lifecycle = none) : lifecycle (trace ++ events) = lifecycle trace := by
  rw [lifecycle, List.filterMap_append, List.filterMap_eq_nil_iff.mpr h, List.append_nil]
  rfl

theorem alternates_concat {cmds : List ActCmd} (h : Alternates cmds) {cmd : ActCmd}
    (hcmd : cmd = if cmds.length % 2 = 0 then .connected else .disconnected) :
    Alternates (cmds ++ [cmd]) := by
  unfold Alternates at h ⊢
  rw [List.length_append, List.length_singleton, List.range_succ, List.map_append, ← h, hcmd]
  rfl

/-- In an alternating list the last command tells the parity. -/
theorem alternates_getLast? {cmds : List ActCmd} (h : Alternates cmds) :
    cmds.getLast? = some .connected ↔ cmds.length % 2 = 1 := by
  unfold Alternates at h
  cases hn : cmds.length with
  | zero =>
      rw [List.length_eq_zero_iff.mp hn]
      simp
  | succ n =>
      rw [hn, List.range_succ, List.map_append] at h
      rw [h, List.map_singleton, List.getLast?_concat]
      by_cases hpar : n % 2 = 0
      · simp only [hpar, if_true, true_iff]
        omega
      · simp only [hpar, if_false, Option.some.injEq, reduceCtorEq, false_iff]
        omega

/-- The lifecycle commands alternate, the last one tells whether a session is open, and
what comes from packets has come inside. -/
structure LifecycleInv (trace : List Event) (isOpen : Bool) : Prop where
  alternates : Alternates (lifecycle trace)
  isOpen : SessionOpen trace ↔ isOpen = true
  inside : Always (fun before e => e.ofSession = true → SessionOpen before) trace

theorem LifecycleInv.append {trace events : List Event} {isOpen : Bool}
    (h : LifecycleInv trace isOpen) (hnone : ∀ e ∈ events, e.lifecycle = none)
    (hinside : ∀ e ∈ events, e.ofSession = true → isOpen = true) :
    LifecycleInv (trace ++ events) isOpen := by
  have hsame : lifecycle (trace ++ events) = lifecycle trace := lifecycle_append_of_none hnone
  refine ⟨?_, ?_, h.inside.append fun before e after hsplit he => ?_⟩
  · rw [hsame]
    exact h.alternates
  · rw [SessionOpen, hsame]
    exact h.isOpen
  · have hmem : ∀ a ∈ before, a.lifecycle = none := fun a ha =>
      hnone a (hsplit ▸ List.mem_append_left _ ha)
    rw [SessionOpen, lifecycle_append_of_none hmem]
    exact h.isOpen.mpr (hinside e (hsplit ▸ List.mem_append_right _ List.mem_cons_self) he)

theorem LifecycleInv.connected {trace : List Event} (h : LifecycleInv trace false) :
    LifecycleInv (trace ++ [.act .connected]) true := by
  have hone : lifecycle (trace ++ [.act .connected]) = lifecycle trace ++ [.connected] :=
    List.filterMap_append
  have hpar : ¬ (lifecycle trace).length % 2 = 1 := fun hodd =>
    absurd (h.isOpen.mp ((alternates_getLast? h.alternates).mpr hodd)) (by simp)
  refine ⟨?_, ?_, h.inside.concat fun he => nomatch he⟩
  · rw [hone]
    exact alternates_concat h.alternates (by rw [if_pos (by omega)])
  · rw [SessionOpen, hone, List.getLast?_concat]
    simp

theorem LifecycleInv.disconnected {trace : List Event} (h : LifecycleInv trace true) :
    LifecycleInv (trace ++ [.act .disconnected]) false := by
  have hone : lifecycle (trace ++ [.act .disconnected]) = lifecycle trace ++ [.disconnected] :=
    List.filterMap_append
  have hpar := (alternates_getLast? h.alternates).mp (h.isOpen.mpr rfl)
  refine ⟨?_, ?_, h.inside.concat fun he => nomatch he⟩
  · rw [hone]
    exact alternates_concat h.alternates (by rw [if_neg (by omega)])
  · rw [SessionOpen, hone, List.getLast?_concat]
    simp

/-! ## Closing the connection -/

/-- No handshake before the connection is closed; `settled` is false between the end of
the packet loop and the call of `tls_client_close`. -/
structure ClosingInv (trace : List Event) (settled : Bool) : Prop where
  closed : Always (fun before e => e = .handshake → LoopsClosed before) trace
  settled : settled = true → LoopsClosed trace

/-- Closing answers every end of the loop so far. -/
theorem loopsClosed_concat (trace : List Event) {e : Event} (hclose : e.isClose = true) :
    LoopsClosed (trace ++ [e]) := by
  intro before e' after hsplit he'
  rcases append_eq_append_cons hsplit with ⟨mid, _, rfl⟩ | ⟨mid, _, hmid⟩
  · exact ⟨e, by simp, hclose⟩
  · cases mid with
    | nil =>
        cases hmid
        rw [he'] at hclose
        cases hclose
    | cons x mid =>
        obtain ⟨_, hnil⟩ := List.cons.inj hmid
        simp at hnil

theorem LoopsClosed.append {trace events : List Event} (h : LoopsClosed trace)
    (hevents : ∀ e ∈ events, e ≠ .loopExit) : LoopsClosed (trace ++ events) := by
  refine AtEach.append_of_forall ?_ h hevents
  rintro _ after es ⟨e, he, hclose⟩
  exact ⟨e, List.mem_append_left _ he, hclose⟩

theorem ClosingInv.append {trace events : List Event} (h : ClosingInv trace true)
    (hevents : ∀ e ∈ events, e ≠ .loopExit) : ClosingInv (trace ++ events) true := by
  refine ⟨h.closed.append fun before e after hsplit _ => ?_, fun _ => ?_⟩
  · exact (h.settled rfl).append fun a ha => hevents a (hsplit ▸ List.mem_append_left _ ha)
  · exact (h.settled rfl).append hevents

/-- Events of a session are no handshakes. -/
theorem ClosingInv.append_of_ne {trace events : List Event} {settled settled' : Bool}
    (h : ClosingInv trace settled) (hevents : ∀ e ∈ events, e ≠ .handshake)
    (hsettled : settled' = true → settled = true ∧ ∀ e ∈ events, e ≠ .loopExit) :
    ClosingInv (trace ++ events) settled' := by
  refine ⟨h.closed.append_of_forall fun e he _ heq => absurd heq (hevents e he), fun hs => ?_⟩
  obtain ⟨hold, hexit⟩ := hsettled hs
  exact (h.settled hold).append hexit

theorem ClosingInv.close {trace : List Event} {settled : Bool} (h : ClosingInv trace settled) :
    ClosingInv (trace ++ [.tlsClose]) true :=
  ⟨h.closed.concat fun he => (nomatch he), fun _ => loopsClosed_concat trace rfl⟩

/-! ## Crossings and replies -/

/-- The packets sent so far are complete, whole frames, and the replies to what was handled;
the last one may be incomplete if `complete` is not asked for. -/
structure ReplyInv (session : List Event) (complete : Prop) : Prop where
  answered : Answered session
  complete : complete → ∀ out ∈ outgoing session, out.Complete

theorem replyInv_nil : ReplyInv [] True :=
  ⟨⟨rfl, by simp [outgoing], by simp [outgoing]⟩, by simp [outgoing]⟩

theorem ReplyInv.append_of_quiet {session events : List Event} {p q : Prop}
    (h : ReplyInv session p) (hpq : q → p)
    (hevents : ∀ e ∈ events, e.outgoing = none ∧ e.handledPacket = none) :
    ReplyInv (session ++ events) q := by
  have hout : outgoing (session ++ events) = outgoing session := by
    rw [outgoing_append, outgoing_eq_nil fun e he => (hevents e he).1, List.append_nil]
  have hpackets : handledPackets (session ++ events) = handledPackets session := by
    rw [handledPackets_append, handledPackets_eq_nil fun e he => (hevents e he).2, List.append_nil]
  refine ⟨⟨?_, ?_, ?_⟩, fun hq => ?_⟩
  · rw [hout, hpackets]
    exact h.answered.replies
  · rw [hout]
    exact h.answered.frames
  · rw [hout]
    exact h.answered.complete
  · rw [hout]
    exact h.complete (hpq hq)

/-- A handled packet and its reply. -/
theorem ReplyInv.handled {session events : List Event} {pkt : Packet} {err : EspErr}
    {client client' : BarrierClient} {p : Prop} (h : ReplyInv session True)
    (hh : Handled client pkt err client' events)
    (hp : p → ∀ out ∈ outgoing events, out.Complete) :
    ReplyInv (session ++ .handled pkt :: events) p := by
  have hnone := handledPackets_eq_nil hh.no_packet
  have hout : outgoing (session ++ .handled pkt :: events) = outgoing session ++ outgoing events :=
    outgoing_append session _
  have hpackets : handledPackets (session ++ .handled pkt :: events) =
      handledPackets session ++ [pkt] := by
    rw [handledPackets_append]
    exact congrArg (fun rest => handledPackets session ++ pkt :: rest) hnone
  refine ⟨⟨?_, ?_, ?_⟩, fun hq => ?_⟩
  · rw [hout, hpackets, List.map_append, List.filterMap_append, h.answered.replies, hh.reply]
    cases hr : replyType pkt <;> simp [hr]
  · rw [hout]
    intro out hmem
    rcases List.mem_append.mp hmem with hmem | hmem
    · exact h.answered.frames out hmem
    · exact hh.frames out hmem
  · -- There is at most one reply, so all but the last one were sent before.
    rw [hout]
    intro out hmem
    refine h.complete trivial out ?_
    rcases hh.outgoing_cases with hnil | ⟨last, hone⟩
    · rw [hnil, List.append_nil] at hmem
      exact List.mem_of_mem_dropLast hmem
    · rwa [hone, List.dropLast_concat] at hmem
  · rw [hout]
    intro out hmem
    rcases List.mem_append.mp hmem with hmem | hmem
    · exact h.complete trivial out hmem
    · exact hp hq out hmem

theorem lastCrossing_append_of_quiet {session events : List Event}
    (hevents : ∀ e ∈ events, e.handledPacket = none) :
    lastCrossing (session ++ events) = lastCrossing session := by
  rw [lastCrossing, handledPackets_append, handledPackets_eq_nil hevents, List.append_nil,
    lastCrossing]

/-- `cursor_entered` follows the crossings. -/
theorem lastCrossing_handled {session events : List Event} {pkt : Packet} {entered : Bool}
    (h : entered = true ↔ lastCrossing session = some .cinn)
    (hevents : ∀ e ∈ events, e.handledPacket = none) :
    cursorAfter entered pkt = true ↔
      lastCrossing (session ++ .handled pkt :: events) = some .cinn := by
  have hsplit : lastCrossing (session ++ .handled pkt :: events) =
      (((handledPackets session).filterMap crossing) ++ (crossing pkt).toList).getLast? := by
    rw [List.append_cons, lastCrossing_append_of_quiet hevents, lastCrossing,
      handledPackets_append, List.filterMap_append]
    rfl
  rw [hsplit]
  cases pkt with
  | cinn e => simp [cursorAfter, crossing]
  | cout => simp [cursorAfter, crossing]
  | _ =>
      simp only [cursorAfter, crossing, Option.toList_none, List.append_nil]
      exact h

/-! ## The invariant -/

/-- Neither at nor right before the call of `tls_client_close` that follows a loop. -/
def Pc.settled : Pc → Bool
  | .cleanup | .closeSession => false
  | _ => true

/-- A packet can be sent here, or could be after a successful read. -/
def World.CanSend (w : World) : Prop :=
  w.pc.hasPacket = true ∨ (w.pc.inSession = true ∧ w.pc ≠ .cleanup ∧ Usable w.client.tls)

/-- The sessions so far are in order, and the client knows how far the present one is. -/
structure SessionInv (w : World) : Prop where
  lifecycle : LifecycleInv w.trace w.pc.inSession
  closing : ClosingInv w.trace w.pc.settled
  outside : w.pc.inSession = false → w.client.cursorEntered = false
  cursor : w.client.cursorEntered = true ↔ lastCrossing (sessions w.trace).2 = some .cinn
  past : ∀ session ∈ (sessions w.trace).1, Answered session
  reply : ReplyInv (sessions w.trace).2 w.CanSend

theorem SessionInv.bracketed {w : World} (h : SessionInv w) : Bracketed w := by
  refine ⟨h.lifecycle.alternates, h.lifecycle.inside, h.closing.closed, ?_, ?_⟩
  · refine ⟨fun hentered => ⟨?_, h.cursor.mp hentered⟩, fun hcross => h.cursor.mpr hcross.2⟩
    refine h.lifecycle.isOpen.mpr ?_
    by_contra hout
    rw [h.outside (Bool.eq_false_iff.mpr hout)] at hentered
    cases hentered
  · intro session hmem
    rcases List.mem_append.mp hmem with hmem | hmem
    · exact h.past session hmem
    · exact List.mem_singleton.mp hmem ▸ h.reply.answered

theorem sessions_append {trace events : List Event} (h : ∀ e ∈ events, e.lifecycle = none) :
    sessions (trace ++ events) = ((sessions trace).1, (sessions trace).2 ++ events) :=
  cut_append_of_forall fun e he => by rw [h e he]; rfl

/-- Events that do not count for sessions, crossings and replies. -/
def Event.Quiet (e : Event) : Prop :=
  e.lifecycle = none ∧ e.outgoing = none ∧ e.handledPacket = none

/-- A step with quiet events that does not open or close a session. -/
theorem SessionInv.append_quiet {w w' : World} {events : List Event} (h : SessionInv w)
    (htrace : w'.trace = w.trace ++ events) (hquiet : ∀ e ∈ events, e.Quiet)
    (hopen : w'.pc.inSession = w.pc.inSession)
    (hinside : ∀ e ∈ events, e.ofSession = true → w.pc.inSession = true)
    (hclosing : ClosingInv w'.trace w'.pc.settled)
    (hcursor : w'.client.cursorEntered = w.client.cursorEntered)
    (hsend : w'.CanSend → w.CanSend) : SessionInv w' := by
  have hcut : sessions (w.trace ++ events) = _ := sessions_append fun e he => (hquiet e he).1
  refine ⟨?_, hclosing, ?_, ?_, ?_, ?_⟩
  · rw [htrace, hopen]
    exact h.lifecycle.append (fun e he => (hquiet e he).1) hinside
  · rw [hopen, hcursor]
    exact h.outside
  · rw [hcursor, htrace, hcut, lastCrossing_append_of_quiet fun e he => (hquiet e he).2.2]
    exact h.cursor
  · rw [htrace, hcut]
    exact h.past
  · rw [htrace, hcut]
    exact h.reply.append_of_quiet hsend fun e he => (hquiet e he).2

theorem quiet_of_control {e : Event} (h : e.isControl = true) : e.Quiet ∧ e.ofSession = false ∧
    e ≠ .loopExit := by
  cases e with
  | act cmd => cases cmd <;> first | exact ⟨⟨rfl, rfl, rfl⟩, rfl, nofun⟩ | cases h
  | handled | sent | setMovement | moveRelative | loopExit => cases h
  | _ => exact ⟨⟨rfl, rfl, rfl⟩, rfl, nofun⟩

/-! ## Steps -/

theorem not_canSend_outside {w : World} (hpc : w.pc.inSession = false) : ¬ w.CanSend := by
  rintro (hpacket | ⟨hin, _⟩)
  · rw [Pc.inSession_of_hasPacket hpacket] at hpc
    cases hpc
  · rw [hin] at hpc
    cases hpc

theorem SessionInv.outsideStep {w w' : World} {events : List Event} (h : SessionInv w)
    (hpc : w.pc.inSession = false) (hstep : OutsideStep w w' events)
    (hclose : w.pc = .closeSession → events = [.tlsClose]) : SessionInv w' := by
  have hcontrol := fun e he => quiet_of_control (hstep.control e he)
  refine h.append_quiet hstep.trace (fun e he => (hcontrol e he).1) ?_ ?_ ?_ hstep.cursor ?_
  · rw [hstep.pc, hpc]
  · intro e he hsess
    rw [(hcontrol e he).2.1] at hsess
    cases hsess
  · have hsettled : ClosingInv w'.trace true := by
      rw [hstep.trace]
      by_cases hc : w.pc = .closeSession
      · rw [hclose hc]
        exact h.closing.close
      · have hw : w.pc.settled = true := by
          cases hp : w.pc <;> first | rfl | exact absurd hp hc | (rw [hp] at hpc; cases hpc)
        have hold := h.closing
        rw [hw] at hold
        exact hold.append fun e he => (hcontrol e he).2.2
    exact ⟨hsettled.closed, fun _ => hsettled.settled rfl⟩
  · exact fun hsend => absurd hsend (not_canSend_outside hstep.pc)

theorem SessionInv.opens {w : World} (h : SessionInv w) (hpc : w.pc = .connected) :
    SessionInv w.stepConnected := by
  have hcut : sessions (w.trace ++ [.act .connected]) =
      ((sessions w.trace).1 ++ [(sessions w.trace).2], []) := cut_concat _ _
  have hfalse := h.outside (by rw [hpc]; rfl)
  have hlife := h.lifecycle
  have hclosing := h.closing
  rw [hpc] at hlife hclosing
  refine ⟨hlife.connected, hclosing.append (by simp), ?_, ?_, ?_, ?_⟩
  · intro hout
    cases hout
  · show w.client.cursorEntered = true ↔ lastCrossing (sessions (w.trace ++ _)).2 = _
    rw [hcut, hfalse]
    simp [lastCrossing, handledPackets]
  · show ∀ session ∈ (sessions (w.trace ++ [.act .connected])).1, Answered session
    rw [hcut]
    intro session hmem
    rcases List.mem_append.mp hmem with hmem | hmem
    · exact h.past session hmem
    · exact List.mem_singleton.mp hmem ▸ h.reply.answered
  · show ReplyInv (sessions (w.trace ++ [.act .connected])).2 _
    rw [hcut]
    exact ⟨replyInv_nil.answered, fun _ => replyInv_nil.complete trivial⟩

theorem SessionInv.move {w w' : World} {events : List Event} (h : SessionInv w)
    (hpc : w.pc.inSession = true) (hstep : SessionMove w w' events) : SessionInv w' := by
  refine h.append_quiet hstep.trace ?_ ?_ (fun _ _ _ => hpc) ?_ hstep.cursor ?_
  · intro e he
    rcases hstep.quiet e he with rfl | rfl | rfl <;> exact ⟨rfl, rfl, rfl⟩
  · rw [hstep.pc, hpc]
  · rw [hstep.trace]
    refine h.closing.append_of_ne ?_ fun hs => ⟨?_, ?_⟩
    · intro e he
      rcases hstep.quiet e he with rfl | rfl | rfl <;> nofun
    · have hstart := hstep.start
      cases hp : w.pc <;> first | rfl | exact absurd hp hstart | (rw [hp] at hpc; cases hpc)
    · rintro e he rfl
      rw [hstep.exits he] at hs
      cases hs
  · rintro (hpacket | ⟨_, _, husable⟩)
    · rcases hstep.packet hpacket with hold | husable
      · exact Or.inl hold
      · exact Or.inr ⟨hpc, hstep.start, husable⟩
    · exact Or.inr ⟨hpc, hstep.start, hstep.usable husable⟩

theorem SessionInv.closes {w w' : World} (h : SessionInv w) (hpc : w.pc = .cleanup)
    (hpc' : w'.pc = .closeSession) (htrace : w'.trace = w.trace ++ [.act .disconnected])
    (hcursor : w'.client.cursorEntered = false) : SessionInv w' := by
  have hcut : sessions (w.trace ++ [.act .disconnected]) =
      ((sessions w.trace).1 ++ [(sessions w.trace).2], []) := cut_concat _ _
  have hlife := h.lifecycle
  rw [hpc] at hlife
  refine ⟨?_, ?_, fun _ => hcursor, ?_, ?_, ?_⟩
  · rw [htrace, hpc']
    exact hlife.disconnected
  · rw [htrace, hpc']
    refine h.closing.append_of_ne (by simp) fun hs => ?_
    cases hs
  · rw [hcursor, htrace, hcut]
    simp [lastCrossing, handledPackets]
  · rw [htrace, hcut]
    intro session hmem
    rcases List.mem_append.mp hmem with hmem | hmem
    · exact h.past session hmem
    · exact List.mem_singleton.mp hmem ▸ h.reply.answered
  · rw [htrace, hcut]
    exact ⟨replyInv_nil.answered, fun _ => replyInv_nil.complete trivial⟩

theorem lifecycle_eq_none {e : Event} (hconn : e ≠ .act .connected)
    (hdisc : e ≠ .act .disconnected) : e.lifecycle = none := by
  cases e with
  | act cmd => cases cmd <;> first | rfl | exact absurd rfl hconn | exact absurd rfl hdisc
  | _ => rfl

/-- The state after a packet was handled, wherever the task goes on inside of the session. -/
theorem SessionInv.handled {w w' : World} {pkt : Packet} {err : EspErr} {events : List Event}
    (h : SessionInv w) (hpc : w.pc = .handlePacket pkt)
    (hh : Handled w.client pkt err w'.client events)
    (htrace : w'.trace = w.trace ++ .handled pkt :: events) (hin' : w'.pc.inSession = true)
    (hsend : w'.CanSend → ∀ out ∈ outgoing events, out.Complete) : SessionInv w' := by
  have hevents : ∀ e ∈ Event.handled pkt :: events,
      e.lifecycle = none ∧ e ≠ .handshake ∧ e ≠ .loopExit := by
    intro e he
    obtain ⟨hcontrol, hconn, hdisc, hexit⟩ := hh.events e he
    refine ⟨lifecycle_eq_none hconn hdisc, ?_, hexit⟩
    rintro rfl
    cases hcontrol
  have hin : w.pc.inSession = true := by rw [hpc]; rfl
  have hcan : w.CanSend := Or.inl (by rw [hpc]; rfl)
  have hclosing : ClosingInv w'.trace true := by
    rw [htrace]
    refine h.closing.append_of_ne (fun e he => (hevents e he).2.1) fun _ => ?_
    exact ⟨by rw [hpc]; rfl, fun e he => (hevents e he).2.2⟩
  have hcut : sessions w'.trace =
      ((sessions w.trace).1, (sessions w.trace).2 ++ .handled pkt :: events) := by
    rw [htrace]
    exact sessions_append fun e he => (hevents e he).1
  refine ⟨?_, ⟨hclosing.closed, fun _ => hclosing.settled rfl⟩, ?_, ?_, ?_, ?_⟩
  · rw [htrace, hin']
    exact (hin ▸ h.lifecycle).append (fun e he => (hevents e he).1) fun _ _ _ => rfl
  · rw [hin']
    nofun
  · rw [hh.cursor, hcut]
    exact lastCrossing_handled h.cursor hh.no_packet
  · rw [hcut]
    exact h.past
  · rw [hcut]
    have hold : ReplyInv (sessions w.trace).2 True :=
      ⟨h.reply.answered, fun _ => h.reply.complete hcan⟩
    exact hold.handled hh hsend

theorem SessionInv.packet {w w' : World} {pkt : Packet} {err : EspErr} {events : List Event}
    (h : SessionInv w) (hstep : PacketStep w w' pkt err events) : SessionInv w' := by
  have hh := hstep.handled
  obtain ⟨hok, hpc', htrace⟩ | ⟨_, hpc', htrace⟩ := hstep.next
  · -- Back to the head of the loop: a reply that was cut short has cost the connection.
    refine h.handled hstep.pc hh htrace (by rw [hpc']; rfl) fun hcan out hout => ?_
    rcases hcan with hpacket | ⟨_, _, husable⟩
    · rw [hpc'] at hpacket
      cases hpacket
    · exact (hh.complete hok out hout).resolve_right (not_not_intro husable)
  · -- Out of the loop, where nothing is sent any more.
    have hstop : ∀ {v : World}, v.pc = .cleanup → ¬ v.CanSend := by
      rintro v hv (hpacket | ⟨_, hne, _⟩)
      · rw [hv] at hpacket
        cases hpacket
      · exact hne hv
    have hdone : SessionInv { w' with trace := w.trace ++ .handled pkt :: events } :=
      h.handled hstep.pc hh rfl (by rw [hpc']; rfl) fun hcan => absurd hcan (hstop hpc')
    have hin' : w'.pc.inSession = true := by rw [hpc']; rfl
    rw [← List.cons_append, ← List.append_assoc] at htrace
    refine hdone.append_quiet htrace ?_ rfl (fun _ _ _ => hin') ?_ rfl
      fun hcan => absurd hcan (hstop hpc')
    · simp [Event.Quiet, Event.lifecycle, Event.outgoing, Event.handledPacket]
    · rw [htrace, hpc']
      exact hdone.closing.append_of_ne (by simp) nofun

theorem step_sessionInv {w w' : World} {l : Label} (h : SessionInv w) (hstep : step w l = some w') :
    SessionInv w' := by
  cases step_kind hstep with
  | other events hpc htls hcursor htrace hevents =>
      refine h.append_quiet htrace ?_ ?_ ?_ ?_ hcursor ?_
      · intro e he
        obtain ⟨v, rfl⟩ := hevents e he
        exact ⟨rfl, rfl, rfl⟩
      · rw [hpc]
      · intro e he hsess
        obtain ⟨v, rfl⟩ := hevents e he
        cases hsess
      · rw [htrace, hpc]
        refine h.closing.append_of_ne ?_ fun hs => ⟨hs, ?_⟩
        · intro e he
          obtain ⟨v, rfl⟩ := hevents e he
          nofun
        · intro e he
          obtain ⟨v, rfl⟩ := hevents e he
          nofun
      · unfold World.CanSend
        rw [hpc, htls]
        exact id
  | outside events hpc hout hclose => exact h.outsideStep hpc hout hclose
  | opens hpc hw' =>
      subst hw'
      exact h.opens hpc
  | move events hpc hmove => exact h.move hpc hmove
  | packet pkt err events hpacket => exact h.packet hpacket
  | closes hpc hpc' htrace hcursor _ => exact h.closes hpc hpc' htrace hcursor

/-! ## Runs -/

theorem sessionInv_initial (cfg : DeskflowConfig) (networkEvents : Bool) :
    SessionInv (World.initial cfg networkEvents) := by
  have hnil : SessionInv { World.initial cfg networkEvents with trace := [] } := by
    refine ⟨⟨?_, ?_, always_nil _⟩, ⟨always_nil _, fun _ => atEach_nil⟩, fun _ => rfl, ?_, ?_, ?_⟩
    · simp [Alternates, lifecycle]
    · simp [SessionOpen, lifecycle, World.initial, Pc.inSession]
    · simp [World.initial, lastCrossing, sessions, cut, handledPackets]
    · simp [sessions, cut]
    · exact ⟨replyInv_nil.answered, fun _ => replyInv_nil.complete trivial⟩
  refine hnil.append_quiet (List.nil_append _).symm ?_ rfl ?_ ?_ rfl id
  · simp [World.initial, Event.Quiet, Event.lifecycle, Event.outgoing, Event.handledPacket]
  · simp [World.initial, Event.ofSession, Event.isInput, isInputCmd, Event.outgoing,
      Event.handledPacket]
  · exact hnil.closing.append (by simp)

/-- Whatever packets arrive, wherever reads, writes and actuator calls fail, and whenever
another task changes the settings, asks for a reconnect or stops the client: the
lifecycle commands alternate; what comes from packets lies inside of a session; the
connection is closed after each packet loop; `cursor_entered` is the last crossing of
the open session; and each session's replies are those of its packets. -/
theorem sessions_run {cfg : DeskflowConfig} {networkEvents : Bool} {labels : List Label}
    {w : World} (hrun : run step (World.initial cfg networkEvents) labels = some w) :
    Bracketed w := by
  have hinv := run_invariant (fun _ _ _ h => step_sessionInv h)
    (sessionInv_initial cfg networkEvents) hrun
  exact hinv.bracketed

/-- A session with `CINN`, `QINF` and `CBYE`, the reconnect, and a `CALV` whose reply is cut
short. -/
def twoSessionsLabels : List Label :=
  connectLabels 4 (u32Bytes 14 ++ ascii "CINN" ++ List.replicate 10 0 ++
      u32Bytes 4 ++ ascii "QINF" ++ u32Bytes 4 ++ ascii "CBYE") ++
    turnLabels 14 {} ++ turnLabels 4 { writes := [.moved 22] } ++ turnLabels 4 {} ++
    List.replicate 3 (.task {}) ++
    connectLabels 3 calvFrame ++
    turnLabels 4 { writes := [.moved 3, .closed] }

theorem sessions_run_twoSessions :
    ∃ w, run step (World.initial configDefaults true) twoSessionsLabels = some w ∧
      lifecycle w.trace = [.connected, .disconnected, .connected] ∧
      (outgoing w.trace).map Outgoing.accepted = [22, 3] ∧ Bracketed w := by
  have hrun : (run step (World.initial configDefaults true) twoSessionsLabels).map
      (fun w => (lifecycle w.trace, (outgoing w.trace).map Outgoing.accepted)) =
      some ([.connected, .disconnected, .connected], [22, 3]) := by
    decide +kernel
  obtain ⟨w, hw, hval⟩ := Option.map_eq_some_iff.mp hrun
  obtain ⟨hlifecycle, haccepted⟩ := Prod.mk.inj hval
  exact ⟨w, hw, hlifecycle, haccepted, sessions_run hw⟩

end Esp32Deskflow.Barrier
