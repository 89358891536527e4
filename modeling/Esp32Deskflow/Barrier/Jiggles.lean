/-
  Barrier/Jiggles.lean --- the time between two jiggles.

  A timeout queues a jiggle only if `last_activity_ms` is longer ago than the interval,
  and notes the time.  A keep-alive queues one whenever it comes and notes nothing, so
  neither the next keep-alive nor the next timeout knows of it.
-/
import Esp32Deskflow.Barrier.TaskSteps
import Esp32Deskflow.Foundation.Transition

set_option autoImplicit false

namespace Esp32Deskflow.Barrier

open Esp32Deskflow.Foundation Esp32Deskflow.Foundation.Transition Esp32Deskflow.Network
open Esp32Deskflow.Config

/-! ## Jiggles and the clock -/

/-- The settings have jiggles on, one every `n` seconds. -/
def JigglesOn (n : UInt16) (w : World) : Prop :=
  w.settings.current.keepAwake = true ∧ w.settings.current.jiggleInterval = n

instance (n : UInt16) (w : World) : Decidable (JigglesOn n w) := inferInstanceAs (Decidable (_ ∧ _))

/-- The clock in milliseconds when a step is taken: while a packet is handled, the reading of
`handle_packet`, which for a keep-alive makes none. -/
def Io.clock (io : Io) : Pc → UInt64
  | .handlePacket _ => io.handle.now
  | _ => io.now

/-- The places where the clock is compared with `last_activity_ms` or stored in it, or a packet
is handled. -/
def Pc.timed : Pc → Bool
  | .start | .timedOut | .handlePacket _ => true
  | _ => false

/-- The clock readings of a step. -/
def clockReadings (w : World) : Label → List UInt64
  | .task io => if w.pc.timed then [io.clock w.pc] else []
  | .env _ => []

/-- The times of the jiggles that the client attempts in a step. -/
def jiggles (w : World) : Label → List UInt64
  | .task io =>
      match taskStep w io with
      | some w' =>
          ((w'.trace.drop w.trace.length).filter (· = Event.act .jiggle)).map fun _ => io.clock w.pc
      | none => []
  | .env _ => []

/-- From the first time to the second one it is at least `n` seconds. -/
def Apart (n : UInt16) (t t' : UInt64) : Prop := t.toNat + n.toNat * 1000 ≤ t'.toNat

instance (n : UInt16) (t t' : UInt64) : Decidable (Apart n t t') :=
  inferInstanceAs (Decidable (_ ≤ _))

/-- Any two consecutive jiggles of the run are at least `n` seconds apart. -/
def JigglesApart (n : UInt16) (w : World) (labels : List Label) : Prop :=
  (emitted step jiggles w labels).IsChain (Apart n)

instance (n : UInt16) (w : World) (labels : List Label) : Decidable (JigglesApart n w labels) :=
  inferInstanceAs (Decidable (List.IsChain _ _))

/-! ## What the two places know of each other -/

/-- The condition of the timeout branch. -/
def World.jiggleDue (w : World) (now : UInt64) : Bool :=
  w.settings.current.keepAwake && w.client.cursorEntered &&
    w.settings.current.jiggleInterval.toUInt64 * 1000 < now - w.client.lastActivityMs

/-- The time of a keep-alive that is handled. -/
def keepAlives (w : World) : Label → List UInt64
  | .task io => if w.pc = .handlePacket .calv then [io.handle.now] else []
  | .env _ => []

/-- The time of a timeout at which a jiggle is due. -/
def dueTimeouts (w : World) : Label → List UInt64
  | .task io => if w.pc = .timedOut && w.jiggleDue io.now then [io.now] else []
  | .env _ => []

/-- The newest clock reading, and the times of the last jiggle, of the last keep-alive and of the
last timeout at which a jiggle was due. -/
structure JiggleLog where
  clock : Option UInt64 := none
  jiggle : Option UInt64 := none
  keepAlive : Option UInt64 := none
  due : Option UInt64 := none
  deriving DecidableEq, Repr

/-- The log after a step. -/
def JiggleLog.next (w : World) (l : Label) (log : JiggleLog) : JiggleLog where
  clock := (clockReadings w l).getLast?.or log.clock
  jiggle := (jiggles w l).getLast?.or log.jiggle
  keepAlive := (keepAlives w l).getLast?.or log.keepAlive
  due := (dueTimeouts w l).getLast?.or log.due

/-- The system with the log beside the state. -/
def timedStep : World × JiggleLog → Label → Option (World × JiggleLog) :=
  withGhost step JiggleLog.next

/-- A keep-alive comes no sooner than `n` seconds after the last one and after the last timeout at
which a jiggle was due, and a jiggle becomes due at a timeout no sooner than `n` seconds after the
last keep-alive. -/
def KeepsDistance (n : UInt16) (s : World × JiggleLog) (l : Label) : Prop :=
  (∀ now ∈ keepAlives s.1 l,
      (∀ t ∈ s.2.keepAlive, Apart n t now) ∧ ∀ t ∈ s.2.due, Apart n t now) ∧
    ∀ now ∈ dueTimeouts s.1 l, ∀ t ∈ s.2.keepAlive, Apart n t now

instance (n : UInt16) (s : World × JiggleLog) (l : Label) : Decidable (KeepsDistance n s l) :=
  inferInstanceAs (Decidable (_ ∧ _))

/-! ## One step -/

theorem clockReadings_task {w : World} {io : Io} (htimed : w.pc.timed = true) :
    clockReadings w (.task io) = [io.clock w.pc] := if_pos htimed

theorem keepAlives_eq_nil {w : World} {io : Io} (hpc : w.pc ≠ .handlePacket .calv) :
    keepAlives w (.task io) = [] := if_neg hpc

theorem dueTimeouts_eq_nil {w : World} {io : Io} (hpc : w.pc ≠ .timedOut) :
    dueTimeouts w (.task io) = [] := by
  simp only [dueTimeouts, hpc, decide_false, Bool.false_and, Bool.false_eq_true, if_false]

theorem jiggles_of_trace {w w' : World} {io : Io} {events : List Event}
    (h : taskStep w io = some w') (htrace : w'.trace = w.trace ++ events) :
    jiggles w (.task io) =
      (events.filter (· = Event.act .jiggle)).map fun _ => io.clock w.pc := by
  simp only [jiggles, h, htrace, List.drop_left]

theorem jiggles_eq_nil {w w' : World} {io : Io} {events : List Event}
    (h : taskStep w io = some w') (htrace : w'.trace = w.trace ++ events)
    (hnone : Event.act .jiggle ∉ events) : jiggles w (.task io) = [] := by
  rw [jiggles_of_trace h htrace, List.map_eq_nil_iff, List.filter_eq_nil_iff]
  intro e he hjiggle
  exact hnone (of_decide_eq_true hjiggle ▸ he)

/-- A step that attempts no jiggle and leaves `last_activity_ms` alone. -/
structure Untimed (w w' : World) : Prop where
  trace : ∃ events, w'.trace = w.trace ++ events ∧ Event.act .jiggle ∉ events
  activity : w'.client.lastActivityMs = w.client.lastActivityMs

theorem Untimed.of_silent {w w' : World} (htrace : w'.trace = w.trace)
    (hact : w'.client.lastActivityMs = w.client.lastActivityMs) : Untimed w w' :=
  ⟨⟨[], htrace.trans (List.append_nil _).symm, nofun⟩, hact⟩

theorem Untimed.of_goto {w : World} {client : BarrierClient} {timeoutMs : UInt32}
    {reconnectBit : Bool} {stream : Bytes} {pc : Pc} {events : List Event}
    (hact : client.lastActivityMs = w.client.lastActivityMs)
    (hnone : Event.act .jiggle ∉ events) :
    Untimed w ({ w with client, timeoutMs, reconnectBit, stream }.goto pc events) :=
  ⟨⟨events, rfl, hnone⟩, hact⟩

theorem untimed_readPacket {w w' : World} {io : Io} (h : w.stepReadPacket io = some w') :
    Untimed w w' := by
  obtain ⟨⟨result, client, rest⟩, hread, h⟩ := Option.bind_eq_some_iff.mp h
  obtain ⟨tls, readBuf, rfl⟩ := readPacket_frame hread
  simp only at h
  split at h
  · cases h
  · split at h <;>
    · cases h
      exact .of_goto rfl (by simp)

theorem untimed_handshake {w w' : World} {io : Io} (h : w.stepHandshake io = some w') :
    Untimed w w' := by
  obtain ⟨⟨err, client, events⟩, hshake, hval⟩ := Option.map_eq_some_iff.mp h
  obtain ⟨⟨tls, readBuf, writeBuf, rfl⟩, hevents⟩ := handshake_frame hshake
  cases hval
  apply Untimed.of_goto
  · rfl
  · intro hjiggle
    rcases List.mem_cons.mp hjiggle with heq | hmem
    · cases heq
    · obtain ⟨bytes, accepted, heq⟩ := hevents _ hmem
      cases heq

/-- Where the clock is not looked at, no jiggle is attempted, and `last_activity_ms` stays. -/
theorem taskStep_untimed {w w' : World} {io : Io} (hpc : w.pc.timed = false)
    (h : taskStep w io = some w') : Untimed w w' := by
  unfold taskStep at h
  cases hw : w.pc with
  | start | timedOut | handlePacket =>
      rw [hw] at hpc
      cases hpc
  | stopped =>
      rw [hw] at h
      cases h
  | readPacket =>
      rw [hw] at h
      exact untimed_readPacket h
  | handshake =>
      rw [hw] at h
      exact untimed_handshake h
  | clearReconnect | queueScreenSize | queueScaling | destroyTls | closeTls | connected
  | clearBit | cleanup | closeSession =>
      rw [hw] at h
      cases h
      exact .of_goto rfl (by simp)
  | outer =>
      rw [hw] at h
      cases h
      split
      · exact .of_goto rfl nofun
      · exact .of_silent rfl rfl
  | waitNetwork =>
      rw [hw] at h
      cases h
      unfold World.stepWaitNetwork
      split
      · exact .of_silent rfl rfl
      · exact .of_goto rfl nofun
  | checkReconnect =>
      rw [hw] at h
      cases h
      unfold World.stepCheckReconnect
      split <;> exact .of_goto rfl nofun
  | createTls =>
      rw [hw] at h
      cases h
      unfold World.stepCreateTls
      dsimp only
      split <;> exact .of_goto rfl (by simp)
  | handshakeFailed =>
      rw [hw] at h
      cases h
      unfold World.stepHandshakeFailed
      dsimp only
      split
      · exact .of_goto rfl (by simp)
      · exact .of_silent rfl rfl
  | loopHead =>
      rw [hw] at h
      cases h
      unfold World.stepLoopHead
      split <;> exact .of_goto rfl (by simp)
  | checkBit pkt =>
      rw [hw] at h
      cases h
      unfold World.stepCheckBit
      split <;> exact .of_goto rfl nofun
  | retry =>
      rw [hw] at h
      cases h
      unfold World.stepRetry
      split
      · exact .of_silent rfl rfl
      · split
        · exact .of_goto rfl nofun
        · exact .of_silent rfl rfl

/-- What a handled packet means for the jiggles. -/
theorem handlePacket_jiggle {client client' : BarrierClient} {cfg : DeskflowConfig} {pkt : Packet}
    {io : HandleIo} {err : EspErr} {events : List Event} (hawake : cfg.keepAwake = true)
    (h : handlePacket client cfg pkt io = some (err, client', events)) :
    events.filter (· = Event.act .jiggle) = (if pkt = .calv then [.act .jiggle] else []) ∧
      (client'.lastActivityMs = client.lastActivityMs ∨
        pkt ≠ .calv ∧ client'.lastActivityMs = io.now) := by
  cases pkt with
  | calv =>
      obtain ⟨⟨err', client'', sent⟩, hsend, hval⟩ := Option.map_eq_some_iff.mp h
      cases hval
      obtain ⟨tls, writeBuf, accepted, rfl, rfl, -⟩ := sendPacket_spec (by decide) hsend
      rw [hawake]
      exact ⟨rfl, Or.inl rfl⟩
  | qinf =>
      obtain ⟨tls, writeBuf, accepted, rfl, rfl, -⟩ := sendPacket_spec (by simp [Packet.type]) h
      exact ⟨rfl, Or.inl rfl⟩
  | dmmv | dmrm | dkrp =>
      cases h
      exact ⟨rfl, Or.inr ⟨by simp, rfl⟩⟩
  | dkdn | dkup | dmdn | dmup | dmwm | cinn =>
      have hqueue := Option.some.inj h
      unfold queueInput at hqueue
      split at hqueue
      · cases hqueue
        exact ⟨rfl, Or.inl rfl⟩
      · cases hqueue
        exact ⟨rfl, Or.inr ⟨by simp, rfl⟩⟩
  | cout | cbye | eunk | ebsy | ebad | eicv | dinf | ciak | cnop | crop | cclp | dclp | dsop
  | unknown =>
      cases h
      exact ⟨rfl, Or.inl rfl⟩

/-- What a step means for the jiggles while they are on. -/
inductive TimedStep (w w' : World) (l : Label) : Prop
  | keepAlive (now : UInt64) (hclock : clockReadings w l = [now]) (hjiggles : jiggles w l = [now])
      (hkeep : keepAlives w l = [now]) (hdue : dueTimeouts w l = [])
      (hact : w'.client.lastActivityMs = w.client.lastActivityMs)
  | due (now : UInt64) (hclock : clockReadings w l = [now]) (hjiggles : jiggles w l = [now])
      (hkeep : keepAlives w l = []) (hdue : dueTimeouts w l = [now])
      (hold : w.jiggleDue now = true) (hact : w'.client.lastActivityMs = now)
  | reading (now : UInt64) (hclock : clockReadings w l = [now]) (hjiggles : jiggles w l = [])
      (hkeep : keepAlives w l = []) (hdue : dueTimeouts w l = [])
      (hact : w'.client.lastActivityMs = w.client.lastActivityMs ∨
        w'.client.lastActivityMs = now)
  | silent (hclock : clockReadings w l = []) (hjiggles : jiggles w l = [])
      (hkeep : keepAlives w l = []) (hdue : dueTimeouts w l = [])
      (hact : w'.client.lastActivityMs = w.client.lastActivityMs)

theorem timedStep_timedOut {w w' : World} {io : Io} (hpc : w.pc = .timedOut)
    (h : taskStep w io = some w') : TimedStep w w' (.task io) := by
  have hclock : clockReadings w (.task io) = [io.now] := by
    rw [clockReadings_task (by rw [hpc]; rfl), hpc]
    rfl
  have hkeep : keepAlives w (.task io) = [] := keepAlives_eq_nil (by simp [hpc])
  have hstep : w' = w.stepTimedOut io := by
    unfold taskStep at h
    rw [hpc] at h
    exact (Option.some.inj h).symm
  cases hdue : w.jiggleDue io.now with
  | true =>
      have hw' : w' = { w with client := { w.client with lastActivityMs := io.now } }.goto
          .loopHead [.act .jiggle] := hstep.trans (if_pos hdue)
      have htrace : w'.trace = w.trace ++ [.act .jiggle] := congrArg World.trace hw'
      have hjiggles : jiggles w (.task io) = [io.now] := by
        rw [jiggles_of_trace h htrace, hpc]
        rfl
      refine .due io.now hclock hjiggles hkeep ?_ hdue ?_
      · simp only [dueTimeouts, hpc, hdue, decide_true, Bool.and_self, if_true]
      · rw [hw']
        rfl
  | false =>
      have hnot : ¬ w.jiggleDue io.now = true := by
        rw [hdue]
        nofun
      have hw' : w' = w.goto .loopHead [] := hstep.trans (if_neg hnot)
      have htrace : w'.trace = w.trace ++ [] := congrArg World.trace hw'
      refine .reading io.now hclock (jiggles_eq_nil h htrace nofun) hkeep ?_ (Or.inl ?_)
      · simp only [dueTimeouts, hdue, Bool.and_false, Bool.false_eq_true, if_false]
      · rw [hw']
        rfl

theorem timedStep_handlePacket {w w' : World} {io : Io} {pkt : Packet}
    (hawake : w.settings.current.keepAwake = true) (hpc : w.pc = .handlePacket pkt)
    (h : taskStep w io = some w') : TimedStep w w' (.task io) := by
  have hclock : clockReadings w (.task io) = [io.handle.now] := by
    rw [clockReadings_task (by rw [hpc]; rfl), hpc]
    rfl
  have hdue : dueTimeouts w (.task io) = [] := dueTimeouts_eq_nil (by simp [hpc])
  have hstep : w.stepHandlePacket pkt io = some w' := by
    have hcopy := h
    unfold taskStep at hcopy
    rw [hpc] at hcopy
    exact hcopy
  obtain ⟨⟨err, client, events⟩, hhandle, hval⟩ := Option.map_eq_some_iff.mp hstep
  obtain ⟨hfilter, hact⟩ := handlePacket_jiggle hawake hhandle
  -- Whether the loop goes on or not, the jiggles are those of the packet.
  have hends : w'.client = client ∧ ∃ more, w'.trace = w.trace ++ more ∧
      more.filter (· = Event.act .jiggle) = events.filter (· = Event.act .jiggle) := by
    dsimp only at hval
    split at hval
    · cases hval
      exact ⟨rfl, _, rfl, rfl⟩
    · cases hval
      refine ⟨rfl, _, rfl, ?_⟩
      rw [List.filter_cons_of_neg (by simp), List.filter_append,
        List.filter_cons_of_neg (by simp), List.filter_nil, List.append_nil]
  obtain ⟨hclient, more, htrace, hmore⟩ := hends
  have hjiggles := jiggles_of_trace h htrace
  rw [hmore, hfilter, hpc] at hjiggles
  rw [← hclient] at hact
  by_cases hcalv : pkt = .calv
  · rw [if_pos hcalv] at hjiggles
    have hsame : w'.client.lastActivityMs = w.client.lastActivityMs := by
      rcases hact with hact | ⟨hother, -⟩
      · exact hact
      · exact absurd hcalv hother
    refine .keepAlive io.handle.now hclock hjiggles ?_ hdue hsame
    simp only [keepAlives, hpc, hcalv, if_true]
  · rw [if_neg hcalv] at hjiggles
    have hkeep : keepAlives w (.task io) = [] := keepAlives_eq_nil (by simp [hpc, hcalv])
    exact .reading io.handle.now hclock hjiggles hkeep hdue (hact.imp_right And.right)

theorem timedStep_start {w w' : World} {io : Io} (hpc : w.pc = .start)
    (h : taskStep w io = some w') : TimedStep w w' (.task io) := by
  have hw' : w' = { w with
      pc := .outer
      client := { w.client with running := true, lastActivityMs := io.now } } := by
    have hcopy := h
    unfold taskStep at hcopy
    rw [hpc] at hcopy
    exact (Option.some.inj hcopy).symm
  have htrace : w'.trace = w.trace ++ [] := by
    rw [hw', List.append_nil]
  have hclock : clockReadings w (.task io) = [io.now] := by
    rw [clockReadings_task (by rw [hpc]; rfl), hpc]
    rfl
  refine .reading io.now hclock (jiggles_eq_nil h htrace nofun) (keepAlives_eq_nil ?_)
    (dueTimeouts_eq_nil ?_) (Or.inr ?_)
  · simp [hpc]
  · simp [hpc]
  · rw [hw']

theorem envStep_activity {w w' : World} {act : EnvAct} (h : envStep w act = some w') :
    w'.client.lastActivityMs = w.client.lastActivityMs := by
  cases act with
  | putSettings cfg =>
      cases h
      rfl
  | setReconnect v =>
      simp only [envStep] at h
      split at h
      · cases h
        rfl
      · cases h
  | stop =>
      cases h
      rfl

theorem step_timedStep {w w' : World} {l : Label} (hawake : w.settings.current.keepAwake = true)
    (h : step w l = some w') : TimedStep w w' l := by
  cases l with
  | env act => exact .silent rfl rfl rfl rfl (envStep_activity h)
  | task io =>
      cases htimed : w.pc.timed with
      | true =>
          cases hpc : w.pc with
          | start => exact timedStep_start hpc h
          | timedOut => exact timedStep_timedOut hpc h
          | handlePacket pkt => exact timedStep_handlePacket hawake hpc h
          | _ =>
              rw [hpc] at htimed
              cases htimed
      | false =>
          have huntimed := taskStep_untimed htimed h
          obtain ⟨events, htrace, hnone⟩ := huntimed.trace
          have hout : w.pc ≠ .timedOut ∧ w.pc ≠ .handlePacket .calv := by
            constructor <;>
            · intro hpc
              rw [hpc] at htimed
              cases htimed
          have hclock : clockReadings w (.task io) = [] := by
            simp only [clockReadings, htimed, Bool.false_eq_true, if_false]
          exact .silent hclock (jiggles_eq_nil h htrace hnone) (keepAlives_eq_nil hout.2)
            (dueTimeouts_eq_nil hout.1) huntimed.activity

/-! ## Runs -/

/-- What is given of a step: the jiggles stay on, and the clock does not go back. -/
def Given (n : UInt16) (s : World × JiggleLog) (l : Label) : Prop :=
  (∀ m, step s.1 l = some m → JigglesOn n m) ∧
    (s.2.clock.toList ++ clockReadings s.1 l).IsChain (· ≤ ·)

/-- The last jiggle was for the last keep-alive or for the last timeout, and neither of them is
after it; `last_activity_ms` has noted that of the timeout. -/
structure JiggleInv (n : UInt16) (s : World × JiggleLog) : Prop where
  on : JigglesOn n s.1
  jiggle_le : ∀ t ∈ s.2.jiggle, ∃ c ∈ s.2.clock, t ≤ c
  keepAlive_le : ∀ t ∈ s.2.keepAlive, ∃ t' ∈ s.2.jiggle, t ≤ t'
  due_le : ∀ t ∈ s.2.due, ∃ t' ∈ s.2.jiggle, t ≤ t'
  noted : ∀ t ∈ s.2.jiggle, s.2.keepAlive = some t ∨
    s.2.due = some t ∧ t ≤ s.1.client.lastActivityMs ∧
      ∃ c ∈ s.2.clock, s.1.client.lastActivityMs ≤ c

theorem jiggleInv_init {n : UInt16} {w : World} (hon : JigglesOn n w) : JiggleInv n (w, {}) :=
  ⟨hon, nofun, nofun, nofun, nofun⟩

section

variable {n : UInt16} {s t : World × JiggleLog} {l : Label}

theorem Given.rises {now : UInt64} (hgiven : Given n s l) (hclock : clockReadings s.1 l = [now]) :
    ∀ c ∈ s.2.clock, c ≤ now := by
  have hchain := hgiven.2
  rw [hclock] at hchain
  exact isChain_toList_append_singleton.mp hchain

theorem JiggleInv.jiggle_le_now {now : UInt64} (hinv : JiggleInv n s)
    (hrises : ∀ c ∈ s.2.clock, c ≤ now) : ∀ t ∈ s.2.jiggle, t ≤ now := by
  intro t ht
  obtain ⟨c, hc, hle⟩ := hinv.jiggle_le t ht
  exact UInt64.le_trans hle (hrises c hc)

/-- What is not after the last jiggle is not after a later reading. -/
theorem JiggleInv.le_now {now : UInt64} {time : Option UInt64} (hinv : JiggleInv n s)
    (hrises : ∀ c ∈ s.2.clock, c ≤ now) (hle : ∀ t ∈ time, ∃ t' ∈ s.2.jiggle, t ≤ t') :
    ∀ t ∈ time, t ≤ now := by
  intro t ht
  obtain ⟨t', ht', hle⟩ := hle t ht
  exact UInt64.le_trans hle (hinv.jiggle_le_now hrises t' ht')

theorem timedStep_jiggleInv (hinv : JiggleInv n s) (hgiven : Given n s l)
    (hstep : timedStep s l = some t) : JiggleInv n t := by
  obtain ⟨hstep, hlog⟩ := withGhost_eq_some_iff.mp hstep
  have hon := hgiven.1 t.1 hstep
  cases step_timedStep hinv.on.1 hstep with
  | keepAlive now hclock hjiggles hkeep hdue hact =>
      have hnext : t.2 = ⟨some now, some now, some now, s.2.due⟩ := by
        rw [hlog, JiggleLog.next, hclock, hjiggles, hkeep, hdue]
        rfl
      refine ⟨hon, ?_, ?_, ?_, ?_⟩ <;> rw [hnext]
      · intro t ht
        exact ⟨t, ht, UInt64.le_refl t⟩
      · intro t ht
        exact ⟨t, ht, UInt64.le_refl t⟩
      · intro t ht
        exact ⟨now, rfl, hinv.le_now (hgiven.rises hclock) hinv.due_le t ht⟩
      · intro t ht
        exact Or.inl ht
  | due now hclock hjiggles hkeep hdue hold hact =>
      have hnext : t.2 = ⟨some now, some now, s.2.keepAlive, some now⟩ := by
        rw [hlog, JiggleLog.next, hclock, hjiggles, hkeep, hdue]
        rfl
      refine ⟨hon, ?_, ?_, ?_, ?_⟩ <;> rw [hnext]
      · intro t ht
        exact ⟨t, ht, UInt64.le_refl t⟩
      · intro t ht
        exact ⟨now, rfl, hinv.le_now (hgiven.rises hclock) hinv.keepAlive_le t ht⟩
      · intro t ht
        exact ⟨t, ht, UInt64.le_refl t⟩
      · intro t ht
        cases ht
        rw [hact]
        exact Or.inr ⟨rfl, UInt64.le_refl now, now, rfl, UInt64.le_refl now⟩
  | reading now hclock hjiggles hkeep hdue hact =>
      have hnext : t.2 = ⟨some now, s.2.jiggle, s.2.keepAlive, s.2.due⟩ := by
        rw [hlog, JiggleLog.next, hclock, hjiggles, hkeep, hdue]
        rfl
      have hrises := hgiven.rises hclock
      refine ⟨hon, ?_, ?_, ?_, ?_⟩ <;> rw [hnext]
      · intro t ht
        exact ⟨now, rfl, hinv.jiggle_le_now hrises t ht⟩
      · exact hinv.keepAlive_le
      · exact hinv.due_le
      · intro t ht
        rcases hinv.noted t ht with hkeep | ⟨hdue, hle, c, hc, hle'⟩
        · exact Or.inl hkeep
        · rcases hact with hact | hact <;> rw [hact]
          · exact Or.inr ⟨hdue, hle, now, rfl, UInt64.le_trans hle' (hrises c hc)⟩
          · exact Or.inr ⟨hdue, hinv.jiggle_le_now hrises t ht, now, rfl, UInt64.le_refl now⟩
  | silent hclock hjiggles hkeep hdue hact =>
      have hnext : t.2 = s.2 := by
        rw [hlog, JiggleLog.next, hclock, hjiggles, hkeep, hdue]
        rfl
      refine ⟨hon, ?_, ?_, ?_, ?_⟩ <;> rw [hnext]
      · exact hinv.jiggle_le
      · exact hinv.keepAlive_le
      · exact hinv.due_le
      · rw [hact]
        exact hinv.noted

theorem Apart.of_le {t t' now : UInt64} (h : Apart n t' now) (hle : t ≤ t') : Apart n t now := by
  have hle' := UInt64.le_iff_toNat_le.mp hle
  unfold Apart at h ⊢
  omega

/-- What `last_activity_ms` has noted is more than the interval ago when a jiggle is due. -/
theorem apart_of_jiggleDue {w : World} {t now : UInt64} (hon : JigglesOn n w)
    (hdue : w.jiggleDue now = true) (hle : t ≤ w.client.lastActivityMs)
    (hact : w.client.lastActivityMs ≤ now) : Apart n t now := by
  have hgap : n.toUInt64 * 1000 < now - w.client.lastActivityMs := by
    rw [← hon.2]
    exact of_decide_eq_true (Bool.and_eq_true_iff.mp hdue).2
  have hgap' := UInt64.lt_iff_toNat_lt.mp hgap
  have hle' := UInt64.le_iff_toNat_le.mp hle
  have hact' := UInt64.le_iff_toNat_le.mp hact
  have hsmall := n.toNat_lt
  rw [UInt64.toNat_sub_of_le _ _ hact, UInt64.toNat_mul, UInt16.toNat_toUInt64] at hgap'
  have hthousand : UInt64.toNat 1000 = 1000 := rfl
  rw [hthousand, Nat.mod_eq_of_lt (by omega)] at hgap'
  unfold Apart
  omega

/-- The jiggles of a step go on in the distance exactly if the step keeps it. -/
theorem isChain_jiggles_iff (hinv : JiggleInv n s) (hgiven : Given n s l)
    (hstep : timedStep s l = some t) :
    (s.2.jiggle.toList ++ jiggles s.1 l).IsChain (Apart n) ↔ KeepsDistance n s l := by
  obtain ⟨hstep, -⟩ := withGhost_eq_some_iff.mp hstep
  have hearlier : ∀ {now : UInt64} {time : Option UInt64},
      (∀ t ∈ time, ∃ t' ∈ s.2.jiggle, t ≤ t') → (∀ t ∈ s.2.jiggle, Apart n t now) →
        ∀ t ∈ time, Apart n t now := by
    intro now time hle hapart t ht
    obtain ⟨t', ht', hle⟩ := hle t ht
    exact (hapart t' ht').of_le hle
  unfold KeepsDistance
  cases step_timedStep hinv.on.1 hstep with
  | keepAlive now hclock hjiggles hkeep hdue hact =>
      rw [hjiggles, hkeep, hdue, isChain_toList_append_singleton, List.forall_mem_singleton]
      constructor
      · intro hchain
        exact ⟨⟨hearlier hinv.keepAlive_le hchain, hearlier hinv.due_le hchain⟩, nofun⟩
      · rintro ⟨⟨hkeepAlive, htimeout⟩, -⟩ t ht
        rcases hinv.noted t ht with hlast | ⟨hlast, -⟩
        · exact hkeepAlive t hlast
        · exact htimeout t hlast
  | due now hclock hjiggles hkeep hdue hold hact =>
      rw [hjiggles, hkeep, hdue, isChain_toList_append_singleton, List.forall_mem_singleton]
      have hrises := hgiven.rises hclock
      constructor
      · intro hchain
        exact ⟨nofun, hearlier hinv.keepAlive_le hchain⟩
      · rintro ⟨-, hkeepAlive⟩ t ht
        rcases hinv.noted t ht with hlast | ⟨-, hle, c, hc, hle'⟩
        · exact hkeepAlive t hlast
        · exact apart_of_jiggleDue hinv.on hold hle (UInt64.le_trans hle' (hrises c hc))
  | reading now hclock hjiggles hkeep hdue hact =>
      rw [hjiggles, hkeep, hdue]
      exact iff_of_true (isChain_toList_append_nil _) ⟨nofun, nofun⟩
  | silent hclock hjiggles hkeep hdue hact =>
      rw [hjiggles, hkeep, hdue]
      exact iff_of_true (isChain_toList_append_nil _) ⟨nofun, nofun⟩

end

/-- In every run with the jiggles on and a clock that does not go back: consecutive jiggles are at
least `n` seconds apart exactly if no keep-alive comes too soon after another one or after a
timeout at which a jiggle was due, and no jiggle becomes due too soon after a keep-alive. -/
theorem jigglesApart_iff {n : UInt16} {w w' : World} {labels : List Label}
    (hrun : run step w labels = some w') (hon : AllStates step (JigglesOn n) w labels)
    (hclock : (emitted step clockReadings w labels).IsChain (· ≤ ·)) :
    JigglesApart n w labels ↔ AllSteps timedStep (KeepsDistance n) (w, {}) labels := by
  obtain ⟨hfirst, hstays⟩ := allStates_iff.mp hon
  have hclockNext : ∀ w l (log : JiggleLog),
      (log.next w l).clock = (clockReadings w l).getLast?.or log.clock := fun _ _ _ => rfl
  have hjiggleNext : ∀ w l (log : JiggleLog),
      (log.next w l).jiggle = (jiggles w l).getLast?.or log.jiggle := fun _ _ _ => rfl
  have hstay : AllSteps timedStep (fun s l => ∀ m, step s.1 l = some m → JigglesOn n m) (w, {})
      labels := hstays.withGhost _
  have hrises := (isChain_emitted_iff hclockNext {} hrun).mp hclock
  have hgiven : AllSteps timedStep (Given n) (w, {}) labels := hstay.and hrises
  have hchain := isChain_emitted_iff (R := Apart n) hjiggleNext {} hrun
  obtain ⟨log, hlogged⟩ := run_withGhost JiggleLog.next {} hrun
  refine hchain.trans ?_
  exact run_allSteps_congr_of_given (fun _ _ _ => timedStep_jiggleInv)
    (fun _ _ _ => isChain_jiggles_iff) (jiggleInv_init hfirst) hgiven hlogged

/-- The default settings with the jiggles on. -/
def awakeConfig : DeskflowConfig := { configDefaults with keepAwake := true }

/-- The cursor enters, a read times out, and a keep-alive comes 30 s later. -/
def spreadLabels : List Label :=
  connectLabels 4 (u32Bytes 14 ++ (ascii "CINN" ++ List.replicate 10 0) ++ calvFrame) ++
    turnLabels 14 { now := 500 } ++
    [.task {}, .task { now := 600, reads := [{ result := .timedOut, now := 30600 }] },
      .task { now := 30600 }] ++
    turnLabels 4 { now := 60600, writes := [.moved 8] }

theorem jigglesApart_iff_spread :
    ∃ w, run step (World.initial awakeConfig true) spreadLabels = some w ∧
      emitted step jiggles (World.initial awakeConfig true) spreadLabels = [30600, 60600] ∧
      (JigglesApart 30 (World.initial awakeConfig true) spreadLabels ↔
        AllSteps timedStep (KeepsDistance 30) (World.initial awakeConfig true, {})
          spreadLabels) := by
  have hsome : (run step (World.initial awakeConfig true) spreadLabels).isSome = true := by
    decide +kernel
  obtain ⟨w, hrun⟩ := Option.isSome_iff_exists.mp hsome
  refine ⟨w, hrun, ?_, jigglesApart_iff hrun ?_ ?_⟩
  · decide +kernel
  · decide +kernel
  · decide +kernel

/-- A server that sends its keep-alives every 3 s. -/
def keepAlivePairLabels : List Label :=
  connectLabels 4 (calvFrame ++ calvFrame) ++
    turnLabels 4 { now := 3000, writes := [.moved 8] } ++
    turnLabels 4 { now := 6000, writes := [.moved 8] }

/-- Each of them is a jiggle, with the interval at 30 s. -/
theorem not_jigglesApart_keepAlives :
    (run step (World.initial awakeConfig true) keepAlivePairLabels).isSome = true ∧
      AllStates step (JigglesOn 30) (World.initial awakeConfig true) keepAlivePairLabels ∧
      (emitted step clockReadings (World.initial awakeConfig true)
        keepAlivePairLabels).IsChain (· ≤ ·) ∧
      ¬ JigglesApart 30 (World.initial awakeConfig true) keepAlivePairLabels := by
  refine ⟨?_, ?_, ?_, ?_⟩
  · decide +kernel
  · decide +kernel
  · decide +kernel
  · decide +kernel

end Esp32Deskflow.Barrier
