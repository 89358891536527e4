/-
  Barrier/StartStop.lean --- `barrier_client_start` and `barrier_client_stop`, interleaved
  with the tasks that they start and stop.

  Only the task itself sets `running`.  Between `barrier_client_start` and the first step of
  its task the flag is still false, and the task tests it at the heads of its loops alone.
-/
import Esp32Deskflow.Barrier.TaskSteps
import Esp32Deskflow.Foundation.Transition

set_option autoImplicit false

namespace Esp32Deskflow.Barrier

open Esp32Deskflow.Foundation Esp32Deskflow.Foundation.Transition
open Esp32Deskflow.Config Esp32Deskflow.Tusb

/-! ## State -/

/-- What a `barrier_client_task` has for itself.  The last two fields are no part of the
firmware: `running` when the task's last packet was read, and whether a stop came before. -/
structure TaskLocal where
  pc : Pc
  timeoutMs : UInt32
  stream : Bytes
  readRunning : Bool
  readStopped : Bool
  deriving DecidableEq, Repr

/-- A task before its first step. -/
def TaskLocal.created : TaskLocal where
  pc := .start
  timeoutMs := 0
  stream := []
  readRunning := false
  readStopped := false

/-- Where the controlling task is. -/
inductive ControlCall where
  | none
  /-- in `barrier_client_start`, behind the test of `running` -/
  | creating
  /-- in the delay of `barrier_client_stop` -/
  | stopping
  deriving DecidableEq, Repr

/-- A client with all its tasks that are not deleted, in the order of their creation.  Of
`task_handle` and `s_barrier_task` only whether they are set.  `stopped` is no part of the
firmware: whether `barrier_client_stop` was called since a task was created. -/
structure ClientSystem where
  client : BarrierClient
  settings : Settings
  reconnectBit : Bool
  trace : List Event
  tasks : List TaskLocal
  call : ControlCall
  taskHandle : Bool
  barrierTask : Bool
  startResult : EspErr
  stopped : Bool
  deriving DecidableEq, Repr

/-- The system after `barrier_client_create`. -/
def ClientSystem.created (cfg : DeskflowConfig) (networkEvents : Bool) : ClientSystem :=
  let w := World.initial cfg networkEvents
  { client := w.client
    settings := w.settings
    reconnectBit := w.reconnectBit
    trace := w.trace
    tasks := []
    call := .none
    taskHandle := false
    barrierTask := false
    startResult := .ok
    stopped := false }

/-- The system as one of its tasks sees it. -/
def ClientSystem.world (s : ClientSystem) (l : TaskLocal) : World where
  pc := l.pc
  client := s.client
  timeoutMs := l.timeoutMs
  settings := s.settings
  reconnectBit := s.reconnectBit
  stream := l.stream
  trace := s.trace

/-- The task after a step of its own. -/
def ClientSystem.nextLocal (s : ClientSystem) (l : TaskLocal) (w : World) : TaskLocal where
  pc := w.pc
  timeoutMs := w.timeoutMs
  stream := w.stream
  readRunning := if l.pc = .readPacket then s.client.running else l.readRunning
  readStopped := if l.pc = .readPacket then s.stopped else l.readStopped

/-- The system after a step of the task at `i`. -/
def ClientSystem.afterTask (s : ClientSystem) (i : Nat) (l : TaskLocal) (w : World) :
    ClientSystem :=
  { s with
    client := w.client
    settings := w.settings
    reconnectBit := w.reconnectBit
    trace := w.trace
    tasks := s.tasks.set i (s.nextLocal l w) }

/-! ## Steps -/

/-- Who moves, with what the outside decides. -/
inductive SystemLabel where
  /-- a step of the task at a position -/
  | task (i : Nat) (io : Io)
  /-- `vTaskDelete` at the end of the task -/
  | taskDelete (i : Nat)
  /-- `barrier_client_start` up to its test of `running` -/
  | start
  /-- `xTaskCreatePinnedToCore`, and whether it succeeds -/
  | create (ok : Bool)
  /-- `barrier_client_stop` up to its delay -/
  | stop
  | stopReturns
  | putSettings (cfg : DeskflowConfig)
  | setReconnect (version : Nat)
  deriving DecidableEq, Repr

/-- The test of `barrier_client_start`. -/
def ClientSystem.stepStart (s : ClientSystem) : ClientSystem :=
  if s.client.running then { s with startResult := .invalidState }
  else { s with call := .creating, taskHandle := false }

/-- The creation of the task. -/
def ClientSystem.stepCreate (s : ClientSystem) (ok : Bool) : ClientSystem :=
  if ok then
    { s with
      call := .none
      tasks := s.tasks ++ [.created]
      taskHandle := true
      barrierTask := true
      startResult := .ok
      stopped := false }
  else { s with call := .none, startResult := .fail }

/-- `barrier_client_stop` up to its delay; without a handle it returns at once.  The
notification of the task is left to what the outside decides in the task's reads. -/
def ClientSystem.stepStop (s : ClientSystem) : ClientSystem :=
  { s with
    client := { s.client with running := false }
    barrierTask := false
    call := if s.taskHandle then .stopping else .none
    stopped := true }

/-- One step of the system. -/
def systemStep (s : ClientSystem) : SystemLabel → Option ClientSystem
  | .task i io =>
      s.tasks[i]?.bind fun l => (taskStep (s.world l) io).map fun w => s.afterTask i l w
  | .taskDelete i =>
      s.tasks[i]?.bind fun l =>
        if l.pc = .stopped then some { s with tasks := s.tasks.eraseIdx i } else none
  | .start => if s.call = .none then some s.stepStart else none
  | .create ok => if s.call = .creating then some (s.stepCreate ok) else none
  | .stop => if s.call = .none then some s.stepStop else none
  | .stopReturns =>
      if s.call = .stopping then some { s with call := .none, taskHandle := false } else none
  | .putSettings cfg => some { s with settings := s.settings.put cfg }
  | .setReconnect version =>
      if version ≤ s.settings.version then
        some { s with reconnectBit := true, trace := s.trace ++ [.reconnectSet version] }
      else none

/-! ## Effective calls -/

/-- At most one task, and `running` stays false from a stop to the next task. -/
def ClientSystem.Effective (s : ClientSystem) : Prop :=
  s.tasks.length ≤ 1 ∧ (s.stopped = true → s.client.running = false)

/-- After a stop a task begins no handshake and handles no packet that was read later. -/
def Obeys (s : ClientSystem) : SystemLabel → Prop
  | .task i _ => ∀ l, s.tasks[i]? = some l → s.stopped = true →
      l.pc ≠ .handshake ∧ ∀ pkt, l.pc = .handlePacket pkt → l.readStopped = false
  | _ => True

/-- A step that obeys the last stop and leads to an effective state. -/
def EffectiveStep (s : ClientSystem) (a : SystemLabel) : Prop :=
  Obeys s a ∧ ∀ t, systemStep s a = some t → t.Effective

/-- The places where the code goes on without a test: a task is created only when the one
before it is deleted; it takes its first step only if no stop came since it was created; a
handshake is begun with `running` set; a packet is handled only if `running` was set when it
was read. -/
def TestedInTime (s : ClientSystem) : SystemLabel → Prop
  | .create true => s.call = .creating → s.tasks = []
  | .task i _ => ∀ l, s.tasks[i]? = some l →
      (l.pc = .start → s.stopped = false) ∧ (l.pc = .handshake → s.client.running = true) ∧
        ∀ pkt, l.pc = .handlePacket pkt → l.readRunning = true
  | _ => True

/-! ## The flag in a step of a task -/

/-- Between the first step and the end. -/
def Pc.inLoop : Pc → Bool
  | .start | .stopped => false
  | _ => true

/-- What a step of a task does to `running`. -/
inductive FlagStep (w w' : World) : Prop
  | first (start : w.pc = .start) (pc : w'.pc = .outer) (running : w'.client.running = true)
  | ends (start : w.pc.inLoop = true) (pc : w'.pc = .stopped) (running : w'.client.running = false)
  | keeps (start : w.pc.inLoop = true) (pc : w'.pc.inLoop = true)
      (running : w'.client.running = w.client.running)
      (packet : w'.pc.hasPacket = true → w.pc = .readPacket ∨ w.pc.hasPacket = true)

theorem handlePacket_running {client client' : BarrierClient} {cfg : DeskflowConfig} {pkt : Packet}
    {io : HandleIo} {err : EspErr} {events : List Event}
    (h : handlePacket client cfg pkt io = some (err, client', events)) :
    client'.running = client.running := by
  have hqueue {c c' : BarrierClient} {cmd : ActCmd}
      (hcall : queueInput c cmd io = (err, c', events)) : c'.running = c.running := by
    unfold queueInput at hcall
    split at hcall <;> cases hcall <;> rfl
  cases pkt with
  | qinf =>
      obtain ⟨tls, writeBuf, _, rfl, _⟩ := sendPacket_spec (by simp [Packet.type]) h
      rfl
  | calv =>
      obtain ⟨⟨err', client'', events'⟩, hsend, hval⟩ := Option.map_eq_some_iff.mp h
      obtain ⟨tls, writeBuf, _, rfl, _⟩ := sendPacket_spec (by decide) hsend
      cases hval
      rfl
  | dkdn | dkup | dmdn | dmup | dmwm => exact hqueue (Option.some.inj h)
  | cinn e => exact @hqueue { client with cursorEntered := true } _ _ (Option.some.inj h)
  | _ =>
      cases h
      rfl

theorem FlagStep.of_goto {w : World} {client : BarrierClient} {timeoutMs : UInt32}
    {reconnectBit : Bool} {stream : Bytes} {pc : Pc} {events : List Event}
    (hstart : w.pc.inLoop = true) (hpc : pc.inLoop = true)
    (hrunning : client.running = w.client.running)
    (hpacket : pc.hasPacket = true → w.pc = .readPacket ∨ w.pc.hasPacket = true) :
    FlagStep w ({ w with client, timeoutMs, reconnectBit, stream }.goto pc events) :=
  .keeps hstart hpc hrunning hpacket

theorem FlagStep.of_finish {w : World} {client : BarrierClient} (hstart : w.pc.inLoop = true) :
    FlagStep w { w with client }.finish :=
  .ends hstart rfl rfl

/-- A task sets `running` in its first step, clears it in its last one, and leaves it alone in
between. -/
theorem taskStep_flag {w w' : World} {io : Io} (h : taskStep w io = some w') : FlagStep w w' := by
  unfold taskStep at h
  cases hw : w.pc with
  | start =>
      rw [hw] at h
      cases h
      exact .first hw rfl rfl
  | outer =>
      rw [hw] at h
      cases h
      split
      · exact .of_goto (hw ▸ rfl) rfl rfl nofun
      · exact .of_finish (hw ▸ rfl)
  | waitNetwork =>
      rw [hw] at h
      cases h
      unfold World.stepWaitNetwork
      split
      · exact .keeps (hw ▸ rfl) (hw ▸ rfl) rfl .inr
      · exact .of_goto (hw ▸ rfl) rfl rfl nofun
  | checkReconnect =>
      rw [hw] at h
      cases h
      unfold World.stepCheckReconnect
      split <;> exact .of_goto (hw ▸ rfl) rfl rfl nofun
  | clearReconnect | queueScreenSize | queueScaling | destroyTls | closeTls | closeSession
  | cleanup | clearBit =>
      rw [hw] at h
      cases h
      exact .of_goto (hw ▸ rfl) rfl rfl nofun
  | createTls =>
      rw [hw] at h
      cases h
      unfold World.stepCreateTls
      simp only
      split <;> exact .of_goto (hw ▸ rfl) rfl rfl nofun
  | handshake =>
      rw [hw] at h
      obtain ⟨⟨err, client, events⟩, hshake, hval⟩ := Option.map_eq_some_iff.mp h
      obtain ⟨⟨tls, readBuf, writeBuf, rfl⟩, _⟩ := handshake_frame hshake
      cases hval
      refine .of_goto (hw ▸ rfl) ?_ rfl ?_
      · split <;> rfl
      · split <;> nofun
  | handshakeFailed =>
      rw [hw] at h
      cases h
      unfold World.stepHandshakeFailed
      simp only
      split
      · exact .of_goto (hw ▸ rfl) rfl rfl nofun
      · exact .of_finish (hw ▸ rfl)
  | connected =>
      rw [hw] at h
      cases h
      exact .of_goto (hw ▸ rfl) rfl rfl nofun
  | loopHead =>
      rw [hw] at h
      cases h
      unfold World.stepLoopHead
      split <;> exact .of_goto (hw ▸ rfl) rfl rfl nofun
  | readPacket =>
      rw [hw] at h
      obtain ⟨⟨result, client, rest⟩, hread, h⟩ := Option.bind_eq_some_iff.mp h
      obtain ⟨tls, readBuf, rfl⟩ := readPacket_frame hread
      simp only at h
      split at h
      · cases h
      · split at h <;> cases h <;> exact .of_goto (hw ▸ rfl) rfl rfl fun _ => .inl hw
  | timedOut =>
      rw [hw] at h
      cases h
      unfold World.stepTimedOut
      simp only
      split <;> exact .of_goto (hw ▸ rfl) rfl rfl nofun
  | checkBit pkt =>
      rw [hw] at h
      cases h
      unfold World.stepCheckBit
      split <;> exact .of_goto (hw ▸ rfl) rfl rfl fun _ => .inr (hw ▸ rfl)
  | handlePacket pkt =>
      rw [hw] at h
      obtain ⟨⟨err, client, events⟩, hhandle, hval⟩ := Option.map_eq_some_iff.mp h
      have hrunning := handlePacket_running hhandle
      simp only at hval
      split at hval <;> cases hval <;> exact .of_goto (hw ▸ rfl) rfl hrunning nofun
  | retry =>
      rw [hw] at h
      cases h
      unfold World.stepRetry
      split
      · exact .of_finish (hw ▸ rfl)
      · split
        · exact .of_goto (hw ▸ rfl) rfl rfl nofun
        · exact .of_finish (hw ▸ rfl)
  | stopped =>
      rw [hw] at h
      cases h

theorem taskStep_first {w : World} (hpc : w.pc = .start) (io : Io) :
    ∃ w', taskStep w io = some w' ∧ w'.client.running = true := by
  refine ⟨{ w with
    pc := .outer, client := { w.client with running := true, lastActivityMs := io.now } }, ?_, rfl⟩
  unfold taskStep
  rw [hpc]

/-! ## The only task -/

/-- What holds of the only task: between its first step and its end `running` is set as long as
no stop came, and a packet on its way was read before a stop exactly if `running` was set. -/
structure TaskLocal.Sound (l : TaskLocal) (running stopped : Bool) : Prop where
  flag : running = (l.pc.inLoop && !stopped)
  read : l.pc.hasPacket = true →
    l.readRunning = !l.readStopped ∧ (l.readStopped = true → stopped = true)

/-- At most one task, and without a task `running` is not set. -/
def ClientSystem.Sound (s : ClientSystem) : Prop :=
  (s.tasks = [] ∧ s.client.running = false) ∨
    ∃ l, s.tasks = [l] ∧ l.Sound s.client.running s.stopped

theorem ClientSystem.Sound.effective {s : ClientSystem} (h : s.Sound) : s.Effective := by
  obtain ⟨hnone, hrunning⟩ | ⟨l, hone, hl⟩ := h
  · exact ⟨by rw [hnone]; exact Nat.zero_le 1, fun _ => hrunning⟩
  · refine ⟨by rw [hone]; exact Nat.le_refl 1, fun hstopped => ?_⟩
    rw [hl.flag, hstopped, Bool.not_true, Bool.and_false]

/-- The task that takes a step is the only one. -/
theorem ClientSystem.Sound.only {s : ClientSystem} (h : s.Sound) {i : Nat} {l : TaskLocal}
    (hl : s.tasks[i]? = some l) :
    i = 0 ∧ s.tasks = [l] ∧ l.Sound s.client.running s.stopped := by
  obtain ⟨hnone, _⟩ | ⟨l', hone, hl'⟩ := h
  · rw [hnone] at hl
    cases hl
  · rw [hone] at hl ⊢
    cases i with
    | zero =>
        cases hl
        exact ⟨rfl, rfl, hl'⟩
    | succ i => cases hl

theorem TaskLocal.Sound.running_iff {l : TaskLocal} {running stopped : Bool}
    (h : l.Sound running stopped) (hloop : l.pc.inLoop = true) :
    running = true ↔ stopped = false := by
  rw [h.flag, hloop, Bool.true_and, Bool.not_eq_true']

theorem TaskLocal.Sound.readRunning_iff {l : TaskLocal} {running stopped : Bool}
    (h : l.Sound running stopped) (hpacket : l.pc.hasPacket = true) :
    l.readRunning = true ↔ (stopped = true → l.readStopped = false) := by
  obtain ⟨hread, hstopped⟩ := h.read hpacket
  rw [hread, Bool.not_eq_true']
  refine ⟨fun hfalse _ => hfalse, fun himp => ?_⟩
  cases hr : l.readStopped with
  | false => rfl
  | true => exact hr ▸ himp (hstopped hr)

/-- A step of the only task that is tested in time. -/
theorem TaskLocal.Sound.step {s : ClientSystem} {l : TaskLocal}
    (hl : l.Sound s.client.running s.stopped) (hfirst : l.pc = .start → s.stopped = false)
    {w : World} (hw : FlagStep (s.world l) w) :
    (s.nextLocal l w).Sound w.client.running s.stopped := by
  obtain ⟨hstart, hpc, hrunning⟩ | ⟨_, hpc, hrunning⟩ | ⟨hstart, hpc, hrunning, hpacket⟩ := hw
  · refine ⟨?_, ?_⟩
    · rw [hrunning, hfirst hstart, ClientSystem.nextLocal, hpc]
      rfl
    · rw [ClientSystem.nextLocal, hpc]
      nofun
  · refine ⟨?_, ?_⟩
    · rw [hrunning, ClientSystem.nextLocal, hpc]
      rfl
    · rw [ClientSystem.nextLocal, hpc]
      nofun
  · have hloop : l.pc.inLoop = true := hstart
    have hflag := hl.flag
    rw [hloop, Bool.true_and] at hflag
    refine ⟨?_, fun hhas => ?_⟩
    · rw [hrunning]
      show s.client.running = (w.pc.inLoop && !s.stopped)
      rw [hpc, Bool.true_and, hflag]
    · simp only [ClientSystem.nextLocal]
      obtain hread | hhad := hpacket hhas
      · have hread' : l.pc = .readPacket := hread
        rw [if_pos hread', if_pos hread']
        exact ⟨hflag, id⟩
      · have hne : l.pc ≠ .readPacket := by
          intro heq
          have hhad' : l.pc.hasPacket = true := hhad
          rw [heq] at hhad'
          cases hhad'
        rw [if_neg hne, if_neg hne]
        exact hl.read hhad

/-! ## Steps of the system -/

/-- What a step tested in time keeps. -/
theorem systemStep_sound {s t : ClientSystem} {a : SystemLabel} (h : s.Sound)
    (htested : TestedInTime s a) (hstep : systemStep s a = some t) : t.Sound := by
  cases a with
  | task i io =>
      obtain ⟨l, hl, hstep⟩ := Option.bind_eq_some_iff.mp hstep
      obtain ⟨w, hw, rfl⟩ := Option.map_eq_some_iff.mp hstep
      obtain ⟨rfl, hone, hsound⟩ := h.only hl
      refine .inr ⟨s.nextLocal l w, ?_, hsound.step (htested l hl).1 (taskStep_flag hw)⟩
      simp only [ClientSystem.afterTask, hone, List.set_cons_zero]
  | taskDelete i =>
      obtain ⟨l, hl, hstep⟩ := Option.bind_eq_some_iff.mp hstep
      obtain ⟨hpc, hval⟩ := Option.ite_none_right_eq_some.mp hstep
      cases hval
      obtain ⟨rfl, hone, hsound⟩ := h.only hl
      refine .inl ⟨?_, ?_⟩
      · simp only [hone, List.eraseIdx_cons_zero]
      · show s.client.running = false
        rw [hsound.flag, hpc]
        rfl
  | start =>
      obtain ⟨_, hval⟩ := Option.ite_none_right_eq_some.mp hstep
      cases hval
      unfold ClientSystem.stepStart
      split <;> exact h
  | create ok =>
      obtain ⟨hcall, hval⟩ := Option.ite_none_right_eq_some.mp hstep
      cases hval
      cases ok with
      | false => exact h
      | true =>
          have hnone := htested hcall
          obtain ⟨_, hrunning⟩ | ⟨l, hone, _⟩ := h
          · refine .inr ⟨.created, ?_, ?_, nofun⟩
            · simp only [ClientSystem.stepCreate, if_true, hnone, List.nil_append]
            · exact hrunning
          · rw [hnone] at hone
            cases hone
  | stop =>
      obtain ⟨_, hval⟩ := Option.ite_none_right_eq_some.mp hstep
      cases hval
      obtain ⟨hnone, _⟩ | ⟨l, hone, hl⟩ := h
      · exact .inl ⟨hnone, rfl⟩
      · refine .inr ⟨l, hone, ?_, fun hhas => ⟨(hl.read hhas).1, fun _ => rfl⟩⟩
        simp only [ClientSystem.stepStop, Bool.not_true, Bool.and_false]
  | stopReturns =>
      obtain ⟨_, hval⟩ := Option.ite_none_right_eq_some.mp hstep
      cases hval
      exact h
  | putSettings cfg =>
      cases hstep
      exact h
  | setReconnect version =>
      obtain ⟨_, hval⟩ := Option.ite_none_right_eq_some.mp hstep
      cases hval
      exact h

/-- A step is effective exactly if it is tested in time. -/
theorem effectiveStep_iff {s : ClientSystem} {a : SystemLabel} (h : s.Sound) :
    EffectiveStep s a ↔ TestedInTime s a := by
  constructor
  · rintro ⟨hobeys, hnext⟩
    cases a with
    | task i io =>
        intro l hl
        obtain ⟨rfl, hone, hsound⟩ := h.only hl
        refine ⟨fun hpc => ?_, fun hpc => ?_, fun pkt hpc => ?_⟩
        · -- The first step sets the flag, so the state after it is not effective behind a stop.
          cases hstopped : s.stopped with
          | false => rfl
          | true =>
              obtain ⟨w, hw, hrunning⟩ := @taskStep_first (s.world l) hpc io
              have heff := hnext (s.afterTask 0 l w)
                (Option.bind_eq_some_iff.mpr ⟨l, hl, Option.map_eq_some_iff.mpr ⟨w, hw, rfl⟩⟩)
              have hfalse : w.client.running = false := heff.2 hstopped
              rw [hrunning] at hfalse
              cases hfalse
        · rw [hsound.running_iff (by rw [hpc]; rfl)]
          cases hstopped : s.stopped with
          | false => rfl
          | true => exact absurd hpc (hobeys l hl hstopped).1
        · rw [hsound.readRunning_iff (by rw [hpc]; rfl)]
          exact fun hstopped => (hobeys l hl hstopped).2 pkt hpc
    | create ok =>
        cases ok with
        | false => trivial
        | true =>
            intro hcall
            have heff := (hnext _ (if_pos hcall)).1
            simp only [ClientSystem.stepCreate, if_true, List.length_append,
              List.length_singleton] at heff
            exact List.eq_nil_of_length_eq_zero (by omega)
    | _ => trivial
  · intro htested
    refine ⟨?_, fun t ht => (systemStep_sound h htested ht).effective⟩
    cases a with
    | task i io =>
        intro l hl hstopped
        obtain ⟨rfl, hone, hsound⟩ := h.only hl
        obtain ⟨_, hshake, hpacket⟩ := htested l hl
        refine ⟨fun hpc => ?_, fun pkt hpc => ?_⟩
        · have hclear := (hsound.running_iff (by rw [hpc]; rfl)).mp (hshake hpc)
          rw [hstopped] at hclear
          cases hclear
        · exact (hsound.readRunning_iff (by rw [hpc]; rfl)).mp (hpacket pkt hpc) hstopped
    | _ => trivial

/-- In a run from the creation of the client every step is effective exactly if every step is
tested in time. -/
theorem startStop_effective_iff (cfg : DeskflowConfig) (networkEvents : Bool)
    (labels : List SystemLabel) :
    AllSteps systemStep EffectiveStep (.created cfg networkEvents) labels ↔
      AllSteps systemStep TestedInTime (.created cfg networkEvents) labels :=
  allSteps_congr (fun _ _ => effectiveStep_iff) (fun _ _ _ => systemStep_sound)
    (.inl ⟨rfl, rfl⟩)

/-! ## The client with one task -/

/-- A step of the only task, or of another task beside it, is a step of the system, or a stop
that returns. -/
theorem systemStep_of_step {s : ClientSystem} {l : TaskLocal} {w : World} {a : Label}
    (hone : s.tasks = [l]) (hcall : s.call = .none) (h : step (s.world l) a = some w) :
    ∃ labels t l', run systemStep s labels = some t ∧ t.tasks = [l'] ∧ t.call = .none ∧
      t.world l' = w := by
  cases a with
  | task io =>
      have hstep : systemStep s (.task 0 io) = some (s.afterTask 0 l w) := by
        refine Option.bind_eq_some_iff.mpr ⟨l, by rw [hone]; rfl, ?_⟩
        exact Option.map_eq_some_iff.mpr ⟨w, h, rfl⟩
      refine ⟨[.task 0 io], _, s.nextLocal l w, run_cons_iff.mpr ⟨_, hstep, rfl⟩, ?_, hcall, rfl⟩
      simp only [ClientSystem.afterTask, hone, List.set_cons_zero]
  | env act =>
      cases act with
      | putSettings cfg =>
          cases h
          exact ⟨[.putSettings cfg], _, l, run_cons_iff.mpr ⟨_, rfl, rfl⟩, hone, hcall, rfl⟩
      | setReconnect version =>
          obtain ⟨hversion, hval⟩ := Option.ite_none_right_eq_some.mp h
          cases hval
          exact ⟨[.setReconnect version], _, l, run_cons_iff.mpr ⟨_, if_pos hversion, rfl⟩, hone,
            hcall, rfl⟩
      | stop =>
          cases h
          have hstop : systemStep s .stop = some s.stepStop := if_pos hcall
          cases hhandle : s.taskHandle with
          | false =>
              have hnone : s.stepStop.call = .none := by
                rw [ClientSystem.stepStop, hhandle]
                rfl
              exact ⟨[.stop], _, l, run_cons_iff.mpr ⟨_, hstop, rfl⟩, hone, hnone, rfl⟩
          | true =>
              have hwaits : s.stepStop.call = .stopping := by
                rw [ClientSystem.stepStop, hhandle]
                rfl
              exact ⟨[.stop, .stopReturns], _, l, run_cons_iff.mpr ⟨_, hstop,
                run_cons_iff.mpr ⟨_, if_pos hwaits, rfl⟩⟩, hone, rfl, rfl⟩

theorem run_system_of_run {labels : List Label} {s : ClientSystem} {l : TaskLocal} {w : World}
    (hone : s.tasks = [l]) (hcall : s.call = .none) (h : run step (s.world l) labels = some w) :
    ∃ labels' t l', run systemStep s labels' = some t ∧ t.tasks = [l'] ∧ t.call = .none ∧
      t.world l' = w := by
  induction labels generalizing s l with
  | nil =>
      cases h
      exact ⟨[], s, l, rfl, hone, hcall, rfl⟩
  | cons a labels ih =>
      obtain ⟨m, hm, hrest⟩ := run_cons_iff.mp h
      obtain ⟨first, t, l', hfirst, hone', hcall', rfl⟩ := systemStep_of_step hone hcall hm
      obtain ⟨later, t', l'', hlater, hall⟩ := ih hone' hcall' hrest
      exact ⟨first ++ later, t', l'', run_append_iff.mpr ⟨t, hfirst, hlater⟩, hall⟩

/-- Every run of the client with one task is a run of the system after one start. -/
theorem run_system_of_initial {cfg : DeskflowConfig} {networkEvents : Bool} {labels : List Label}
    {w : World} (h : run step (.initial cfg networkEvents) labels = some w) :
    ∃ labels' s l, run systemStep (.created cfg networkEvents) labels' = some s ∧
      s.tasks = [l] ∧ s.world l = w := by
  obtain ⟨s, hstart, hone, hcall, hworld⟩ : ∃ s,
      run systemStep (.created cfg networkEvents) [.start, .create true] = some s ∧
        s.tasks = [.created] ∧ s.call = .none ∧
        s.world .created = World.initial cfg networkEvents := ⟨_, rfl, rfl, rfl, rfl⟩
  rw [← hworld] at h
  obtain ⟨later, t, l, hlater, htasks, _, heq⟩ := run_system_of_run hone hcall h
  exact ⟨[.start, .create true] ++ later, t, l, run_append_iff.mpr ⟨s, hstart, hlater⟩, htasks, heq⟩

/-! ## Calls without effect -/

/-- A stop before the first step of the task. -/
def stopBeforeFirstStep : List SystemLabel := [.start, .create true, .stop, .task 0 {}]

/-- A second start before the first step of the task. -/
def startTwice : List SystemLabel := [.start, .create true, .start, .create true]

/-- A stop while the task waits for the network, up to the handshake. -/
def stopInNetworkWait : List SystemLabel :=
  [.start, .create true, .task 0 {}, .task 0 {}, .stop, .task 0 {}, .task 0 {}]

/-- The task sets `running` behind a stop, a second task is created, and a handshake begins
behind a stop. -/
theorem startStop_not_effective :
    ¬ AllSteps systemStep EffectiveStep (.created configDefaults true) stopBeforeFirstStep ∧
    (∃ s, run systemStep (.created configDefaults true) stopBeforeFirstStep = some s ∧
      s.stopped = true ∧ s.client.running = true) ∧
    (∃ s, run systemStep (.created configDefaults true) startTwice = some s ∧
      s.tasks.length = 2) ∧
    ∃ s, run systemStep (.created configDefaults true) stopInNetworkWait = some s ∧
      s.stopped = true ∧ s.tasks.map TaskLocal.pc = [.handshake] ∧
      ∃ t, systemStep s (.task 0 {}) = some t ∧ .handshake ∈ t.trace := by
  refine ⟨fun hall => ?_, ⟨_, rfl, rfl, rfl⟩, ⟨_, rfl, rfl⟩, ⟨_, rfl, rfl, rfl, _, rfl, by decide⟩⟩
  have hlast := (((hall.2 _ rfl).2 _ rfl).2 _ rfl).1
  have hfalse := (hlast.2 _ rfl).2 rfl
  cases hfalse

end Esp32Deskflow.Barrier
