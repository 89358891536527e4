/-
  Device/Firmware.lean --- the client task, `hid_task` and the queue between them.

  A step of the client task comes with the calls of the actuator that it makes.  They are
  carried out one after the other, each in its accesses to the queue, while `hid_task` goes
  on by itself.  The client task moves again when all of them have returned, and with the
  answer that it got.
-/
import Esp32Deskflow.Barrier.InputPath
import Esp32Deskflow.Foundation.Since
import Esp32Deskflow.Tusb.LastReport
import Esp32Deskflow.Tusb.Unmounted

set_option autoImplicit false

namespace Esp32Deskflow.Device

open Esp32Deskflow.Foundation Esp32Deskflow.Foundation.History
  Esp32Deskflow.Foundation.Transition Esp32Deskflow.Config Esp32Deskflow.Barrier
  Esp32Deskflow.Tusb

/-! ## The tasks together -/

/-- The event is a call of the actuator. -/
def isCall : Event → Bool
  | .act _ | .setMovement _ _ | .moveRelative _ _ => true
  | _ => false

/-- The command that a call puts into the queue; `actuator_queue_key_repeat` queues none. -/
def queued : Event → Option ActCmd
  | .act (.keyRepeat _ _ _ _) => none
  | .act cmd => some cmd
  | _ => none

/-- The packets whose handler looks at the answer of its call. -/
def looksAtAnswer : Packet → Bool
  | .dkdn _ | .dkup _ | .dmdn _ | .dmup _ | .dmwm _ | .cinn _ | .cout => true
  | _ => false

/-- The answer that a step of the client task goes by. -/
def answerUsed : Pc → Io → Option EspErr
  | .handlePacket pkt, io => if looksAtAnswer pkt then some io.handle.act else none
  | _, _ => none

/-- The client task, and the actuator with the two tasks at it. -/
structure Firmware where
  world : World
  tasks : Tasks
  /-- the calls that the client task's last step has still to make -/
  todo : List Event
  /-- the answer that this step went by -/
  answer : Option EspErr
  /-- no part of the firmware: since the last call for a disconnect no command was refused by
  the queue, taken for a duplicate or dropped by `hid_task`, and the layout was not changed -/
  undisturbed : Bool

/-- Who moves, with what the outside decides. -/
inductive FirmwareLabel where
  /-- `barrier_client_task` -/
  | client (io : Io)
  /-- another task, at the client or its settings -/
  | outside (act : EnvAct)
  /-- the client task makes its next call of the actuator, at time `now` -/
  | call (now : UInt64)
  /-- an access to the queue within that call, or `hid_task`, or the host -/
  | tasks (label : TasksLabel)
  deriving DecidableEq, Repr

/-- All calls have returned, and with the answer that the client task went by. -/
def Firmware.returned (d : Firmware) : Bool :=
  d.todo.isEmpty && d.tasks.pc = .idle && d.answer.all (· == d.tasks.result)

/-- The client task after a step to `w`, with its calls still to be made. -/
def Firmware.clientStep (d : Firmware) (io : Io) (w : World) : Firmware :=
  let events := w.trace.drop d.world.trace.length
  { d with
    world := w
    todo := events.filter isCall
    answer := answerUsed d.world.pc io
    undisturbed := d.undisturbed || (events.filterMap queued).contains .disconnected }

/-- A call begins; `actuator_set_movement` and `actuator_move_relative` are over at once. -/
def makeCall (t : Tasks) (now : UInt64) : Event → Option Tasks
  | .act cmd => tasksStep t (.net (.call cmd now))
  | .setMovement x y => tasksStep t (.setMovement x y)
  | .moveRelative dx dy => tasksStep t (.moveRelative dx dy)
  | _ => none

/-- The call returns without queueing its command. -/
def takenForDuplicate (t : Tasks) (now : UInt64) (e : Event) : Bool :=
  (queued e).any fun cmd => (enterCall t.hid.act cmd now).2 == .returns

/-- The steps that begin a call are not taken by themselves. -/
def beginsCall : TasksLabel → Bool
  | .net (.call _ _) | .setMovement _ _ | .moveRelative _ _ => true
  | _ => false

/-- The queue refuses a command, `hid_task` drops one, or the layout changes. -/
def disturbs (t : Tasks) : TasksLabel → Bool
  | .net .sendTimeout | .setLayout _ => true
  | .finish => !t.hid.mounted
  | _ => false

/-- One step of the firmware. -/
def firmwareStep (d : Firmware) : FirmwareLabel → Option Firmware
  | .client io => if d.returned then (taskStep d.world io).map (d.clientStep io) else none
  | .outside act => (envStep d.world act).map fun w => { d with world := w }
  | .call now =>
      match d.todo with
      | [] => none
      | e :: rest =>
          (makeCall d.tasks now e).map fun t =>
            { d with
              tasks := t
              todo := rest
              undisturbed := d.undisturbed && !takenForDuplicate d.tasks now e }
  | .tasks label =>
      if beginsCall label then none
      else
        (tasksStep d.tasks label).map fun t =>
          { d with tasks := t, undisturbed := d.undisturbed && !disturbs d.tasks label }

/-- After `tusb_actuator_init`: `barrier_client_create` has still to queue the screen size and
the scaling. -/
def Firmware.boot (cfg : DeskflowConfig) (networkEvents : Bool) (layout : KeyboardLayout)
    (mounted : Bool) (answers : List Bool) : Firmware where
  world := World.initial cfg networkEvents
  tasks := Tasks.init cfg.screenWidth cfg.screenHeight layout mounted answers
  todo := (World.initial cfg networkEvents).trace.filter isCall
  answer := none
  undisturbed := true

/-! ## The commands on their way -/

/-- The command DISCONNECTED. -/
def isDisconnected (cmd : ActCmd) : Bool := cmd == .disconnected

/-- The command of the call in progress. -/
def inCall : NetPc → List ActCmd
  | .sending cmd | .flushing cmd => [cmd]
  | _ => []

/-- The commands that `hid_task` is not through with, the oldest first. -/
def waiting (t : Tasks) : List ActCmd := t.working.toList ++ t.queue ++ inCall t.pc

/-- The commands that are still to be processed: queued, or in calls still to be made. -/
def Firmware.pending (d : Firmware) : List ActCmd := waiting d.tasks ++ d.todo.filterMap queued

/-- The commands processed, and those that are still to be. -/
def Firmware.line (d : Firmware) : List ActCmd := d.tasks.hid.processed ++ d.pending

/-- The commands of all calls so far. -/
def commands (trace : List Event) : List ActCmd := trace.filterMap queued

/-- Where the network task stands in a call that was not refused: only a disconnect flushes. -/
def Undumped : NetPc → Prop
  | .flushing cmd => cmd = .disconnected
  | .dumpEntry | .dumping _ => False
  | _ => True

/-- An access of a call, as long as it is not refused: the commands stay in line, but for those
that a disconnect flushes before its own. -/
theorem deliveryStep_line {t : Tasks} {d : Delivery} {label : DeliveryLabel}
    (hpc : Undumped t.pc) (hcall : beginsCall (.net label) = false)
    (hquiet : disturbs t (.net label) = false) (hreceive : label ≠ .hidReceive)
    (hstep : deliveryStep t.delivery label = some d) :
    Undumped d.pc ∧
      (d.act.cmdQueue ++ inCall d.pc = t.queue ++ inCall t.pc ∨
        inCall t.pc = [.disconnected] ∧ inCall d.pc = [.disconnected]) := by
  unfold deliveryStep at hstep
  cases label with
  | call cmd now => cases hcall
  | send =>
      simp only [Tasks.delivery] at hstep
      split at hstep
      · next cmd hsending =>
          obtain ⟨act, hsend, rfl⟩ := Option.map_eq_some_iff.mp hstep
          obtain ⟨-, rfl⟩ := xQueueSend_spec hsend
          refine ⟨trivial, .inl ?_⟩
          rw [hsending]
          exact List.append_nil _
      · cases hstep
  | sendTimeout => cases hquiet
  | flush =>
      simp only [Tasks.delivery] at hstep
      split at hstep
      · next cmd hflushing =>
          rw [hflushing] at hpc ⊢
          obtain rfl : cmd = .disconnected := hpc
          split at hstep
          · cases hstep
            exact ⟨trivial, .inr ⟨rfl, rfl⟩⟩
          · cases hstep
            simp only [Delivery.take]
            rw [hflushing]
            exact ⟨rfl, .inr ⟨rfl, rfl⟩⟩
      · cases hstep
  | readDepth =>
      simp only [Tasks.delivery] at hstep
      split at hstep
      · next hdump =>
          rw [hdump] at hpc
          exact hpc.elim
      · cases hstep
  | dump =>
      simp only [Tasks.delivery] at hstep
      split at hstep
      · next hdump =>
          rw [hdump] at hpc
          exact hpc.elim
      · next hdump =>
          rw [hdump] at hpc
          exact hpc.elim
      · cases hstep
  | hidReceive => exact absurd rfl hreceive

/-- What a step does to the line. -/
inductive LineStep (t t' : Tasks) : Prop
  | same (hprocessed : t'.hid.processed = t.hid.processed) (hwaiting : waiting t' = waiting t)
  | flush (hprocessed : t'.hid.processed = t.hid.processed) (front front' : List ActCmd)
      (hwaiting : waiting t = front ++ [.disconnected])
      (hwaiting' : waiting t' = front' ++ [.disconnected])
  | finish (cmd : ActCmd) (hprocessed : t'.hid.processed = t.hid.processed ++ [cmd])
      (hwaiting : waiting t = cmd :: waiting t')

theorem movementStep_processed {h h' : Hid} (hstep : h.movementStep = some h') :
    h'.processed = h.processed := (movementStep_sameDevice hstep).2

theorem tasksStep_line {t t' : Tasks} {label : TasksLabel} (hpc : Undumped t.pc)
    (hcall : beginsCall label = false) (hquiet : disturbs t label = false)
    (hstep : tasksStep t label = some t') : Undumped t'.pc ∧ LineStep t t' := by
  unfold tasksStep at hstep
  cases label with
  | net l =>
      simp only at hstep
      split at hstep
      · cases hstep
      · next hreceive =>
          obtain ⟨d, hd, rfl⟩ := Option.map_eq_some_iff.mp hstep
          obtain ⟨hpc', hline⟩ := deliveryStep_line hpc hcall hquiet hreceive hd
          refine ⟨hpc', ?_⟩
          rcases hline with hline | ⟨hbefore, hafter⟩
          · refine .same rfl ?_
            have hline' := congrArg (t.working.toList ++ ·) hline
            simpa [waiting, Tasks.queue, Tasks.withDelivery] using hline'
          · refine .flush rfl (t.working.toList ++ t.queue)
              (t.working.toList ++ (t.withDelivery d).queue) ?_ ?_
            · rw [waiting, hbefore]
            · exact congrArg (t.working.toList ++ (t.withDelivery d).queue ++ ·) hafter
  | receive =>
      simp only at hstep
      split at hstep
      · next hidle =>
          cases hstep
          unfold Tasks.receive
          split
          · exact ⟨hpc, .same rfl rfl⟩
          · next cmd act hreceive =>
              obtain ⟨rest, hqueue, rfl⟩ := xQueueReceive_spec hreceive
              refine ⟨hpc, .same rfl ?_⟩
              simp [waiting, Tasks.queue, hidle, hqueue]
      · cases hstep
  | finish =>
      obtain ⟨cmd, hworking, hfinish⟩ := Option.bind_eq_some_iff.mp hstep
      have hmounted : t.hid.mounted = true := by
        change (!t.hid.mounted) = false at hquiet
        simpa using hquiet
      unfold Tasks.finish at hfinish
      simp only at hfinish
      rw [if_pos hmounted] at hfinish
      obtain ⟨h, hp, rfl⟩ := Option.map_eq_some_iff.mp hfinish
      refine ⟨hpc, .finish cmd (processCommand_sameKeys hp).processed ?_⟩
      have hqueue := processCommand_cmdQueue hp
      simp [waiting, Tasks.queue, hworking, hqueue]
  | movement =>
      simp only at hstep
      split at hstep
      · obtain ⟨h, hmove, rfl⟩ := Option.map_eq_some_iff.mp hstep
        refine ⟨hpc, .same (movementStep_processed hmove) ?_⟩
        simp [waiting, Tasks.queue, movementStep_cmdQueue hmove]
      · cases hstep
  | setMovement | moveRelative => cases hcall
  | setMounted mounted =>
      cases hstep
      exact ⟨hpc, .same rfl rfl⟩
  | setLayout layout =>
      cases hstep
      exact ⟨hpc, .same rfl rfl⟩

/-- Looking back to the last disconnect, a step changes nothing of the line. -/
theorem LineStep.since {t t' : Tasks} (h : LineStep t t') (cmds : List ActCmd) :
    since isDisconnected (t'.hid.processed ++ (waiting t' ++ cmds)) =
      since isDisconnected (t.hid.processed ++ (waiting t ++ cmds)) := by
  cases h with
  | same hprocessed hwaiting => rw [hprocessed, hwaiting]
  | flush hprocessed front front' hwaiting hwaiting' =>
      have hmark : ∃ cmd ∈ ActCmd.disconnected :: cmds, isDisconnected cmd = true :=
        ⟨_, List.mem_cons_self, rfl⟩
      rw [hprocessed, hwaiting, hwaiting']
      simpa using since_append_of_mem hmark (t.hid.processed ++ front') (t.hid.processed ++ front)
  | finish cmd hprocessed hwaiting =>
      rw [hprocessed, hwaiting, List.append_assoc]
      rfl

/-- A command is queued as it was given, and only a disconnect flushes. -/
theorem enterCall_cases (act : TusbActuator) (cmd : ActCmd) (now : UInt64) :
    (enterCall act cmd now).2 = .returns ∨
      queued (.act cmd) = some cmd ∧ ((enterCall act cmd now).2 = .sends cmd ∨
        cmd = .disconnected ∧ (enterCall act cmd now).2 = .flushes .disconnected) := by
  cases cmd with
  | keyDown key mask button | keyUp key mask button =>
      simp only [enterCall, actuatorQueueKeyDown, actuatorQueueKeyUp, TusbActuator.queueKey]
      split
      · exact .inl rfl
      · exact .inr ⟨rfl, .inl rfl⟩
  | mouseDown id | mouseUp id =>
      simp only [enterCall, actuatorQueueMouseDown, actuatorQueueMouseUp, TusbActuator.queueButton]
      split
      · exact .inl rfl
      · exact .inr ⟨rfl, .inl rfl⟩
  | mouseWheel dx dy =>
      simp only [enterCall, actuatorQueueMouseWheel]
      split
      · exact .inl rfl
      · exact .inr ⟨rfl, .inl rfl⟩
  | keyRepeat key mask button count => exact .inl rfl
  | disconnected => exact .inr ⟨rfl, .inr ⟨rfl, rfl⟩⟩
  | _ => exact .inr ⟨rfl, .inl rfl⟩

/-- Where a call stands after its first half. -/
def callPc : QueueCall → NetPc
  | .returns => .idle
  | .sends cmd => .sending cmd
  | .flushes cmd => .flushing cmd

theorem deliveryStep_call {d d' : Delivery} {cmd : ActCmd} {now : UInt64}
    (hstep : deliveryStep d (.call cmd now) = some d') :
    d.pc = .idle ∧ d'.act = (enterCall d.act cmd now).1 ∧
      d'.pc = callPc (enterCall d.act cmd now).2 := by
  simp only [deliveryStep] at hstep
  generalize enterCall d.act cmd now = entered at hstep
  obtain ⟨act, call⟩ := entered
  split at hstep
  · next hidle =>
      cases call with
      | returns =>
          cases hstep
          exact ⟨hidle, rfl, hidle⟩
      | sends cmd' | flushes cmd' =>
          cases hstep
          exact ⟨hidle, rfl, rfl⟩
  · cases hstep

/-- A call that is not taken for a duplicate has its command in progress. -/
theorem inCall_callPc {act : TusbActuator} {cmd : ActCmd} {now : UInt64}
    (hnew : ((queued (.act cmd)).any fun cmd => (enterCall act cmd now).2 == .returns) = false) :
    Undumped (callPc (enterCall act cmd now).2) ∧
      inCall (callPc (enterCall act cmd now).2) = (queued (.act cmd)).toList := by
  rcases enterCall_cases act cmd now with hreturns | ⟨hqueued, hsends | ⟨rfl, hflush⟩⟩
  · rw [hreturns]
    refine ⟨trivial, ?_⟩
    cases cmd with
    | keyRepeat key mask button count => rfl
    | _ => simp [queued, hreturns] at hnew
  · rw [hsends, hqueued]
    exact ⟨trivial, rfl⟩
  · rw [hflush]
    exact ⟨rfl, rfl⟩

/-- A call that is not taken for a duplicate puts its command at the end of the line. -/
theorem makeCall_line {t t' : Tasks} {now : UInt64} {e : Event}
    (hnew : takenForDuplicate t now e = false) (hcall : makeCall t now e = some t') :
    Undumped t'.pc ∧ t'.hid.processed = t.hid.processed ∧
      waiting t' = waiting t ++ (queued e).toList := by
  have hmove : ∀ moved : TusbActuator, moved.cmdQueue = t.hid.act.cmdQueue →
      (if t.pc = .idle then some { t with hid := { t.hid with act := moved } } else none) =
        some t' →
      Undumped t'.pc ∧ t'.hid.processed = t.hid.processed ∧ waiting t' = waiting t ++ [] := by
    intro moved hqueue hmoved
    split at hmoved
    · next hidle =>
        cases hmoved
        refine ⟨?_, rfl, ?_⟩
        · rw [hidle]
          trivial
        · simp [waiting, Tasks.queue, hqueue]
    · cases hmoved
  cases e with
  | act cmd =>
      simp only [makeCall, tasksStep, reduceCtorEq, if_false] at hcall
      obtain ⟨d, hd, rfl⟩ := Option.map_eq_some_iff.mp hcall
      obtain ⟨hidle, hact, hpc⟩ := deliveryStep_call hd
      obtain ⟨hundumped, hin⟩ := inCall_callPc hnew
      have hqueue : d.act.cmdQueue = t.hid.act.cmdQueue := by
        rw [hact]
        exact enterCall_cmdQueue t.hid.act cmd now
      have hpc' : t.pc = .idle := hidle
      refine ⟨?_, rfl, ?_⟩
      · change Undumped d.pc
        rw [hpc]
        exact hundumped
      · change t.working.toList ++ d.act.cmdQueue ++ inCall d.pc = _
        rw [hpc, hqueue]
        change _ ++ inCall (callPc (enterCall t.hid.act cmd now).2) = _
        rw [hin, waiting, hpc']
        simp [inCall, Tasks.queue]
  | setMovement x y =>
      exact hmove (actuatorSetMovement t.hid.act x y) (notifyMovement_cmdQueue _) hcall
  | moveRelative dx dy =>
      exact hmove (actuatorMoveRelative t.hid.act dx dy) (notifyMovement_cmdQueue _) hcall
  | _ => cases hcall

/-! ## The line and the calls -/

theorem taskStep_trace {w w' : World} {io : Io} (hstep : taskStep w io = some w') :
    ∃ events, w'.trace = w.trace ++ events := by
  have hlabel : step w (.task io) = some w' := hstep
  cases step_kind hlabel with
  | other events hpc htls hcursor htrace hevents => exact ⟨events, htrace⟩
  | outside events hpc hout hclose => exact ⟨events, hout.trace⟩
  | opens hpc hw' =>
      subst hw'
      exact ⟨_, rfl⟩
  | move events hpc hmove => exact ⟨events, hmove.trace⟩
  | packet pkt err events hpacket =>
      rcases hpacket.next with ⟨-, -, htrace⟩ | ⟨-, -, htrace⟩
      · exact ⟨_, htrace⟩
      · exact ⟨_, htrace⟩
  | closes hpc hpc' htrace hcursor hsettings => exact ⟨_, htrace⟩

theorem envStep_commands {w w' : World} {act : EnvAct} (hstep : envStep w act = some w') :
    commands w'.trace = commands w.trace := by
  obtain ⟨-, -, -, -, events, htrace, hevents⟩ := envStep_frame hstep
  have hnone : events.filterMap queued = [] := by
    refine List.filterMap_eq_nil_iff.mpr fun e he => ?_
    obtain ⟨v, -, rfl⟩ := hevents e he
    rfl
  rw [commands, htrace, List.filterMap_append, hnone, List.append_nil]
  rfl

/-- Only calls queue commands. -/
theorem filterMap_queued_filter (events : List Event) :
    (events.filter isCall).filterMap queued = events.filterMap queued := by
  rw [List.filterMap_filter]
  refine List.filterMap_congr fun e _ => ?_
  cases e <;> rfl

/-- The commands in line are those of the calls, back to the last call for a disconnect. -/
structure LineInv (d : Firmware) : Prop where
  undumped : d.undisturbed = true → Undumped d.tasks.pc
  line : d.undisturbed = true →
    since isDisconnected d.line = since isDisconnected (commands d.world.trace)

/-- What a step of the client task does, as far as its calls go. -/
theorem clientStep_spec {d : Firmware} {io : Io} {w : World} (hreturned : d.returned = true)
    (hstep : taskStep d.world io = some w) :
    ∃ cmds, commands w.trace = commands d.world.trace ++ cmds ∧ d.tasks.pc = .idle ∧
      (d.clientStep io w).pending = d.pending ++ cmds ∧
      (d.clientStep io w).undisturbed = (d.undisturbed || cmds.contains .disconnected) := by
  obtain ⟨events, htrace⟩ := taskStep_trace hstep
  simp only [Firmware.returned, Bool.and_eq_true, List.isEmpty_iff, decide_eq_true_eq] at hreturned
  obtain ⟨⟨htodo, hidle⟩, -⟩ := hreturned
  have hdrop : w.trace.drop d.world.trace.length = events := by
    rw [htrace, List.drop_left]
  refine ⟨events.filterMap queued, ?_, hidle, ?_, ?_⟩
  · rw [htrace, commands, List.filterMap_append]
    rfl
  · simp [Firmware.clientStep, Firmware.pending, hdrop, htodo, filterMap_queued_filter]
  · simp [Firmware.clientStep, hdrop]

theorem firmwareStep_lineInv {d d' : Firmware} {label : FirmwareLabel} (h : LineInv d)
    (hstep : firmwareStep d label = some d') : LineInv d' := by
  unfold firmwareStep at hstep
  cases label with
  | client io =>
      simp only at hstep
      split at hstep
      · next hreturned =>
          obtain ⟨w, hw, rfl⟩ := Option.map_eq_some_iff.mp hstep
          obtain ⟨cmds, hcommands, hidle, hpending, hclean⟩ := clientStep_spec hreturned hw
          refine ⟨fun _ => ?_, fun hundisturbed => ?_⟩
          · change Undumped d.tasks.pc
            rw [hidle]
            trivial
          · change since isDisconnected (d.tasks.hid.processed ++ (d.clientStep io w).pending) =
              since isDisconnected (commands w.trace)
            rw [hpending, hcommands, ← List.append_assoc]
            rw [hclean, Bool.or_eq_true, List.contains_iff_mem] at hundisturbed
            rcases hundisturbed with hbefore | hmem
            · exact since_append_congr (h.line hbefore) cmds
            · exact since_append_of_mem ⟨_, hmem, rfl⟩ _ _
      · cases hstep
  | outside act =>
      obtain ⟨w, hw, rfl⟩ := Option.map_eq_some_iff.mp hstep
      exact ⟨h.undumped, fun hundisturbed => (h.line hundisturbed).trans
        (congrArg (since isDisconnected) (envStep_commands hw)).symm⟩
  | call now =>
      simp only at hstep
      split at hstep
      · cases hstep
      · next e rest htodo =>
          obtain ⟨t, hcall, rfl⟩ := Option.map_eq_some_iff.mp hstep
          have hsplit : ∀ {b : Bool}, (d.undisturbed && !b) = true →
              d.undisturbed = true ∧ b = false := by simp
          refine ⟨fun hundisturbed => ?_, fun hundisturbed => ?_⟩
          · exact (makeCall_line (hsplit hundisturbed).2 hcall).1
          · obtain ⟨hbefore, hnew⟩ := hsplit hundisturbed
            obtain ⟨-, hprocessed, hwaiting⟩ := makeCall_line hnew hcall
            refine Eq.trans (congrArg (since isDisconnected) ?_) (h.line hbefore)
            simp only [Firmware.line, Firmware.pending, hprocessed, hwaiting, htodo]
            cases hq : queued e <;> simp [hq]
  | tasks label =>
      simp only at hstep
      split at hstep
      · cases hstep
      · next hcall =>
          obtain ⟨t, ht, rfl⟩ := Option.map_eq_some_iff.mp hstep
          have hsplit : (d.undisturbed && !disturbs d.tasks label) = true →
              d.undisturbed = true ∧ disturbs d.tasks label = false := by simp
          have hline : (d.undisturbed && !disturbs d.tasks label) = true →
              Undumped t.pc ∧ LineStep d.tasks t := by
            intro hundisturbed
            obtain ⟨hbefore, hquiet⟩ := hsplit hundisturbed
            exact tasksStep_line (h.undumped hbefore) (by simpa using hcall) hquiet ht
          refine ⟨fun hundisturbed => (hline hundisturbed).1, fun hundisturbed => ?_⟩
          exact ((hline hundisturbed).2.since _).trans (h.line (hsplit hundisturbed).1)

theorem lineInv_boot (cfg : DeskflowConfig) (networkEvents : Bool) (layout : KeyboardLayout)
    (mounted : Bool) (answers : List Bool) :
    LineInv (Firmware.boot cfg networkEvents layout mounted answers) :=
  ⟨fun _ => trivial, fun _ => rfl⟩

end Esp32Deskflow.Device
