/-
  Tusb/Tasks.lean --- the network task and `hid_task` on one actuator.

  The network task's calls are taken apart at the queue as in `Delivery`.  The HID task
  receives a command in one step and is through with it in another one, since it may be
  blocked in between; the device is mounted or not, as the host likes.

  The flush loop of a disconnect leaves nothing behind: the next command that anyone
  takes out of the queue is the DISCONNECTED of that call.
-/
import Esp32Deskflow.Tusb.Delivery
import Esp32Deskflow.Tusb.Pointer

set_option autoImplicit false

namespace Esp32Deskflow.Tusb

open Esp32Deskflow.Foundation Esp32Deskflow.Foundation.Transition

/-! ## The two tasks -/

/-- The HID task and the network task, with the history of the queue. -/
structure Tasks where
  hid : Hid
  /-- where the network task stands in an `actuator_queue_*` call -/
  pc : NetPc
  result : EspErr
  /-- the commands put into the queue -/
  accepted : List ActCmd
  /-- the commands taken out of the queue, and by whom -/
  taken : List (ActCmd × Taker)
  /-- the command that `hid_task` has received and is not through with -/
  working : Option ActCmd
  /-- the commands `hid_task` is through with, and whether `tud_mounted` held -/
  finished : List (ActCmd × Bool)

/-- The part of the state that the queue calls work on. -/
def Tasks.delivery (t : Tasks) : Delivery where
  act := t.hid.act
  pc := t.pc
  result := t.result
  accepted := t.accepted
  taken := t.taken

/-- The commands waiting in the queue. -/
def Tasks.queue (t : Tasks) : List ActCmd := t.hid.act.cmdQueue

/-- The state after an access of the network task. -/
def Tasks.withDelivery (t : Tasks) (d : Delivery) : Tasks :=
  { t with
    hid := { t.hid with act := d.act }
    pc := d.pc
    result := d.result
    accepted := d.accepted
    taken := d.taken }

/-- Who moves, and what the outside decides. -/
inductive TasksLabel where
  /-- an access of the network task to the queue -/
  | net (label : DeliveryLabel)
  /-- `hid_task`: `xQueueReceive` -/
  | receive
  /-- `hid_task`: the check of `tud_mounted` and the `switch` -/
  | finish
  /-- `hid_task`: the movement part of an iteration -/
  | movement
  /-- the network task: `actuator_set_movement` -/
  | setMovement (x y : UInt16)
  /-- the network task: `actuator_move_relative` -/
  | moveRelative (dx dy : Int16)
  /-- the host mounts or unmounts the device -/
  | setMounted (mounted : Bool)
  /-- `keycodes_set_layout` -/
  | setLayout (layout : UInt8)
  deriving DecidableEq, Repr

/-- `hid_task` receives the command at the head of the queue, if there is one. -/
def Tasks.receive (t : Tasks) : Tasks :=
  match t.hid.act.xQueueReceive with
  | none => t
  | some (cmd, act) =>
      { t with
        hid := { t.hid with act := act }
        taken := t.taken ++ [(cmd, .hid)]
        working := some cmd }

/-- `hid_task` drops the received command if the device is not mounted, and processes it
otherwise. -/
def Tasks.finish (t : Tasks) (cmd : ActCmd) : Option Tasks :=
  let t' := { t with working := none, finished := t.finished ++ [(cmd, t.hid.mounted)] }
  if t.hid.mounted then
    ({ t.hid with processed := t.hid.processed ++ [cmd] }.processCommand cmd).map fun h =>
      { t' with hid := h }
  else some t'

/-- One step, if it is possible. -/
def tasksStep (t : Tasks) : TasksLabel → Option Tasks
  | .net label =>
      if label = .hidReceive then none
      else (deliveryStep t.delivery label).map t.withDelivery
  | .receive => if t.working = none then some t.receive else none
  | .finish => t.working.bind t.finish
  | .movement =>
      if t.working = none then t.hid.movementStep.map fun h => { t with hid := h } else none
  | .setMovement x y =>
      if t.pc = .idle then
        some { t with hid := { t.hid with act := actuatorSetMovement t.hid.act x y } }
      else none
  | .moveRelative dx dy =>
      if t.pc = .idle then
        some { t with hid := { t.hid with act := actuatorMoveRelative t.hid.act dx dy } }
      else none
  | .setMounted mounted => some { t with hid := { t.hid with mounted := mounted } }
  | .setLayout layout =>
      some { t with hid := { t.hid with layout := keycodesSetLayout t.hid.layout layout } }

/-- After `tusb_actuator_init`, with a script of answers of `tud_hid_report`. -/
def Tasks.init (screenWidth screenHeight : UInt16) (layout : KeyboardLayout) (mounted : Bool)
    (answers : List Bool) : Tasks where
  hid := Hid.init screenWidth screenHeight layout mounted answers
  pc := .idle
  result := .ok
  accepted := []
  taken := []
  working := none
  finished := []

/-! ## What a step does to the queue -/

theorem notifyMovement_cmdQueue (act : TusbActuator) :
    act.notifyMovement.cmdQueue = act.cmdQueue := by
  unfold TusbActuator.notifyMovement
  split <;> rfl

theorem SendFrame.cmdQueue {h h' : Hid} (hframe : SendFrame h h') :
    h'.act.cmdQueue = h.act.cmdQueue := hframe.sameTarget.queue

/-- Processing a command does not touch the queue. -/
theorem processCommand_cmdQueue {h h' : Hid} {cmd : ActCmd}
    (hp : h.processCommand cmd = some h') : h'.act.cmdQueue = h.act.cmdQueue := by
  cases cmd with
  | keyDown key mask button =>
      obtain ⟨keys, count, htrack⟩ := trackKeyDown_frame h.act key
      exact (sendKbReport_frame hp).cmdQueue.trans (congrArg TusbActuator.cmdQueue htrack :)
  | keyUp key mask button =>
      obtain ⟨keys, count, htrack⟩ := trackKeyUp_frame h.act key
      exact (sendKbReport_frame hp).cmdQueue.trans (congrArg TusbActuator.cmdQueue htrack :)
  | keyRepeat key mask button count =>
      cases hp
      rfl
  | mouseDown id => exact (sendAbsMouseRetry_frame hp).cmdQueue
  | mouseUp id => exact (sendAbsMouseRetry_frame hp).cmdQueue
  | mouseWheel dx dy => exact (sendAbsMouseRetry_frame hp).cmdQueue
  | enter x y mask =>
      obtain ⟨m, hm, hrest⟩ := Option.bind_eq_some_iff.mp hp
      have hfirst := (sendAbsMouseOnce_frame hm).cmdQueue
      split at hrest
      · exact (sendKbReport_frame hrest).cmdQueue.trans hfirst
      · cases hrest
        exact hfirst
  | leave =>
      obtain ⟨m, hm, hrest⟩ := Option.bind_eq_some_iff.mp hp
      have hfirst := (sendKbReport_frame hm).cmdQueue
      exact (sendAbsMouseOnce_frame hrest).cmdQueue.trans hfirst
  | jiggle =>
      obtain ⟨m, hm, hrest⟩ := Option.bind_eq_some_iff.mp hp
      have hfirst := (sendAbsMouseOnce_frame hm).cmdQueue
      exact (sendAbsMouseOnce_frame hrest).cmdQueue.trans hfirst
  | connected =>
      cases hp
      rfl
  | disconnected =>
      cases hp
      rfl
  | setScreenSize w ht =>
      cases hp
      rfl
  | setScaling scaling =>
      cases hp
      rfl

theorem movementStep_cmdQueue {h h' : Hid} (hstep : h.movementStep = some h') :
    h'.act.cmdQueue = h.act.cmdQueue := (movementStep_sameTarget hstep).queue

/-- `hid_task` takes at most the first command, and knows nothing of the network task. -/
def HidAtQueue (t t' : Tasks) : Prop :=
  t'.pc = t.pc ∧ t'.accepted = t.accepted ∧
    ((t'.queue = t.queue ∧ t'.taken = t.taken) ∨
      ∃ cmd, t.queue = cmd :: t'.queue ∧ t'.taken = t.taken ++ [(cmd, .hid)])

/-- A step is an access of the network task to the queue, or no concern of its own. -/
theorem tasksStep_queue {t t' : Tasks} {label : TasksLabel}
    (hstep : tasksStep t label = some t') :
    (∃ l, deliveryStep t.delivery l = some t'.delivery) ∨ HidAtQueue t t' := by
  unfold tasksStep at hstep
  cases label with
  | net l =>
      simp only at hstep
      split at hstep
      · cases hstep
      · obtain ⟨d, hd, rfl⟩ := Option.map_eq_some_iff.mp hstep
        exact Or.inl ⟨l, hd⟩
  | receive =>
      refine Or.inr ?_
      simp only at hstep
      split at hstep
      · cases hstep
        unfold Tasks.receive
        split
        · exact ⟨rfl, rfl, Or.inl ⟨rfl, rfl⟩⟩
        · next cmd act hreceive =>
            obtain ⟨rest, hqueue, rfl⟩ := xQueueReceive_spec hreceive
            exact ⟨rfl, rfl, Or.inr ⟨cmd, hqueue, rfl⟩⟩
      · cases hstep
  | finish =>
      refine Or.inr ?_
      obtain ⟨cmd, _, hfinish⟩ := Option.bind_eq_some_iff.mp hstep
      unfold Tasks.finish at hfinish
      simp only at hfinish
      split at hfinish
      · obtain ⟨h, hp, rfl⟩ := Option.map_eq_some_iff.mp hfinish
        have hqueue := processCommand_cmdQueue hp
        exact ⟨rfl, rfl, Or.inl ⟨hqueue, rfl⟩⟩
      · cases hfinish
        exact ⟨rfl, rfl, Or.inl ⟨rfl, rfl⟩⟩
  | movement =>
      refine Or.inr ?_
      simp only at hstep
      split at hstep
      · obtain ⟨h, hmove, rfl⟩ := Option.map_eq_some_iff.mp hstep
        exact ⟨rfl, rfl, Or.inl ⟨movementStep_cmdQueue hmove, rfl⟩⟩
      · cases hstep
  | setMovement x y =>
      refine Or.inr ?_
      simp only at hstep
      split at hstep
      · cases hstep
        exact ⟨rfl, rfl, Or.inl ⟨notifyMovement_cmdQueue _, rfl⟩⟩
      · cases hstep
  | moveRelative dx dy =>
      refine Or.inr ?_
      simp only at hstep
      split at hstep
      · cases hstep
        exact ⟨rfl, rfl, Or.inl ⟨notifyMovement_cmdQueue _, rfl⟩⟩
      · cases hstep
  | setMounted mounted =>
      cases hstep
      exact Or.inr ⟨rfl, rfl, Or.inl ⟨rfl, rfl⟩⟩
  | setLayout layout =>
      cases hstep
      exact Or.inr ⟨rfl, rfl, Or.inl ⟨rfl, rfl⟩⟩

/-! ## After the flush of a disconnect -/

/-- What holds from the state `t₁` on in which the flush loop has found the queue empty: the
DISCONNECTED is still to be sent, or it comes before everything that is sent later. -/
def FlushInv (t₁ t : Tasks) : Prop :=
  (t.queue = [] ∧ t.pc = .sending .disconnected ∧ t.accepted = t₁.accepted ∧
      t.taken = t₁.taken) ∨
    ∃ later newTaken, t.accepted = t₁.accepted ++ .disconnected :: later ∧
      t.taken = t₁.taken ++ newTaken ∧
      newTaken.map Prod.fst ++ t.queue = .disconnected :: later

/-- What `t₂` shows of the call whose flush loop has found the queue empty in `t₁`: its
DISCONNECTED is still to be sent, and the call cannot give up; or it is the first command that
was taken out of the queue since, whoever took it, and all others are of later calls. -/
def DisconnectedFirst (t₁ t₂ : Tasks) : Prop :=
  (t₂.accepted = t₁.accepted ∧ t₂.taken = t₁.taken ∧
      tasksStep t₂ (.net .sendTimeout) = none ∧
      ∃ t₃, tasksStep t₂ (.net .send) = some t₃ ∧ t₃.result = .ok ∧
        t₃.accepted = t₁.accepted ++ [.disconnected]) ∨
    ∃ later newTaken, t₂.accepted = t₁.accepted ++ .disconnected :: later ∧
      t₂.taken = t₁.taken ++ newTaken ∧
      (newTaken = [] ∨ ∃ taker rest, newTaken = (.disconnected, taker) :: rest ∧
        rest.map Prod.fst <+: later)

/-- When `hid_task` is through with a DISCONNECTED, no key and no button is held. -/
def ReleasesAll (t : Tasks) : Prop :=
  t.working = some .disconnected → t.hid.mounted = true →
    ∃ t', tasksStep t .finish = some t' ∧ t'.hid.act.keyCount = 0 ∧ t'.hid.act.tracked = [] ∧
      t'.hid.act.mouseButtons = 0

/-- Before the DISCONNECTED is sent, sending it is all that the network task can do. -/
theorem deliveryStep_sending {d d' : Delivery} {label : DeliveryLabel}
    (hpc : d.pc = .sending .disconnected) (hempty : d.act.cmdQueue = [])
    (hstep : deliveryStep d label = some d') :
    (d'.pc = d.pc ∧ d'.accepted = d.accepted ∧ d'.taken = d.taken ∧ d'.act = d.act) ∨
      (d'.act.cmdQueue = [.disconnected] ∧ d'.accepted = d.accepted ++ [.disconnected] ∧
        d'.taken = d.taken) := by
  have hroom : d.act.xQueueSend .disconnected =
      some { d.act with cmdQueue := d.act.cmdQueue ++ [.disconnected] } := by
    unfold TusbActuator.xQueueSend
    rw [hempty, if_pos (by decide)]
  have hnone : d.act.xQueueReceive = none := by
    unfold TusbActuator.xQueueReceive
    rw [hempty]
  cases label with
  | call cmd now => simp [deliveryStep, hpc] at hstep
  | send =>
      simp only [deliveryStep, hpc, hroom, Option.map_some, Option.some.injEq] at hstep
      subst hstep
      refine Or.inr ⟨?_, rfl, rfl⟩
      rw [hempty]
      rfl
  | sendTimeout => simp [deliveryStep, hpc, hroom] at hstep
  | flush => simp [deliveryStep, hpc] at hstep
  | readDepth => simp [deliveryStep, hpc] at hstep
  | dump => simp [deliveryStep, hpc] at hstep
  | hidReceive =>
      simp only [deliveryStep, hnone, Option.some.injEq] at hstep
      subst hstep
      exact Or.inl ⟨rfl, rfl, rfl, rfl⟩

theorem tasksStep_flushInv {t₁ : Tasks} (t : Tasks) (label : TasksLabel) (t' : Tasks)
    (hinv : FlushInv t₁ t) (hstep : tasksStep t label = some t') : FlushInv t₁ t' := by
  rcases hinv with ⟨hempty, hpc, haccepted, htaken⟩ |
    ⟨later, newTaken, haccepted, htaken, hwaiting⟩
  · rcases tasksStep_queue hstep with ⟨l, hl⟩ | ⟨hpc', haccepted', hqueue⟩
    · rcases deliveryStep_sending hpc hempty hl with ⟨hpc', ha, hk, hact⟩ | ⟨hq, ha, hk⟩
      · refine Or.inl ⟨?_, hpc'.trans hpc, ha.trans haccepted, hk.trans htaken⟩
        exact (congrArg TusbActuator.cmdQueue hact).trans hempty
      · refine Or.inr ⟨[], [], ?_, ?_, hq⟩
        · rw [← haccepted]
          exact ha
        · rw [List.append_nil, ← htaken]
          exact hk
    · rcases hqueue with ⟨hq, hk⟩ | ⟨cmd, hq, _⟩
      · exact Or.inl ⟨hq.trans hempty, hpc'.trans hpc, haccepted'.trans haccepted,
          hk.trans htaken⟩
      · rw [hempty] at hq
        cases hq
  · have hkeep : t'.accepted = t.accepted → t'.queue = t.queue → t'.taken = t.taken →
        FlushInv t₁ t' := by
      intro ha hq hk
      exact Or.inr ⟨later, newTaken, ha.trans haccepted, hk.trans htaken, by rw [hq, hwaiting]⟩
    have htake : ∀ cmd taker, t'.accepted = t.accepted → t.queue = cmd :: t'.queue →
        t'.taken = t.taken ++ [(cmd, taker)] → FlushInv t₁ t' := by
      intro cmd taker ha hq hk
      refine Or.inr ⟨later, newTaken ++ [(cmd, taker)], ha.trans haccepted, ?_, ?_⟩
      · rw [hk, htaken, List.append_assoc]
      · rw [← hwaiting, hq, List.map_append, List.append_assoc]
        rfl
    rcases tasksStep_queue hstep with ⟨l, hl⟩ | ⟨_, ha, hqueue⟩
    · rcases deliveryStep_cases hl with ⟨hq, ha, hk, _⟩ | ⟨cmd, hq, ha, hk, _⟩ |
          ⟨cmd, taker, hq, ha, hk, _⟩
      · exact hkeep ha hq hk
      · refine Or.inr ⟨later ++ [cmd], newTaken, ?_, hk.trans htaken, ?_⟩
        · have ha' : t'.accepted = t.accepted ++ [cmd] := ha
          rw [ha', haccepted, List.append_assoc, List.cons_append]
        · have hq' : t'.queue = t.queue ++ [cmd] := hq
          rw [hq', ← List.append_assoc, hwaiting, List.cons_append]
      · exact htake cmd taker ha hq hk
    · rcases hqueue with ⟨hq, hk⟩ | ⟨cmd, hq, hk⟩
      · exact hkeep ha hq hk
      · exact htake cmd .hid ha hq hk

/-- Of a command that waits to be sent into an empty queue: it is accepted, and the call
cannot give up. -/
theorem send_of_empty {t : Tasks} (hempty : t.queue = []) (hpc : t.pc = .sending .disconnected) :
    tasksStep t (.net .sendTimeout) = none ∧
      ∃ t', tasksStep t (.net .send) = some t' ∧ t'.result = .ok ∧
        t'.accepted = t.accepted ++ [.disconnected] := by
  have hroom : t.delivery.act.xQueueSend .disconnected =
      some { t.hid.act with cmdQueue := [.disconnected] } := by
    have hqueue : t.hid.act.cmdQueue = [] := hempty
    unfold TusbActuator.xQueueSend Tasks.delivery
    rw [hqueue, if_pos (by decide)]
    rfl
  have hpc' : t.delivery.pc = .sending .disconnected := hpc
  have hsend : tasksStep t (.net .send) = some (t.withDelivery { t.delivery with
      act := { t.hid.act with cmdQueue := [.disconnected] }
      pc := .idle
      result := .ok
      accepted := t.accepted ++ [.disconnected] }) := by
    simp only [tasksStep, deliveryStep, hpc', hroom, reduceCtorEq, if_false, Option.map_some]
    rfl
  refine ⟨?_, _, hsend, rfl, rfl⟩
  simp [tasksStep, deliveryStep, hpc', hroom]

theorem releasesAll (t : Tasks) : ReleasesAll t := by
  intro hworking hmounted
  have hstep : tasksStep t .finish = some { t with
      hid := { t.hid with
        act := { t.hid.act.clearKeys with mouseButtons := 0, mouseWheel := 0 }
        processed := t.hid.processed ++ [.disconnected] }
      working := none
      finished := t.finished ++ [(.disconnected, t.hid.mounted)] } := by
    simp only [tasksStep, hworking, Option.bind_some, Tasks.finish, hmounted, if_true]
    rfl
  exact ⟨_, hstep, rfl, rfl, rfl⟩

/-- From the moment the flush loop of a disconnect has found the queue empty, its DISCONNECTED
is the first command that is taken out of the queue. -/
theorem disconnected_first {t₀ t₁ t₂ : Tasks} {labels : List TasksLabel}
    (hpc : t₀.pc = .flushing .disconnected) (hempty : t₀.queue = [])
    (hflush : tasksStep t₀ (.net .flush) = some t₁) (hrun : run tasksStep t₁ labels = some t₂) :
    DisconnectedFirst t₁ t₂ ∧ ReleasesAll t₂ := by
  refine ⟨?_, releasesAll t₂⟩
  have hstart : FlushInv t₁ t₁ := by
    have hnone : t₀.hid.act.xQueueReceive = none := by
      have hqueue : t₀.hid.act.cmdQueue = [] := hempty
      unfold TusbActuator.xQueueReceive
      rw [hqueue]
    simp only [tasksStep, deliveryStep, Tasks.delivery, hpc, hnone, reduceCtorEq, if_false,
      Option.map_some, Option.some.injEq] at hflush
    subst hflush
    exact Or.inl ⟨hempty, rfl, rfl, rfl⟩
  rcases run_invariant tasksStep_flushInv hstart hrun with
    ⟨hempty₂, hpc₂, haccepted, htaken⟩ | ⟨later, newTaken, haccepted, htaken, hwaiting⟩
  · obtain ⟨htimeout, t₃, hsend, hok, haccepted₃⟩ := send_of_empty hempty₂ hpc₂
    rw [haccepted] at haccepted₃
    exact Or.inl ⟨haccepted, htaken, htimeout, t₃, hsend, hok, haccepted₃⟩
  · refine Or.inr ⟨later, newTaken, haccepted, htaken, ?_⟩
    cases newTaken with
    | nil => exact Or.inl rfl
    | cons first rest =>
        obtain ⟨cmd, taker⟩ := first
        rw [List.map_cons, List.cons_append] at hwaiting
        obtain ⟨rfl, hrest⟩ := List.cons.inj hwaiting
        exact Or.inr ⟨taker, rest, rfl, t₂.queue, hrest⟩

/-- A run up to the flush access of a disconnect, that access, and a run from there. -/
def runThroughFlush {α : Type} (t : Tasks) (before after : List TasksLabel)
    (view : Tasks → Tasks → Tasks → α) : Option α :=
  (run tasksStep t before).bind fun t₀ =>
    (tasksStep t₀ (.net .flush)).bind fun t₁ => (run tasksStep t₁ after).map (view t₀ t₁)

theorem runThroughFlush_spec {α : Type} {t : Tasks} {before after : List TasksLabel}
    {view : Tasks → Tasks → Tasks → α} {a : α} (h : runThroughFlush t before after view = some a) :
    ∃ t₀ t₁ t₂, run tasksStep t before = some t₀ ∧ tasksStep t₀ (.net .flush) = some t₁ ∧
      run tasksStep t₁ after = some t₂ ∧ view t₀ t₁ t₂ = a := by
  obtain ⟨t₀, h₀, h⟩ := Option.bind_eq_some_iff.mp h
  obtain ⟨t₁, h₁, h⟩ := Option.bind_eq_some_iff.mp h
  obtain ⟨t₂, h₂, h⟩ := Option.map_eq_some_iff.mp h
  exact ⟨t₀, t₁, t₂, h₀, h₁, h₂, h⟩

/-- A key goes down, `hid_task` is busy with it, and the session ends. -/
def busyThenDisconnect : List TasksLabel :=
  [.net (.call (.keyDown 0x61 0 0) 1000), .net .send, .receive, .net (.call .disconnected 1000)]

theorem disconnected_first_busy :
    ∃ t₀ t₁ t₂, run tasksStep (Tasks.init 1920 1080 .us true [true]) busyThenDisconnect = some t₀ ∧
      tasksStep t₀ (.net .flush) = some t₁ ∧
      run tasksStep t₁ [.net .send, .finish, .receive] = some t₂ ∧
      t₁.working = some (.keyDown 0x61 0 0) ∧ t₂.working = some .disconnected ∧
      DisconnectedFirst t₁ t₂ ∧ ReleasesAll t₂ := by
  have hview : runThroughFlush (Tasks.init 1920 1080 .us true [true]) busyThenDisconnect
      [.net .send, .finish, .receive]
      (fun t₀ t₁ t₂ => (t₀.pc, t₀.queue, t₁.working, t₂.working)) =
      some (.flushing .disconnected, [], some (.keyDown 0x61 0 0), some .disconnected) := by
    decide +kernel
  obtain ⟨t₀, t₁, t₂, h₀, h₁, h₂, hends⟩ := runThroughFlush_spec hview
  simp only [Prod.mk.injEq] at hends
  obtain ⟨hpc, hempty, hbusy, hworking⟩ := hends
  exact ⟨t₀, t₁, t₂, h₀, h₁, h₂, hbusy, hworking, disconnected_first hpc hempty h₁ h₂⟩

/-- After a flushed disconnect, a key goes down and the session ends again: the flush loop
takes the DISCONNECTED, and `hid_task` receives the KEY_DOWN behind it. -/
def flushedDisconnect : List TasksLabel :=
  [.net .send, .net (.call (.keyDown 0x61 0 0) 2000), .net .send,
    .net (.call .disconnected 3000), .net .flush, .receive]

theorem disconnected_not_first :
    ∃ t₀ t₁ t₂, run tasksStep (Tasks.init 1920 1080 .us true [])
        [.net (.call .disconnected 1000)] = some t₀ ∧
      tasksStep t₀ (.net .flush) = some t₁ ∧ run tasksStep t₁ flushedDisconnect = some t₂ ∧
      t₀.pc = .flushing .disconnected ∧ t₀.queue = [] ∧ t₁.taken = [] ∧
      t₂.taken = [(.disconnected, .flush), (.keyDown 0x61 0 0, .hid)] := by
  have hview : runThroughFlush (Tasks.init 1920 1080 .us true [])
      [.net (.call .disconnected 1000)] flushedDisconnect
      (fun t₀ t₁ t₂ => (t₀.pc, t₀.queue, t₁.taken, t₂.taken)) =
      some (.flushing .disconnected, [], [],
        [(.disconnected, .flush), (.keyDown 0x61 0 0, .hid)]) := by
    rfl
  obtain ⟨t₀, t₁, t₂, h₀, h₁, h₂, hends⟩ := runThroughFlush_spec hview
  simp only [Prod.mk.injEq] at hends
  exact ⟨t₀, t₁, t₂, h₀, h₁, h₂, hends⟩

end Esp32Deskflow.Tusb
