/-
  Tusb/Unmounted.lean --- what the commands leave on the device when the host mounts and
  unmounts it at will.

  `hid_task` drops what it receives while the device is not mounted, so screen size,
  scaling, keys and buttons follow the commands that it received while mounted.
-/
import Esp32Deskflow.Tusb.Tasks

set_option autoImplicit false

namespace Esp32Deskflow.Tusb

open Esp32Deskflow.Foundation Esp32Deskflow.Foundation.Transition

/-! ## What the commands ask for -/

/-- The screen size after the SET_SCREEN_SIZE commands. -/
def screenAfter (screen : UInt16 × UInt16) (cmds : List ActCmd) : UInt16 × UInt16 :=
  cmds.foldl
    (fun screen cmd =>
      match cmd with
      | .setScreenSize w h => (w, h)
      | _ => screen)
    screen

/-- The scaling after the SET_SCALING commands. -/
def scalingAfter (scaling : UInt16) (cmds : List ActCmd) : UInt16 :=
  cmds.foldl
    (fun scaling cmd =>
      match cmd with
      | .setScaling s => s
      | _ => scaling)
    scaling

theorem screenAfter_append (screen : UInt16 × UInt16) (cmds cmds' : List ActCmd) :
    screenAfter screen (cmds ++ cmds') = screenAfter (screenAfter screen cmds) cmds' :=
  List.foldl_append

theorem scalingAfter_append (scaling : UInt16) (cmds cmds' : List ActCmd) :
    scalingAfter scaling (cmds ++ cmds') = scalingAfter (scalingAfter scaling cmds) cmds' :=
  List.foldl_append

/-- The commands that press or release keys and buttons. -/
def ActCmd.pressesOrReleases : ActCmd → Bool
  | .keyDown _ _ _ | .keyUp _ _ _ | .mouseDown _ | .mouseUp _ | .leave | .disconnected => true
  | _ => false

/-- The last command that pressed or released. -/
def lastPress (cmds : List ActCmd) : Option ActCmd :=
  (cmds.filter ActCmd.pressesOrReleases).getLast?

/-- What a command does to screen, scaling, keys and buttons. -/
def TusbActuator.deviceCommand (act : TusbActuator) : ActCmd → TusbActuator
  | .keyDown key _ _ => act.trackKeyDown key
  | .keyUp key _ _ => act.trackKeyUp key
  | .mouseDown id => { act with mouseButtons := act.mouseButtons ||| barrierButtonToHid id }
  | .mouseUp id => { act with mouseButtons := act.mouseButtons &&& ~~~ barrierButtonToHid id }
  | .leave => { act.clearKeys with mouseButtons := 0 }
  | .disconnected => { act.clearKeys with mouseButtons := 0 }
  | .setScreenSize w h => { act with screenWidth := w, screenHeight := h }
  | .setScaling scaling => { act with scaling := scaling }
  | _ => act

/-! ## Screen, scaling, keys and buttons -/

/-- Two actuators with the same screen, scaling, number of keys and buttons. -/
structure SameDevice (act act' : TusbActuator) : Prop where
  width : act'.screenWidth = act.screenWidth
  height : act'.screenHeight = act.screenHeight
  scaling : act'.scaling = act.scaling
  count : act'.keyCount = act.keyCount
  buttons : act'.mouseButtons = act.mouseButtons

theorem SameDevice.refl (act : TusbActuator) : SameDevice act act := ⟨rfl, rfl, rfl, rfl, rfl⟩

theorem SameDevice.trans {act₁ act₂ act₃ : TusbActuator} (h : SameDevice act₁ act₂)
    (h' : SameDevice act₂ act₃) : SameDevice act₁ act₃ :=
  ⟨h'.width.trans h.width, h'.height.trans h.height, h'.scaling.trans h.scaling,
    h'.count.trans h.count, h'.buttons.trans h.buttons⟩

theorem SendFrame.sameDevice {h h' : Hid} (hframe : SendFrame h h') :
    SameDevice h.act h'.act := by
  obtain ⟨hx, hy, buttons, wheel, hact⟩ := hframe.act
  rw [hact]
  exact ⟨rfl, rfl, rfl, rfl, rfl⟩

theorem notifyMovement_sameDevice (act : TusbActuator) : SameDevice act act.notifyMovement := by
  unfold TusbActuator.notifyMovement
  split
  · exact ⟨rfl, rfl, rfl, rfl, rfl⟩
  · exact .refl act

theorem movementStep_sameDevice {h h' : Hid} (hstep : h.movementStep = some h') :
    SameDevice h.act h'.act ∧ h'.processed = h.processed := by
  unfold Hid.movementStep at hstep
  split at hstep
  · split at hstep
    · have hframe := sendAbsMouseOnce_frame hstep
      have hsame := hframe.sameDevice
      exact ⟨⟨hsame.width, hsame.height, hsame.scaling, hsame.count, hsame.buttons⟩,
        hframe.processed⟩
    · cases hstep
      exact ⟨⟨rfl, rfl, rfl, rfl, rfl⟩, rfl⟩
  · cases hstep
    exact ⟨.refl _, rfl⟩

/-- The sends around a command do not count. -/
theorem processCommand_device {h h' : Hid} {cmd : ActCmd} (hp : h.processCommand cmd = some h') :
    SameDevice (h.act.deviceCommand cmd) h'.act := by
  cases cmd with
  | keyDown key mask button => exact (sendKbReport_frame hp).sameDevice
  | keyUp key mask button => exact (sendKbReport_frame hp).sameDevice
  | keyRepeat key mask button count =>
      cases hp
      exact .refl _
  | mouseDown id => exact (sendAbsMouseRetry_frame hp).sameDevice
  | mouseUp id => exact (sendAbsMouseRetry_frame hp).sameDevice
  | mouseWheel dx dy =>
      have hsame := (sendAbsMouseRetry_frame hp).sameDevice
      exact ⟨hsame.width, hsame.height, hsame.scaling, hsame.count, hsame.buttons⟩
  | enter x y mask =>
      obtain ⟨m, hm, hrest⟩ := Option.bind_eq_some_iff.mp hp
      have hsame := (sendAbsMouseOnce_frame hm).sameDevice
      have hfirst : SameDevice h.act m.act :=
        ⟨hsame.width, hsame.height, hsame.scaling, hsame.count, hsame.buttons⟩
      split at hrest
      · exact hfirst.trans (sendKbReport_frame hrest).sameDevice
      · cases hrest
        exact hfirst
  | leave =>
      obtain ⟨m, hm, hrest⟩ := Option.bind_eq_some_iff.mp hp
      have hfirst := (sendKbReport_frame hm).sameDevice
      have hlast := (sendAbsMouseOnce_frame hrest).sameDevice
      exact ⟨hlast.width.trans hfirst.width, hlast.height.trans hfirst.height,
        hlast.scaling.trans hfirst.scaling, hlast.count.trans hfirst.count, hlast.buttons⟩
  | jiggle =>
      obtain ⟨m, hm, hrest⟩ := Option.bind_eq_some_iff.mp hp
      have hfirst := (sendAbsMouseOnce_frame hm).sameDevice
      have hlast := (sendAbsMouseOnce_frame hrest).sameDevice
      exact ⟨hlast.width.trans hfirst.width, hlast.height.trans hfirst.height,
        hlast.scaling.trans hfirst.scaling, hlast.count.trans hfirst.count,
        hlast.buttons.trans hfirst.buttons⟩
  | connected =>
      cases hp
      exact .refl _
  | disconnected =>
      cases hp
      exact ⟨rfl, rfl, rfl, rfl, rfl⟩
  | setScreenSize w ht =>
      cases hp
      exact ⟨rfl, rfl, rfl, rfl, rfl⟩
  | setScaling scaling =>
      cases hp
      exact ⟨rfl, rfl, rfl, rfl, rfl⟩

/-- The actuator without its queue and the duplicate check at the queue. -/
def TusbActuator.withoutQueue (act : TusbActuator) : TusbActuator :=
  { act with
    lastQueuedKbTime := 0
    lastQueuedKbKey := 0
    lastQueuedKbMask := 0
    lastQueuedKbType := .keyDown
    lastQueuedBtnTime := 0
    lastQueuedBtnId := 0
    lastQueuedBtnType := .keyDown
    lastQueuedWheelTime := 0
    cmdQueue := [] }

theorem SameDevice.of_withoutQueue {act act' : TusbActuator}
    (h : act'.withoutQueue = act.withoutQueue) : SameDevice act act' where
  width := (congrArg TusbActuator.screenWidth h :)
  height := (congrArg TusbActuator.screenHeight h :)
  scaling := (congrArg TusbActuator.scaling h :)
  count := (congrArg TusbActuator.keyCount h :)
  buttons := (congrArg TusbActuator.mouseButtons h :)

theorem queueKey_withoutQueue (act : TusbActuator) (type : ActCmdType) (cmd : ActCmd)
    (key mask : UInt16) (now : UInt64) :
    (act.queueKey type cmd key mask now).1.withoutQueue = act.withoutQueue := by
  unfold TusbActuator.queueKey
  split <;> rfl

theorem queueButton_withoutQueue (act : TusbActuator) (type : ActCmdType) (cmd : ActCmd)
    (button : Int8) (now : UInt64) :
    (act.queueButton type cmd button now).1.withoutQueue = act.withoutQueue := by
  unfold TusbActuator.queueButton
  split <;> rfl

/-- The first half of a queue call only remembers what was queued. -/
theorem enterCall_withoutQueue (act : TusbActuator) (cmd : ActCmd) (now : UInt64) :
    (enterCall act cmd now).1.withoutQueue = act.withoutQueue := by
  cases cmd with
  | keyDown key mask button => exact queueKey_withoutQueue _ _ _ _ _ _
  | keyUp key mask button => exact queueKey_withoutQueue _ _ _ _ _ _
  | mouseDown id => exact queueButton_withoutQueue _ _ _ _ _
  | mouseUp id => exact queueButton_withoutQueue _ _ _ _ _
  | mouseWheel dx dy =>
      unfold enterCall actuatorQueueMouseWheel
      dsimp only
      split <;> rfl
  | _ => rfl

/-- The commands that `hid_task` has received. -/
def hidReceived (taken : List (ActCmd × Taker)) : List ActCmd :=
  (taken.filter fun c => c.2 = .hid).map Prod.fst

theorem hidReceived_concat (taken : List (ActCmd × Taker)) (cmd : ActCmd) (taker : Taker) :
    hidReceived (taken ++ [(cmd, taker)]) =
      if taker = .hid then hidReceived taken ++ [cmd] else hidReceived taken := by
  unfold hidReceived
  rw [List.filter_append, List.map_append]
  cases taker <;> simp

/-- The network task's accesses to the queue change nothing on the device, and give nothing
to `hid_task`. -/
theorem deliveryStep_device {d d' : Delivery} {label : DeliveryLabel}
    (hne : label ≠ .hidReceive) (hstep : deliveryStep d label = some d') :
    d'.act.withoutQueue = d.act.withoutQueue ∧ hidReceived d'.taken = hidReceived d.taken := by
  unfold deliveryStep at hstep
  cases label with
  | call cmd now =>
      have hcall := enterCall_withoutQueue d.act cmd now
      simp only at hstep
      split at hstep
      · split at hstep
        all_goals
          rename_i heq
          rw [heq] at hcall
          cases hstep
          exact ⟨hcall, rfl⟩
      · cases hstep
  | send =>
      simp only at hstep
      split at hstep
      · obtain ⟨act, hsend, rfl⟩ := Option.map_eq_some_iff.mp hstep
        obtain ⟨_, rfl⟩ := xQueueSend_spec hsend
        exact ⟨rfl, rfl⟩
      · cases hstep
  | sendTimeout =>
      simp only at hstep
      split at hstep
      · split at hstep
        · cases hstep
          exact ⟨rfl, rfl⟩
        · cases hstep
      · cases hstep
  | flush =>
      simp only at hstep
      split at hstep
      · split at hstep
        · cases hstep
          exact ⟨rfl, rfl⟩
        · rename_i cmd act hreceive
          obtain ⟨rest, _, rfl⟩ := xQueueReceive_spec hreceive
          cases hstep
          exact ⟨rfl, hidReceived_concat d.taken cmd .flush⟩
      · cases hstep
  | readDepth =>
      simp only at hstep
      split at hstep
      · cases hstep
        exact ⟨rfl, rfl⟩
      · cases hstep
  | dump =>
      simp only at hstep
      split at hstep
      · cases hstep
        exact ⟨rfl, rfl⟩
      · split at hstep
        · cases hstep
          exact ⟨rfl, rfl⟩
        · rename_i cmd act hreceive
          obtain ⟨rest, _, rfl⟩ := xQueueReceive_spec hreceive
          cases hstep
          exact ⟨rfl, hidReceived_concat d.taken cmd .dump⟩
      · cases hstep
  | hidReceive => exact absurd rfl hne

/-! ## What holds in every state -/

/-- The device shows the commands that `hid_task` has processed, which are those that it has
received while mounted. -/
structure DeviceInv (width height : UInt16) (t : Tasks) : Prop where
  inOrder : t.accepted = t.taken.map Prod.fst ++ t.queue
  received : hidReceived t.taken = t.finished.map Prod.fst ++ t.working.toList
  processed : t.hid.processed = (t.finished.filter Prod.snd).map Prod.fst
  screen : (t.hid.act.screenWidth, t.hid.act.screenHeight) =
    screenAfter (width, height) t.hid.processed
  scaling : t.hid.act.scaling = scalingAfter 100 t.hid.processed
  released : (∀ cmd, lastPress t.hid.processed = some cmd → cmd = .leave ∨ cmd = .disconnected) →
    t.hid.act.keyCount = 0 ∧ t.hid.act.mouseButtons = 0

variable {width height : UInt16}

/-- A step that neither processes a command nor changes the device. -/
theorem DeviceInv.of_same {t t' : Tasks} (hinv : DeviceInv width height t)
    (hinOrder : t'.accepted = t'.taken.map Prod.fst ++ t'.queue)
    (hreceived : hidReceived t'.taken = t'.finished.map Prod.fst ++ t'.working.toList)
    (hfinished : t'.hid.processed = (t'.finished.filter Prod.snd).map Prod.fst)
    (hprocessed : t'.hid.processed = t.hid.processed)
    (hsame : SameDevice t.hid.act t'.hid.act) : DeviceInv width height t' := by
  refine ⟨hinOrder, hreceived, hfinished, ?_, ?_, ?_⟩
  · rw [hsame.width, hsame.height, hprocessed]
    exact hinv.screen
  · rw [hsame.scaling, hprocessed]
    exact hinv.scaling
  · rw [hsame.count, hsame.buttons, hprocessed]
    exact hinv.released

theorem deviceInv_init (layout : KeyboardLayout) (mounted : Bool) (answers : List Bool) :
    DeviceInv width height (Tasks.init width height layout mounted answers) where
  inOrder := rfl
  received := rfl
  processed := rfl
  screen := rfl
  scaling := rfl
  released := fun _ => ⟨rfl, rfl⟩

/-- No step loses, adds or reorders a command. -/
theorem tasksStep_inOrder {t t' : Tasks} {label : TasksLabel}
    (hinv : t.accepted = t.taken.map Prod.fst ++ t.queue) (hstep : tasksStep t label = some t') :
    t'.accepted = t'.taken.map Prod.fst ++ t'.queue := by
  rcases tasksStep_queue hstep with ⟨l, hl⟩ | ⟨_, haccepted, hqueue⟩
  · exact deliveryStep_inOrder t.delivery l t'.delivery hinv hl
  · rcases hqueue with ⟨hqueue, htaken⟩ | ⟨cmd, hqueue, htaken⟩
    · rw [haccepted, htaken, hqueue]
      exact hinv
    · rw [haccepted, htaken, List.map_append, List.append_assoc, hinv, hqueue]
      rfl

theorem lastPress_concat (cmds : List ActCmd) (cmd : ActCmd) :
    lastPress (cmds ++ [cmd]) = if cmd.pressesOrReleases then some cmd else lastPress cmds := by
  unfold lastPress
  rw [List.filter_append]
  cases hpress : cmd.pressesOrReleases <;> simp [hpress]

/-- Commands that neither press nor release leave keys and buttons alone. -/
theorem deviceCommand_keeps (act : TusbActuator) {cmd : ActCmd}
    (hother : cmd.pressesOrReleases = false) :
    (act.deviceCommand cmd).keyCount = act.keyCount ∧
      (act.deviceCommand cmd).mouseButtons = act.mouseButtons := by
  cases cmd <;> first | exact ⟨rfl, rfl⟩ | cases hother

/-- Only the two commands for them change the screen size and the scaling. -/
theorem deviceCommand_settings (act : TusbActuator) (cmd : ActCmd) :
    ((act.deviceCommand cmd).screenWidth, (act.deviceCommand cmd).screenHeight) =
        screenAfter (act.screenWidth, act.screenHeight) [cmd] ∧
      (act.deviceCommand cmd).scaling = scalingAfter act.scaling [cmd] := by
  cases cmd with
  | keyDown key mask button =>
      obtain ⟨keys, count, htrack⟩ := trackKeyDown_frame act key
      have hcmd : act.deviceCommand (.keyDown key mask button) = _ := htrack
      rw [hcmd]
      exact ⟨rfl, rfl⟩
  | keyUp key mask button =>
      obtain ⟨keys, count, htrack⟩ := trackKeyUp_frame act key
      have hcmd : act.deviceCommand (.keyUp key mask button) = _ := htrack
      rw [hcmd]
      exact ⟨rfl, rfl⟩
  | _ => exact ⟨rfl, rfl⟩

/-- A command that is processed takes effect. -/
theorem DeviceInv.process {t : Tasks} {cmd : ActCmd} {h : Hid} (hinv : DeviceInv width height t)
    (hworking : t.working = some cmd)
    (hp : { t.hid with processed := t.hid.processed ++ [cmd] }.processCommand cmd = some h) :
    DeviceInv width height
      { t with hid := h, working := none, finished := t.finished ++ [(cmd, true)] } := by
  have hprocessed : h.processed = t.hid.processed ++ [cmd] := (processCommand_sameKeys hp).processed
  have hsame := processCommand_device hp
  obtain ⟨hscreen, hscaling⟩ := deviceCommand_settings t.hid.act cmd
  have hqueue := processCommand_cmdQueue hp
  dsimp only at hsame hqueue
  refine ⟨?_, ?_, ?_, ?_, ?_, ?_⟩
  · exact hinv.inOrder.trans (congrArg (t.taken.map Prod.fst ++ ·) hqueue.symm)
  · have hreceived := hinv.received
    rw [hworking] at hreceived
    simpa using hreceived
  · rw [hprocessed, hinv.processed]
    simp
  · rw [hsame.width, hsame.height, hscreen, hinv.screen, hprocessed,
      screenAfter_append]
  · rw [hsame.scaling, hscaling, hinv.scaling, hprocessed, scalingAfter_append]
  · rw [hsame.count, hsame.buttons, hprocessed, lastPress_concat]
    cases hpress : cmd.pressesOrReleases with
    | true =>
        intro hlast
        rcases hlast cmd (if_pos rfl) with rfl | rfl
        · exact ⟨rfl, rfl⟩
        · exact ⟨rfl, rfl⟩
    | false =>
        obtain ⟨hcount, hbuttons⟩ := deviceCommand_keeps t.hid.act hpress
        rw [hcount, hbuttons]
        intro hlast
        exact hinv.released fun cmd' hcmd' => hlast cmd' hcmd'

/-- A command that is dropped does not. -/
theorem DeviceInv.drop {t : Tasks} {cmd : ActCmd} (hinv : DeviceInv width height t)
    (hworking : t.working = some cmd) :
    DeviceInv width height
      { t with working := none, finished := t.finished ++ [(cmd, false)] } := by
  refine hinv.of_same hinv.inOrder ?_ ?_ rfl (.refl _)
  · have hreceived := hinv.received
    rw [hworking] at hreceived
    simpa using hreceived
  · rw [hinv.processed]
    simp

theorem receive_deviceInv {t : Tasks} (hinv : DeviceInv width height t)
    (hidle : t.working = none) : DeviceInv width height t.receive := by
  have hinOrder : t.receive.accepted = t.receive.taken.map Prod.fst ++ t.receive.queue := by
    have hstep : tasksStep t .receive = some t.receive := if_pos hidle
    exact tasksStep_inOrder hinv.inOrder hstep
  revert hinOrder
  unfold Tasks.receive
  split
  · exact fun _ => hinv
  · next cmd act hreceive =>
      obtain ⟨rest, _, rfl⟩ := xQueueReceive_spec hreceive
      intro hinOrder
      refine hinv.of_same hinOrder ?_ hinv.processed rfl ⟨rfl, rfl, rfl, rfl, rfl⟩
      have hreceived := hinv.received
      rw [hidle] at hreceived
      rw [hidReceived_concat, if_pos rfl, hreceived]
      simp

theorem tasksStep_deviceInv (t : Tasks) (label : TasksLabel) (t' : Tasks)
    (hinv : DeviceInv width height t) (hstep : tasksStep t label = some t') :
    DeviceInv width height t' := by
  have hinOrder := tasksStep_inOrder hinv.inOrder hstep
  unfold tasksStep at hstep
  cases label with
  | net l =>
      simp only at hstep
      split at hstep
      · cases hstep
      · next hne =>
          obtain ⟨d, hd, rfl⟩ := Option.map_eq_some_iff.mp hstep
          obtain ⟨hsame, hreceived⟩ := deliveryStep_device hne hd
          exact hinv.of_same hinOrder (hreceived.trans hinv.received) hinv.processed rfl
            (.of_withoutQueue hsame)
  | receive =>
      simp only at hstep
      split at hstep
      · next hidle =>
          cases hstep
          exact receive_deviceInv hinv hidle
      · cases hstep
  | finish =>
      obtain ⟨cmd, hworking, hfinish⟩ := Option.bind_eq_some_iff.mp hstep
      unfold Tasks.finish at hfinish
      simp only at hfinish
      split at hfinish
      · next hmounted =>
          obtain ⟨h, hp, rfl⟩ := Option.map_eq_some_iff.mp hfinish
          rw [hmounted]
          exact hinv.process hworking hp
      · next hunmounted =>
          cases hfinish
          rw [Bool.not_eq_true] at hunmounted
          rw [hunmounted]
          exact hinv.drop hworking
  | movement =>
      simp only at hstep
      split at hstep
      · obtain ⟨h, hmove, rfl⟩ := Option.map_eq_some_iff.mp hstep
        obtain ⟨hsame, hprocessed⟩ := movementStep_sameDevice hmove
        exact hinv.of_same hinOrder hinv.received (hprocessed.trans hinv.processed) hprocessed hsame
      · cases hstep
  | setMovement x y =>
      simp only at hstep
      split at hstep
      · cases hstep
        have hsame := notifyMovement_sameDevice { t.hid.act with targetX := x, targetY := y }
        exact hinv.of_same hinOrder hinv.received hinv.processed rfl
          ⟨hsame.width, hsame.height, hsame.scaling, hsame.count, hsame.buttons⟩
      · cases hstep
  | moveRelative dx dy =>
      simp only at hstep
      split at hstep
      · cases hstep
        have hsame : SameDevice t.hid.act (actuatorMoveRelative t.hid.act dx dy) := by
          unfold actuatorMoveRelative
          refine SameDevice.trans ?_ (notifyMovement_sameDevice _)
          exact ⟨rfl, rfl, rfl, rfl, rfl⟩
        exact hinv.of_same hinOrder hinv.received hinv.processed rfl hsame
      · cases hstep
  | setMounted mounted =>
      cases hstep
      exact hinv.of_same hinOrder hinv.received hinv.processed rfl (.refl _)
  | setLayout layout =>
      cases hstep
      exact hinv.of_same hinOrder hinv.received hinv.processed rfl (.refl _)

/-! ## Between two commands -/

/-- What the device shows when `hid_task` is between two commands. -/
structure ShowsProcessed (width height : UInt16) (t : Tasks) : Prop where
  /-- what was queued was taken in this order or still waits -/
  inOrder : t.accepted = t.taken.map Prod.fst ++ t.queue
  /-- `hid_task` is through with what it has taken -/
  received : hidReceived t.taken = t.finished.map Prod.fst
  /-- the commands processed are those received while mounted -/
  processed : t.hid.processed = (t.finished.filter Prod.snd).map Prod.fst
  screen : (t.hid.act.screenWidth, t.hid.act.screenHeight) =
    screenAfter (width, height) t.hid.processed
  scaling : t.hid.act.scaling = scalingAfter 100 t.hid.processed
  released : lastPress t.hid.processed = some .leave ∨
      lastPress t.hid.processed = some .disconnected →
    t.hid.act.tracked = [] ∧ t.hid.act.mouseButtons = 0

/-- However the host mounts and unmounts the device, and whatever the network task queues and
flushes: between two commands, screen size, scaling, keys and buttons are those of the commands
that `hid_task` has received while mounted. -/
theorem run_showsProcessed {layout : KeyboardLayout} {mounted : Bool} {answers : List Bool}
    {labels : List TasksLabel} {t : Tasks}
    (hrun : run tasksStep (Tasks.init width height layout mounted answers) labels = some t)
    (hbetween : t.working = none) : ShowsProcessed width height t := by
  have hinit : DeviceInv width height (Tasks.init width height layout mounted answers) :=
    deviceInv_init layout mounted answers
  have hinv := run_invariant tasksStep_deviceInv hinit hrun
  refine ⟨hinv.inOrder, ?_, hinv.processed, hinv.screen, hinv.scaling, ?_⟩
  · rw [hinv.received, hbetween]
    simp
  · intro hlast
    have hreleases : ∀ cmd, lastPress t.hid.processed = some cmd →
        cmd = .leave ∨ cmd = .disconnected := by
      intro cmd hcmd
      rw [hcmd] at hlast
      simpa using hlast
    obtain ⟨hcount, hbuttons⟩ := hinv.released hreleases
    refine ⟨?_, hbuttons⟩
    rw [TusbActuator.tracked, hcount, List.take_zero]

/-- A command is queued, received, and done with. -/
def queueAndFinish (cmd : ActCmd) : List TasksLabel :=
  [.net (.call cmd 1000), .net .send, .receive, .finish]

/-- The screen size changes, and a key goes down before the pointer leaves. -/
def mountedLabels : List TasksLabel :=
  queueAndFinish (.setScreenSize 2560 1440) ++ queueAndFinish (.keyDown 0x61 0 0) ++
    queueAndFinish .leave

theorem run_showsProcessed_mounted :
    ∃ t, run tasksStep (Tasks.init 1920 1080 .us true [true, true, true]) mountedLabels = some t ∧
      t.hid.act.screenWidth = 2560 ∧ t.hid.act.tracked = [] ∧ ShowsProcessed 1920 1080 t := by
  have hview : (run tasksStep (Tasks.init 1920 1080 .us true [true, true, true])
      mountedLabels).map (fun t => (t.working, t.hid.act.screenWidth, t.hid.act.tracked)) =
      some (none, 2560, []) := by
    decide +kernel
  obtain ⟨t, hrun, hends⟩ := Option.map_eq_some_iff.mp hview
  simp only [Prod.mk.injEq] at hends
  obtain ⟨hbetween, hwidth, htracked⟩ := hends
  exact ⟨t, hrun, hwidth, htracked, run_showsProcessed hrun hbetween⟩

/-- A key goes down, the device is unmounted, a new screen size and a LEAVE are queued. -/
def unmountedLabels : List TasksLabel :=
  queueAndFinish (.keyDown 0x61 0 0) ++ [.setMounted false] ++
    queueAndFinish (.setScreenSize 2560 1440) ++ queueAndFinish .leave ++ [.setMounted true]

/-- All of them were received by `hid_task`, nothing waits, and the device keeps its old screen
size and the key. -/
theorem unmounted_commands_dropped :
    ∃ t, run tasksStep (Tasks.init 1920 1080 .us true [true]) unmountedLabels = some t ∧
      t.working = none ∧ t.queue = [] ∧
      t.accepted = [.keyDown 0x61 0 0, .setScreenSize 2560 1440, .leave] ∧
      (∀ c ∈ t.taken, c.2 = .hid) ∧ t.hid.mounted = true ∧
      t.hid.act.screenWidth = 1920 ∧ t.hid.act.tracked = [0x61] := by
  have hview : (run tasksStep (Tasks.init 1920 1080 .us true [true]) unmountedLabels).map
      (fun t => (t.working, t.queue, t.accepted, t.taken.all fun c => c.2 == .hid,
        t.hid.mounted, t.hid.act.screenWidth, t.hid.act.tracked)) =
      some (none, [], [.keyDown 0x61 0 0, .setScreenSize 2560 1440, .leave], true, true, 1920,
        [0x61]) := by
    rfl
  obtain ⟨t, hrun, hends⟩ := Option.map_eq_some_iff.mp hview
  simp only [Prod.mk.injEq, List.all_eq_true, beq_iff_eq] at hends
  exact ⟨t, hrun, hends⟩

end Esp32Deskflow.Tusb
