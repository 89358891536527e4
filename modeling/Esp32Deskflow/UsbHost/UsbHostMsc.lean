/-
  UsbHost/UsbHostMsc.lean --- `usb_host_msc.c`: the state and the slot table, changed by
  the task that starts and stops the module and by the USB host tasks.

  A step is one access to what the tasks share, or the handling of one device event.
  The results of the drivers are arguments of the step.  A host task whose end was not
  waited for lives on, so there is a list of them.  It may set `s_state` in one call of
  `usb_host_msc_start` and give the semaphore in the next.

  `handle_device_disconnected` empties a slot and leaves `s_state` alone, so that the
  module is mounted after its last filesystem has gone.
-/
import Esp32Deskflow.Foundation.EspErr
import Esp32Deskflow.Foundation.Transition

set_option autoImplicit false

namespace Esp32Deskflow.UsbHost

open Esp32Deskflow.Foundation Esp32Deskflow.Foundation.Transition

/-! ## State -/

/-- `usb_msc_state_t`. -/
inductive UsbMscState where
  | inactive | activating | mounted | error
  deriving DecidableEq, Repr, Inhabited

/-- `msc_entry_t`; a handle is a number. -/
structure MscEntry where
  usbAddr : UInt8
  mscDevice : Nat
  vfsHandle : Option Nat
  deriving DecidableEq, Repr

/-- `msc_event_msg_t`. -/
structure MscEventMsg where
  usbAddr : UInt8
  handle : Nat
  connected : Bool
  deriving DecidableEq, Repr

/-- Where a USB host task is. -/
inductive TaskPc where
  /-- before the first statement -/
  | entry
  | installHost
  | installMsc
  | loop
  /-- the end of `handle_device_connected` after it has set `s_state`, and the two tests at the
  end of a turn; `idle`: both flags of the USB library were set -/
  | giveMounted (idle : Bool)
  | check (idle : Bool)
  | cleanup (slot : Nat)
  /-- the statements at the end, after a failure or after the cleanup -/
  | clearHandle (failed : Bool)
  | setError
  | signal
  deriving DecidableEq, Repr

/-- A `usb_host_task`, with the number it was created under. -/
structure HostTask where
  id : Nat
  pc : TaskPc
  deriving DecidableEq, Repr

/-- Where the task is that calls `usb_host_msc_start` and `usb_host_msc_stop`. -/
inductive Control where
  | idle
  /-- `usb_host_msc_start`: before `s_state` leaves the error state, before it is set, before
  `s_stop` is cleared, before the semaphore is emptied, and before the task is created -/
  | recovering
  | activating
  | clearing
  | emptying
  | creating
  /-- after the task could not be created, before its handle is stored, and the wait for the
  semaphore -/
  | failing
  | created (task : Nat)
  | waiting
  /-- after the timeout, the second wait, and the last statements -/
  | givingUp
  | draining
  | settling
  /-- `usb_host_msc_stop`: before `s_stop` is set, the wait for the end of the task, and the last
  statements -/
  | requesting
  | stopping
  | stopped
  deriving DecidableEq, Repr

/-- The static variables, with the tasks that use them. -/
structure MscHost where
  devices : List (Option MscEntry)
  state : UsbMscState
  taskHandle : Option Nat
  eventQueue : List MscEventMsg
  mountedSem : Bool
  stop : Bool
  control : Control
  tasks : List HostTask
  nextTask : Nat
  deriving DecidableEq, Repr

/-- The state after `usb_host_msc_init`. -/
def MscHost.initial (maxMscDevices : Nat) : MscHost where
  devices := List.replicate maxMscDevices none
  state := .inactive
  taskHandle := none
  eventQueue := []
  mountedSem := false
  stop := false
  control := .idle
  tasks := []
  nextTask := 0

/-- `usb_host_msc_is_mounted`. -/
def MscHost.isMounted (s : MscHost) : Bool := s.state = .mounted

/-! ## Devices -/

/-- The results of the drivers in a step of a host task; a step uses what it needs. -/
structure HostIo where
  hostInstall : EspErr := .ok
  mscInstall : EspErr := .ok
  /-- `USB_HOST_LIB_EVENT_FLAGS_ALL_FREE` and `USB_HOST_LIB_EVENT_FLAGS_NO_CLIENTS` -/
  allFree : Bool := false
  noClients : Bool := false
  /-- `calloc`, `msc_host_install_device` and `msc_host_vfs_register` -/
  allocated : Bool := true
  installed : Except EspErr Nat := .error .fail
  registered : Except EspErr Nat := .error .fail

/-- `find_free_slot`. -/
def findFreeSlot (devices : List (Option MscEntry)) : Option Nat := devices.findIdx? Option.isNone

/-- `find_slot_by_handle`. -/
def findSlotByHandle (devices : List (Option MscEntry)) (handle : Nat) : Option Nat :=
  devices.findIdx? fun slot => slot.any fun e => e.mscDevice = handle

/-- `handle_device_connected`, up to the critical section in which it sets `s_state`.  An entry that
was made and freed again leaves its slot empty. -/
def handleDeviceConnected (s : MscHost) (addr : UInt8) (io : HostIo) : EspErr × MscHost :=
  match findFreeSlot s.devices with
  | none => (.notFound, s)
  | some slot =>
      if !io.allocated then (.noMem, s)
      else
        match io.installed with
        | .error err => (err, s)
        | .ok device =>
            match io.registered with
            | .error err => (err, s)
            | .ok vfs =>
                let s := { s with devices := s.devices.set slot (some ⟨addr, device, some vfs⟩) }
                if s.state = .activating then (.ok, { s with state := .mounted })
                else (.ok, s)

/-- `handle_device_disconnected`. -/
def handleDeviceDisconnected (s : MscHost) (handle : Nat) : MscHost :=
  match findSlotByHandle s.devices handle with
  | none => s
  | some slot => { s with devices := s.devices.set slot none }

/-! ## Steps -/

/-- A task goes on at another place. -/
def MscHost.setPc (s : MscHost) (i : Nat) (task : HostTask) (pc : TaskPc) : MscHost :=
  { s with tasks := s.tasks.set i { task with pc } }

/-- One turn of the event loop: a message is handled if there is one. -/
def MscHost.handleEvent (s : MscHost) (io : HostIo) : MscHost :=
  match s.eventQueue with
  | [] => s
  | msg :: rest =>
      let s := { s with eventQueue := rest }
      if msg.connected then (handleDeviceConnected s msg.usbAddr io).2
      else handleDeviceDisconnected s msg.handle

/-- The turn has set `s_state` to mounted, so `handle_device_connected` gives the semaphore. -/
def becameMounted (s t : MscHost) : Bool := s.state = .activating && t.state = .mounted

/-- One slot of the cleanup. -/
def MscHost.cleanupSlot (s : MscHost) (slot : Nat) : MscHost :=
  match s.devices[slot]? with
  | some (some e) => handleDeviceDisconnected s e.mscDevice
  | _ => s

/-- `usb_host_task`, the task at index `i`. -/
def hostStep (s : MscHost) (i : Nat) (io : HostIo) : Option MscHost :=
  match s.tasks[i]? with
  | none => none
  | some task =>
      match task.pc with
      | .entry => some ({ s with stop := false }.setPc i task .installHost)
      | .installHost =>
          if io.hostInstall ≠ .ok ∧ io.hostInstall ≠ .invalidState then
            some (s.setPc i task (.clearHandle true))
          else some (s.setPc i task .installMsc)
      | .installMsc =>
          if io.mscInstall ≠ .ok then some (s.setPc i task (.clearHandle true))
          else some (s.setPc i task .loop)
      | .loop =>
          let idle := io.allFree && io.noClients
          some ((s.handleEvent io).setPc i task
            (if becameMounted s (s.handleEvent io) then .giveMounted idle else .check idle))
      | .giveMounted idle => some ({ s with mountedSem := true }.setPc i task (.check idle))
      | .check idle =>
          if s.stop || idle then some (s.setPc i task (.cleanup 0)) else some (s.setPc i task .loop)
      | .cleanup slot =>
          if slot < s.devices.length then
            some ((s.cleanupSlot slot).setPc i task (.cleanup (slot + 1)))
          else some (s.setPc i task (.clearHandle false))
      | .clearHandle failed =>
          some ({ s with taskHandle := none }.setPc i task (if failed then .setError else .signal))
      | .setError => some ({ s with state := .error }.setPc i task .signal)
      | .signal => some { s with mountedSem := true, tasks := s.tasks.eraseIdx i }

/-- What happens next. -/
inductive MscStep where
  /-- `usb_host_msc_start` is called and reads `s_state`; the other steps of it: the error state is
  left, `s_state` is set, `s_stop` is cleared, the semaphore is emptied, the task is created (or
  not), its handle is stored, the semaphore is taken -/
  | start
  | recover
  | activate
  | clearStop
  | emptySem
  | create (created : Bool)
  | fail
  | storeHandle
  | takeMounted
  /-- the wait times out, `s_stop` is set, the semaphore is taken, the state is reset -/
  | timeOut
  | giveUp
  | drain
  | settle
  /-- `usb_host_msc_stop` is called and reads `s_state`; `s_stop` is set; the wait ends; the state
  is reset -/
  | stop
  | requestStop
  | stopWaited (timedOut : Bool)
  | deactivate
  /-- `msc_event_cb` -/
  | event (msg : MscEventMsg)
  /-- a step of a host task -/
  | host (i : Nat) (io : HostIo)

/-- The length of `s_event_queue`. -/
def eventQueueLength : Nat := 8

/-- `none`: the step does not happen in this state. -/
def mscStep (s : MscHost) : MscStep → Option MscHost
  | .start =>
      if s.control ≠ .idle then none
      else
        match s.state with
        | .mounted | .activating => some s
        | .error => some { s with control := .recovering }
        | .inactive => some { s with control := .activating }
  | .recover =>
      if s.control = .recovering then some { s with state := .inactive, control := .activating }
      else none
  | .activate =>
      if s.control = .activating then some { s with state := .activating, control := .clearing }
      else none
  | .clearStop =>
      if s.control = .clearing then some { s with stop := false, control := .emptying } else none
  | .emptySem =>
      if s.control = .emptying then some { s with mountedSem := false, control := .creating }
      else none
  | .create created =>
      if s.control ≠ .creating then none
      else if created then
        some { s with
          control := .created s.nextTask
          tasks := s.tasks ++ [⟨s.nextTask, .entry⟩]
          nextTask := s.nextTask + 1 }
      else some { s with control := .failing }
  | .fail =>
      if s.control = .failing then some { s with state := .error, control := .idle } else none
  | .storeHandle =>
      match s.control with
      | .created task => some { s with taskHandle := some task, control := .waiting }
      | _ => none
  | .takeMounted =>
      if s.control = .waiting ∧ s.mountedSem then
        some { s with mountedSem := false, control := .idle }
      else none
  | .timeOut =>
      if s.control = .waiting ∧ ¬ s.mountedSem then some { s with control := .givingUp } else none
  | .giveUp =>
      if s.control = .givingUp then some { s with stop := true, control := .draining } else none
  | .drain =>
      if s.control = .draining ∧ s.mountedSem then
        some { s with mountedSem := false, control := .settling }
      else none
  | .settle =>
      if s.control = .settling then some { s with state := .inactive, control := .idle } else none
  | .stop =>
      if s.control ≠ .idle then none
      else if s.state = .inactive then some s
      else some { s with control := .requesting }
  | .requestStop =>
      if s.control = .requesting then some { s with stop := true, control := .stopping } else none
  | .stopWaited timedOut =>
      if s.control = .stopping ∧ (s.taskHandle = none ∨ timedOut) then
        some { s with control := .stopped }
      else none
  | .deactivate =>
      if s.control = .stopped then some { s with state := .inactive, control := .idle } else none
  | .event msg =>
      if s.eventQueue.length < eventQueueLength then
        some { s with eventQueue := s.eventQueue ++ [msg] }
      else none
  | .host i io => hostStep s i io

/-! ## Registered filesystems -/

/-- The slot holds a device with a registered filesystem. -/
def Registered (devices : List (Option MscEntry)) (slot : Nat) : Prop :=
  ∃ e, devices[slot]? = some (some e) ∧ e.vfsHandle.isSome

/-- Mounted means mounted. -/
def MountedMeansMounted (s : MscHost) : Prop :=
  s.isMounted = true → ∃ slot, Registered s.devices slot

/-- The slot that a step empties: the one of a device that has gone, or the next of the cleanup. -/
def emptiedSlot (s : MscHost) : MscStep → Option Nat
  | .host i _ =>
      match s.tasks[i]? with
      | some ⟨_, .loop⟩ =>
          match s.eventQueue with
          | msg :: _ => if msg.connected then none else findSlotByHandle s.devices msg.handle
          | [] => none
      | some ⟨_, .cleanup slot⟩ =>
          match s.devices[slot]? with
          | some (some e) => findSlotByHandle s.devices e.mscDevice
          | _ => none
      | _ => none
  | _ => none

/-- While the module is mounted, the step empties a slot only if another one keeps a registered
filesystem. -/
def KeepsOne (s : MscHost) (a : MscStep) : Prop :=
  ∀ slot, emptiedSlot s a = some slot → s.isMounted = true →
    ∃ other, other ≠ slot ∧ Registered s.devices other

/-- The call in progress will set `s_state` to `USB_MSC_STATE_INACTIVE` before it returns: a stop,
or a start that has timed out. -/
def Control.resets : Control → Bool
  | .givingUp | .draining | .settling | .requesting | .stopping | .stopped => true
  | .idle | .recovering | .activating | .clearing | .emptying | .creating | .failing | .created _
  | .waiting => false

/-- `usb_host_msc_start` has emptied the semaphore and will return `ESP_OK` if it can take it. -/
def Control.awaits : Control → Bool
  | .creating | .created _ | .waiting => true
  | _ => false

/-! ## What a step does to state and slots -/

/-- The three kinds of steps: the slots are left alone and the module does not become mounted, a
device is registered, or a slot is emptied. -/
inductive Effect (s : MscHost) (a : MscStep) (t : MscHost) : Prop where
  | keeps (devices : t.devices = s.devices) (mounted : t.isMounted = true → s.isMounted = true)
  | registers (slot : Nat) (registered : Registered t.devices slot)
  | empties (slot : Nat) (emptied : emptiedSlot s a = some slot)
      (devices : t.devices = s.devices.set slot none) (state : t.state = s.state)

@[simp] theorem setPc_devices (s : MscHost) (i : Nat) (task : HostTask) (pc : TaskPc) :
    (s.setPc i task pc).devices = s.devices := rfl

@[simp] theorem setPc_state (s : MscHost) (i : Nat) (task : HostTask) (pc : TaskPc) :
    (s.setPc i task pc).state = s.state := rfl

@[simp] theorem setPc_control (s : MscHost) (i : Nat) (task : HostTask) (pc : TaskPc) :
    (s.setPc i task pc).control = s.control := rfl

theorem findFreeSlot_lt {devices : List (Option MscEntry)} {slot : Nat}
    (h : findFreeSlot devices = some slot) : slot < devices.length :=
  (List.findIdx?_eq_some_iff_getElem.mp h).1

/-- `handle_device_connected` leaves everything alone, or there is a registered filesystem. -/
theorem handleDeviceConnected_cases (s : MscHost) (addr : UInt8) (io : HostIo) :
    (handleDeviceConnected s addr io).2 = s ∨
      ∃ slot, Registered (handleDeviceConnected s addr io).2.devices slot := by
  unfold handleDeviceConnected
  split
  · exact Or.inl rfl
  · rename_i slot hslot
    split
    · exact Or.inl rfl
    · split
      · exact Or.inl rfl
      · split
        · exact Or.inl rfl
        · have hlt := findFreeSlot_lt hslot
          refine Or.inr ⟨slot, ?_⟩
          simp only
          split
          · exact ⟨_, List.getElem?_set_self hlt, rfl⟩
          · exact ⟨_, List.getElem?_set_self hlt, rfl⟩

/-- `handle_device_connected` changes the slots and `s_state` alone. -/
theorem handleDeviceConnected_frame (s : MscHost) (addr : UInt8) (io : HostIo) :
    ∃ devices state,
      (handleDeviceConnected s addr io).2 = { s with devices := devices, state := state } := by
  unfold handleDeviceConnected
  split
  · exact ⟨_, _, rfl⟩
  · split
    · exact ⟨_, _, rfl⟩
    · split
      · exact ⟨_, _, rfl⟩
      · split
        · exact ⟨_, _, rfl⟩
        · simp only
          split
          · exact ⟨_, _, rfl⟩
          · exact ⟨_, _, rfl⟩

/-- `handle_device_disconnected` empties the slot of the device, if there is one. -/
theorem handleDeviceDisconnected_eq (s : MscHost) (handle : Nat) :
    handleDeviceDisconnected s handle = s ∨
      ∃ slot, findSlotByHandle s.devices handle = some slot ∧
        handleDeviceDisconnected s handle = { s with devices := s.devices.set slot none } := by
  unfold handleDeviceDisconnected
  split
  · exact Or.inl rfl
  · rename_i slot hslot
    exact Or.inr ⟨slot, hslot, rfl⟩

theorem handleEvent_frame (s : MscHost) (io : HostIo) :
    ∃ devices state queue, s.handleEvent io =
      { s with devices := devices, state := state, eventQueue := queue } := by
  unfold MscHost.handleEvent
  split
  · exact ⟨_, _, _, rfl⟩
  · rename_i msg rest _
    simp only
    split
    · obtain ⟨devices, state, heq⟩ :=
        handleDeviceConnected_frame { s with eventQueue := rest } msg.usbAddr io
      exact ⟨devices, state, rest, heq⟩
    · rcases handleDeviceDisconnected_eq { s with eventQueue := rest } msg.handle with
        heq | ⟨slot, _, heq⟩
      · exact ⟨_, _, _, heq⟩
      · exact ⟨_, _, _, heq⟩

theorem cleanupSlot_frame (s : MscHost) (slot : Nat) :
    ∃ devices, s.cleanupSlot slot = { s with devices := devices } := by
  unfold MscHost.cleanupSlot
  split
  · rename_i e _
    rcases handleDeviceDisconnected_eq s e.mscDevice with heq | ⟨slot, _, heq⟩
    · exact ⟨_, heq⟩
    · exact ⟨_, heq⟩
  · exact ⟨_, rfl⟩

theorem effect_of_same {s t : MscHost} {a : MscStep} (hdevices : t.devices = s.devices)
    (hstate : t.state = s.state) : Effect s a t :=
  .keeps hdevices fun h => by rwa [MscHost.isMounted, hstate] at h

theorem effect_of_state {s t : MscHost} {a : MscStep} (hdevices : t.devices = s.devices)
    (hstate : t.state ≠ .mounted) : Effect s a t :=
  .keeps hdevices fun h => absurd (of_decide_eq_true h) hstate

/-- A turn of the event loop. -/
theorem effect_loop {s : MscHost} {i id : Nat} {io : HostIo} {pc : TaskPc}
    (htask : s.tasks[i]? = some ⟨id, .loop⟩) :
    Effect s (.host i io) ((s.handleEvent io).setPc i ⟨id, .loop⟩ pc) := by
  unfold MscHost.handleEvent
  split
  · exact effect_of_same rfl rfl
  · rename_i msg rest hqueue
    simp only
    split
    · rename_i hconnected
      rcases handleDeviceConnected_cases { s with eventQueue := rest } msg.usbAddr io with
        hsame | ⟨slot, hslot⟩
      · rw [hsame]
        exact effect_of_same rfl rfl
      · exact .registers slot hslot
    · rename_i hconnected
      rcases handleDeviceDisconnected_eq { s with eventQueue := rest } msg.handle with
        hsame | ⟨slot, hslot, heq⟩
      · rw [hsame]
        exact effect_of_same rfl rfl
      · rw [heq]
        refine .empties slot ?_ rfl rfl
        rw [emptiedSlot, htask, hqueue]
        simp only [if_neg hconnected]
        exact hslot

/-- A slot of the cleanup. -/
theorem effect_cleanup {s : MscHost} {i id slot : Nat} {io : HostIo} {pc : TaskPc}
    (htask : s.tasks[i]? = some ⟨id, .cleanup slot⟩) :
    Effect s (.host i io) ((s.cleanupSlot slot).setPc i ⟨id, .cleanup slot⟩ pc) := by
  unfold MscHost.cleanupSlot
  split
  · rename_i e he
    rcases handleDeviceDisconnected_eq s e.mscDevice with hsame | ⟨found, hfound, heq⟩
    · rw [hsame]
      exact effect_of_same rfl rfl
    · rw [heq]
      refine .empties found ?_ rfl rfl
      rw [emptiedSlot, htask]
      simp only [he]
      exact hfound
  · exact effect_of_same rfl rfl

theorem effect_host {s t : MscHost} {i : Nat} {io : HostIo} (h : hostStep s i io = some t) :
    Effect s (.host i io) t ∧ t.control = s.control := by
  unfold hostStep at h
  split at h
  · cases h
  · rename_i task htask
    obtain ⟨id, pc⟩ := task
    cases pc with
    | entry | giveMounted idle | clearHandle failed | signal =>
        cases h
        exact ⟨effect_of_same rfl rfl, rfl⟩
    | setError =>
        cases h
        exact ⟨effect_of_state rfl (by simp), rfl⟩
    | installHost | installMsc | check idle =>
        simp only at h
        split at h
        · cases h
          exact ⟨effect_of_same rfl rfl, rfl⟩
        · cases h
          exact ⟨effect_of_same rfl rfl, rfl⟩
    | loop =>
        cases h
        obtain ⟨_, _, _, hframe⟩ := handleEvent_frame s io
        exact ⟨effect_loop htask, by rw [setPc_control, hframe]⟩
    | cleanup slot =>
        simp only at h
        split at h
        · cases h
          obtain ⟨_, hframe⟩ := cleanupSlot_frame s slot
          exact ⟨effect_cleanup htask, by rw [setPc_control, hframe]⟩
        · cases h
          exact ⟨effect_of_same rfl rfl, rfl⟩

/-- What a step of `usb_host_msc_start`, `usb_host_msc_stop` or the callback does: it never makes
the module mounted and never gives the semaphore, a call that resets the state goes on or has reset
it, and a call that waits for the semaphore began to wait with it empty. -/
structure CallerEffect (s t : MscHost) : Prop where
  devices : t.devices = s.devices
  state : t.state = s.state ∨ t.state ≠ .mounted
  resets : s.control.resets = true → t.control.resets = true ∨ t.state = .inactive
  awaits : t.control.awaits = true → t.mountedSem = true →
    s.control.awaits = true ∧ s.mountedSem = true

/-- Every other step is one of a host task. -/
theorem callerEffect_of_step {s t : MscHost} {a : MscStep} (h : mscStep s a = some t) :
    (∃ i io, a = .host i io) ∨ CallerEffect s t := by
  cases a with
  | host i io => exact Or.inl ⟨i, io, rfl⟩
  | event msg =>
      obtain ⟨_, heq⟩ := Option.ite_none_right_eq_some.mp h
      cases heq
      exact Or.inr ⟨rfl, Or.inl rfl, Or.inl, And.intro⟩
  | start =>
      simp only [mscStep] at h
      split at h
      · cases h
      · rename_i hidle
        have hresets : s.control.resets ≠ true := by rw [not_not.mp hidle]; decide
        split at h
        · cases h
          exact Or.inr ⟨rfl, Or.inl rfl, Or.inl, And.intro⟩
        · cases h
          exact Or.inr ⟨rfl, Or.inl rfl, Or.inl, And.intro⟩
        · cases h
          exact Or.inr ⟨rfl, Or.inl rfl, fun h => absurd h hresets, nofun⟩
        · cases h
          exact Or.inr ⟨rfl, Or.inl rfl, fun h => absurd h hresets, nofun⟩
  | create created =>
      simp only [mscStep] at h
      split at h
      · cases h
      · rename_i hcreating
        have hresets : s.control.resets ≠ true := by rw [not_not.mp hcreating]; decide
        have hawaits : s.control.awaits = true := by rw [not_not.mp hcreating]; rfl
        split at h
        · cases h
          exact Or.inr ⟨rfl, Or.inl rfl, fun h => absurd h hresets, fun _ hsem => ⟨hawaits, hsem⟩⟩
        · cases h
          exact Or.inr ⟨rfl, Or.inl rfl, fun h => absurd h hresets, nofun⟩
  | storeHandle =>
      simp only [mscStep] at h
      split at h
      · rename_i task hcreated
        have hresets : s.control.resets ≠ true := by rw [hcreated]; exact Bool.false_ne_true
        have hawaits : s.control.awaits = true := by rw [hcreated]; rfl
        cases h
        exact Or.inr ⟨rfl, Or.inl rfl, fun h => absurd h hresets, fun _ hsem => ⟨hawaits, hsem⟩⟩
      · cases h
  | recover | activate | fail =>
      obtain ⟨hcontrol, heq⟩ := Option.ite_none_right_eq_some.mp h
      have hresets : s.control.resets ≠ true := by rw [hcontrol]; decide
      cases heq
      exact Or.inr ⟨rfl, Or.inr nofun, fun h => absurd h hresets, nofun⟩
  | clearStop | emptySem =>
      obtain ⟨hcontrol, heq⟩ := Option.ite_none_right_eq_some.mp h
      have hresets : s.control.resets ≠ true := by rw [hcontrol]; decide
      cases heq
      exact Or.inr ⟨rfl, Or.inl rfl, fun h => absurd h hresets, nofun⟩
  | takeMounted =>
      obtain ⟨⟨hcontrol, _⟩, heq⟩ := Option.ite_none_right_eq_some.mp h
      have hresets : s.control.resets ≠ true := by rw [hcontrol]; decide
      cases heq
      exact Or.inr ⟨rfl, Or.inl rfl, fun h => absurd h hresets, nofun⟩
  | timeOut | giveUp | drain | requestStop | stopWaited timedOut =>
      obtain ⟨_, heq⟩ := Option.ite_none_right_eq_some.mp h
      cases heq
      exact Or.inr ⟨rfl, Or.inl rfl, fun _ => Or.inl rfl, nofun⟩
  | settle | deactivate =>
      obtain ⟨_, heq⟩ := Option.ite_none_right_eq_some.mp h
      cases heq
      exact Or.inr ⟨rfl, Or.inr nofun, fun _ => Or.inr rfl, nofun⟩
  | stop =>
      simp only [mscStep] at h
      split at h
      · cases h
      · split at h
        · cases h
          exact Or.inr ⟨rfl, Or.inl rfl, Or.inl, And.intro⟩
        · cases h
          exact Or.inr ⟨rfl, Or.inl rfl, fun _ => Or.inl rfl, nofun⟩

/-- The effect of every step; a call that resets the state goes on or has reset it. -/
theorem effect_of_step {s t : MscHost} {a : MscStep} (h : mscStep s a = some t) :
    Effect s a t ∧ (s.control.resets = true → t.control.resets = true ∨ t.state = .inactive) := by
  rcases callerEffect_of_step h with ⟨i, io, rfl⟩ | hcaller
  · obtain ⟨heffect, hcontrol⟩ := effect_host h
    exact ⟨heffect, fun hresets => Or.inl (hcontrol ▸ hresets)⟩
  · refine ⟨?_, hcaller.resets⟩
    rcases hcaller.state with hsame | hother
    · exact effect_of_same hcaller.devices hsame
    · exact effect_of_state hcaller.devices hother

/-! ## Mounted means mounted -/

theorem registered_set_none {devices : List (Option MscEntry)} {slot other : Nat}
    (hne : other ≠ slot) (h : Registered devices other) :
    Registered (devices.set slot none) other := by
  obtain ⟨e, he, hvfs⟩ := h
  exact ⟨e, by rw [List.getElem?_set_ne hne.symm, he], hvfs⟩

theorem Effect.mountedMeansMounted {s t : MscHost} {a : MscStep} (h : Effect s a t)
    (hs : MountedMeansMounted s) (hkeeps : KeepsOne s a) : MountedMeansMounted t := by
  intro hmounted
  cases h with
  | keeps hdevices hstate =>
      rw [hdevices]
      exact hs (hstate hmounted)
  | registers slot hslot => exact ⟨slot, hslot⟩
  | empties slot hemptied hdevices hstate =>
      rw [MscHost.isMounted, hstate] at hmounted
      obtain ⟨other, hne, hother⟩ := hkeeps slot hemptied hmounted
      rw [hdevices]
      exact ⟨other, registered_set_none hne hother⟩

theorem mountedMeansMounted_initial (maxMscDevices : Nat) :
    MountedMeansMounted (MscHost.initial maxMscDevices) := nofun

/-- One step, outside of the calls that reset the state. -/
theorem step_outside {s t : MscHost} {a : MscStep}
    (hs : s.control.resets = false → MountedMeansMounted s)
    (hgood : s.control.resets = true ∨ KeepsOne s a) (hstep : mscStep s a = some t) :
    t.control.resets = false → MountedMeansMounted t := by
  obtain ⟨heffect, hresets⟩ := effect_of_step hstep
  intro ht hmounted
  rcases Bool.eq_false_or_eq_true s.control.resets with hin | hout
  · rcases hresets hin with hstill | hreset
    · rw [ht] at hstill
      cases hstill
    · rw [MscHost.isMounted, hreset] at hmounted
      cases hmounted
  · refine heffect.mountedMeansMounted (hs hout) ?_ hmounted
    exact hgood.resolve_left (by rw [hout]; decide)

/-- As long as every step that empties a slot of a mounted module leaves a registered filesystem,
mounted means mounted.  It does so at least outside of the calls that reset the state if only the
steps outside of these calls are such steps. -/
theorem mountedMeansMounted_of_keepsOne {maxMscDevices : Nat} {steps : List MscStep} {t : MscHost}
    (hrun : run mscStep (MscHost.initial maxMscDevices) steps = some t) :
    (AllSteps mscStep KeepsOne (MscHost.initial maxMscDevices) steps → MountedMeansMounted t) ∧
      (AllSteps mscStep (fun s a => s.control.resets = true ∨ KeepsOne s a)
          (MscHost.initial maxMscDevices) steps →
        t.control.resets = false → MountedMeansMounted t) := by
  constructor
  · intro hgood
    have hstep : ∀ s a t, MountedMeansMounted s → KeepsOne s a → mscStep s a = some t →
        MountedMeansMounted t :=
      fun _ _ _ hs hkeeps h => (effect_of_step h).1.mountedMeansMounted hs hkeeps
    exact run_invariant_of_good hstep (mountedMeansMounted_initial maxMscDevices) hgood hrun
  · intro hgood
    have hstep : ∀ s a t, (s.control.resets = false → MountedMeansMounted s) →
        (s.control.resets = true ∨ KeepsOne s a) → mscStep s a = some t →
        t.control.resets = false → MountedMeansMounted t :=
      fun _ _ _ hs hgood h => step_outside hs hgood h
    exact run_invariant_of_good hstep
      (fun _ => mountedMeansMounted_initial maxMscDevices) hgood hrun

/-- Start, and a device that connects. -/
def mountSteps : List MscStep :=
  [.start, .activate, .clearStop, .emptySem, .create true, .storeHandle,
    .host 0 {}, .host 0 {}, .host 0 {}, .event ⟨1, 0, true⟩,
    .host 0 { installed := .ok 7, registered := .ok 9 }, .host 0 {}, .host 0 {}, .takeMounted]

/-- The state after them, with the given contents of the slots. -/
def mountedHost (devices : List (Option MscEntry)) (pc : TaskPc) : MscHost where
  devices := devices
  state := .mounted
  taskHandle := some 0
  eventQueue := []
  mountedSem := false
  stop := false
  control := .idle
  tasks := [⟨0, pc⟩]
  nextTask := 1

theorem keepsOne_of_none {s : MscHost} {a : MscStep} (h : emptiedSlot s a = none) :
    KeepsOne s a := by
  intro slot hslot
  rw [h] at hslot
  cases hslot

/-- A device is mounted by a start and nothing else happens. -/
theorem mountedMeansMounted_of_keepsOne_mount :
    MountedMeansMounted (mountedHost [some ⟨1, 7, some 9⟩, none] .loop) := by
  have hrun : run mscStep (MscHost.initial 2) mountSteps =
      some (mountedHost [some ⟨1, 7, some 9⟩, none] .loop) := by decide +kernel
  have hnone : AllSteps mscStep (fun s a => emptiedSlot s a = none) (MscHost.initial 2)
      mountSteps := by decide +kernel
  exact (mountedMeansMounted_of_keepsOne hrun).1 (hnone.mono fun _ _ => keepsOne_of_none)

/-- The device disconnects: the module stays mounted with empty slots. -/
theorem mounted_after_disconnect :
    run mscStep (MscHost.initial 2) (mountSteps ++ [.event ⟨0, 7, false⟩, .host 0 {}]) =
        some (mountedHost [none, none] (.check false)) ∧
      (mountedHost [none, none] (.check false)).isMounted = true ∧
      ¬ MountedMeansMounted (mountedHost [none, none] (.check false)) := by
  refine ⟨by decide +kernel, rfl, fun h => ?_⟩
  obtain ⟨slot, e, he, _⟩ := h rfl
  match slot, he with
  | 0, he => cases he
  | 1, he => cases he

end Esp32Deskflow.UsbHost
