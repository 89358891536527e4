/-
  UsbHost/DeviceSlots.lean --- the slot table of `usb_host_msc.c` and the drivers behind it.

  `msc_host_install_device` and `msc_host_vfs_register` hand out handles, which are taken
  back once: a second `msc_host_uninstall_device` or `msc_host_vfs_unregister` of a handle
  has no meaning.  The functions of the table are modelled with these calls.
-/
import Esp32Deskflow.Foundation.HandleTable
import Esp32Deskflow.Libc.Format
import Esp32Deskflow.UsbHost.UsbHostMsc

set_option autoImplicit false

namespace Esp32Deskflow.UsbHost

open Esp32Deskflow.Foundation Esp32Deskflow.Foundation.Transition
open Esp32Deskflow.Foundation.HandleTable Esp32Deskflow.Libc

/-! ## The drivers -/

/-- A registered filesystem. -/
structure MscMount where
  vfsHandle : Option Nat
  mscDevice : Nat
  path : Bytes
  deriving DecidableEq, Repr

/-- The devices that are installed and the filesystems that are registered. -/
structure MscDrivers where
  installed : Finset Nat
  registered : Finset MscMount
  deriving DecidableEq

/-- `msc_host_install_device`, when it succeeds. -/
def MscDrivers.installDevice (d : MscDrivers) (device : Nat) : MscDrivers :=
  { d with installed := insert device d.installed }

/-- `msc_host_vfs_register`, when it succeeds. -/
def MscDrivers.vfsRegister (d : MscDrivers) (device : Nat) (path : Bytes) (vfs : Nat) :
    MscDrivers :=
  { d with registered := insert ⟨some vfs, device, path⟩ d.registered }

/-- `msc_host_vfs_unregister`. -/
def MscDrivers.vfsUnregister (d : MscDrivers) (vfs : Nat) : Option MscDrivers :=
  (release MscMount.vfsHandle d.registered (some vfs)).map fun registered => { d with registered }

/-- `msc_host_uninstall_device`. -/
def MscDrivers.uninstallDevice (d : MscDrivers) (device : Nat) : Option MscDrivers :=
  (release id d.installed device).map fun installed => { d with installed }

/-! ## The slot table -/

/-- `s_devices`, and the drivers. -/
structure MscDevices where
  slots : List (Option MscEntry)
  drivers : MscDrivers
  deriving DecidableEq

/-- No device, and `maxMscDevices` slots. -/
def MscDevices.empty (maxMscDevices : Nat) : MscDevices where
  slots := List.replicate maxMscDevices none
  drivers := ⟨∅, ∅⟩

/-- `snprintf(path, sizeof(path), MOUNT_PATH_PREFIX "%d", slot)`, into 16 bytes. -/
def mountPath (slot : Nat) : Bytes := (ascii "/usb" ++ decimal slot).take 15

/-- `handle_device_connected` with its calls of the drivers. -/
def handleDeviceConnectedCalls (s : MscDevices) (addr : UInt8) (io : HostIo) :
    Option (EspErr × MscDevices) :=
  match findFreeSlot s.slots with
  | none => some (.notFound, s)
  | some slot =>
      if !io.allocated then some (.noMem, s)
      else
        match io.installed with
        | .error err => some (err, s)
        | .ok device =>
            let drivers := s.drivers.installDevice device
            match io.registered with
            | .error err =>
                (drivers.uninstallDevice device).map fun drivers => (err, { s with drivers })
            | .ok vfs =>
                some (.ok, {
                  slots := s.slots.set slot (some ⟨addr, device, some vfs⟩)
                  drivers := drivers.vfsRegister device (mountPath slot) vfs })

/-- The calls for the entry of a device that has gone.  The device handle of an entry is never
`NULL`. -/
def MscDrivers.removeEntry (d : MscDrivers) (e : MscEntry) : Option MscDrivers :=
  let unregistered :=
    match e.vfsHandle with
    | some vfs => d.vfsUnregister vfs
    | none => some d
  unregistered.bind fun d => d.uninstallDevice e.mscDevice

/-- `handle_device_disconnected` with its calls of the drivers. -/
def handleDeviceDisconnectedCalls (s : MscDevices) (handle : Nat) : Option MscDevices :=
  match findSlotByHandle s.slots handle with
  | none => some s
  | some slot =>
      s.slots[slot]?.join.bind fun e =>
        (s.drivers.removeEntry e).map fun drivers => ⟨s.slots.set slot none, drivers⟩

/-- An event that a host task takes from its queue. -/
def eventCalls (s : MscDevices) (event : MscEventMsg × HostIo) : Option MscDevices :=
  if event.1.connected then (handleDeviceConnectedCalls s event.1.usbAddr event.2).map (·.2)
  else handleDeviceDisconnectedCalls s event.1.handle

/-- One slot of the cleanup of `usb_host_task`. -/
def cleanupSlotCalls (s : MscDevices) (slot : Nat) : Option MscDevices :=
  match s.slots[slot]? with
  | some (some e) => handleDeviceDisconnectedCalls s e.mscDevice
  | _ => some s

/-- The cleanup of `usb_host_task`. -/
def cleanupCalls (s : MscDevices) : Option MscDevices :=
  (List.range s.slots.length).foldlM cleanupSlotCalls s

/-! ## The table of the host tasks -/

theorem handleDeviceConnectedCalls_slots {s : MscHost} {d : MscDrivers} {addr : UInt8}
    {io : HostIo} {ret : EspErr} {t : MscDevices}
    (h : handleDeviceConnectedCalls ⟨s.devices, d⟩ addr io = some (ret, t)) :
    (handleDeviceConnected s addr io).1 = ret ∧
      (handleDeviceConnected s addr io).2.devices = t.slots := by
  unfold handleDeviceConnectedCalls at h
  unfold handleDeviceConnected
  cases hslot : findFreeSlot s.devices with
  | none =>
      simp only [hslot] at h
      cases h
      exact ⟨rfl, rfl⟩
  | some slot =>
      simp only [hslot] at h ⊢
      split at h
      · rename_i halloc
        cases h
        rw [if_pos halloc]
        exact ⟨rfl, rfl⟩
      · rename_i halloc
        rw [if_neg halloc]
        cases hinst : io.installed with
        | error err =>
            simp only [hinst] at h
            cases h
            exact ⟨rfl, rfl⟩
        | ok device =>
            simp only [hinst] at h ⊢
            cases hreg : io.registered with
            | error err =>
                simp only [hreg] at h
                obtain ⟨drivers, _, heq⟩ := Option.map_eq_some_iff.mp h
                cases heq
                exact ⟨rfl, rfl⟩
            | ok vfs =>
                simp only [hreg] at h ⊢
                cases h
                split
                · exact ⟨rfl, rfl⟩
                · exact ⟨rfl, rfl⟩

theorem handleDeviceDisconnectedCalls_slots {s : MscHost} {d : MscDrivers} {handle : Nat}
    {t : MscDevices} (h : handleDeviceDisconnectedCalls ⟨s.devices, d⟩ handle = some t) :
    (handleDeviceDisconnected s handle).devices = t.slots := by
  unfold handleDeviceDisconnectedCalls at h
  unfold handleDeviceDisconnected
  cases hslot : findSlotByHandle s.devices handle with
  | none =>
      simp only [hslot] at h
      cases h
      rfl
  | some slot =>
      simp only [hslot] at h
      obtain ⟨e, _, h⟩ := Option.bind_eq_some_iff.mp h
      obtain ⟨drivers, _, heq⟩ := Option.map_eq_some_iff.mp h
      cases heq
      rfl

/-- The calls leave the table that a turn of the event loop leaves. -/
theorem eventCalls_slots {s : MscHost} {d : MscDrivers} {msg : MscEventMsg}
    {queue : List MscEventMsg} {io : HostIo} {t : MscDevices} (hqueue : s.eventQueue = msg :: queue)
    (h : eventCalls ⟨s.devices, d⟩ (msg, io) = some t) : (s.handleEvent io).devices = t.slots := by
  unfold eventCalls at h
  unfold MscHost.handleEvent
  rw [hqueue]
  simp only at h ⊢
  split at h
  · rename_i hconnected
    obtain ⟨⟨ret, u⟩, hcalls, heq⟩ := Option.map_eq_some_iff.mp h
    cases heq
    rw [if_pos hconnected]
    have hsame : handleDeviceConnectedCalls ⟨{ s with eventQueue := queue }.devices, d⟩
        msg.usbAddr io = some (ret, u) := hcalls
    exact (handleDeviceConnectedCalls_slots hsame).2
  · rename_i hdisconnected
    rw [if_neg hdisconnected]
    have hsame : handleDeviceDisconnectedCalls ⟨{ s with eventQueue := queue }.devices, d⟩
        msg.handle = some t := h
    exact handleDeviceDisconnectedCalls_slots hsame

/-- The calls leave the table that a slot of the cleanup leaves. -/
theorem cleanupSlotCalls_slots {s : MscHost} {d : MscDrivers} {slot : Nat} {t : MscDevices}
    (h : cleanupSlotCalls ⟨s.devices, d⟩ slot = some t) :
    (s.cleanupSlot slot).devices = t.slots := by
  rcases hslot : s.devices[slot]? with _ | _ | e
  · simp only [cleanupSlotCalls, hslot, Option.some.injEq] at h
    simp only [MscHost.cleanupSlot, hslot, ← h]
  · simp only [cleanupSlotCalls, hslot, Option.some.injEq] at h
    simp only [MscHost.cleanupSlot, hslot, ← h]
  · simp only [cleanupSlotCalls, hslot] at h
    simp only [MscHost.cleanupSlot, hslot]
    exact handleDeviceDisconnectedCalls_slots h

/-! ## One device for each occupied slot -/

/-- The path of the filesystem in a slot. -/
def usbPath (slot : Nat) : Bytes := ascii "/usb" ++ decimal slot

theorem usbPath_injective : Function.Injective usbPath := by
  intro i j h
  have hdigits := List.append_cancel_left h
  rw [← digitsValue_decimal i, hdigits, digitsValue_decimal]

/-- The path fits into its array for every slot that an `int` can count. -/
theorem mountPath_eq {slot : Nat} (h : slot < 2 ^ 31) : mountPath slot = usbPath slot := by
  have hdigits : (decimal slot).length ≤ 10 := decimal_length_le (by omega) (by omega)
  refine List.take_of_length_le ?_
  rw [List.length_append]
  have hprefix : (ascii "/usb").length = 4 := by decide
  omega

/-- The filesystem of an occupied slot. -/
def mountOf (slot : Nat) (e : MscEntry) : MscMount := ⟨e.vfsHandle, e.mscDevice, usbPath slot⟩

/-- The occupied slots are those of the installed devices, one for each, and those of the
registered filesystems, one for each, at the path of the slot. -/
structure SlotsMatch (s : MscDevices) : Prop where
  installed : Accounts (fun _ e => e.mscDevice) id s.slots s.drivers.installed
  registered : Accounts mountOf MscMount.vfsHandle s.slots s.drivers.registered
  mounted : ∀ {i e}, HasEntry s.slots i e → e.vfsHandle.isSome
  counted : s.slots.length ≤ 2 ^ 31

theorem slotsMatch_empty {maxMscDevices : Nat} (h : maxMscDevices ≤ 2 ^ 31) :
    SlotsMatch (.empty maxMscDevices) where
  installed := accounts_replicate maxMscDevices
  registered := accounts_replicate maxMscDevices
  mounted hheld := by
    rw [HasEntry, MscDevices.empty, List.getElem?_replicate] at hheld
    split at hheld
    · cases hheld
    · cases hheld
  counted := by rwa [MscDevices.empty, List.length_replicate]

theorem findFreeSlot_free {slots : List (Option MscEntry)} {slot : Nat}
    (h : findFreeSlot slots = some slot) : slots[slot]? = some none := by
  obtain ⟨hlt, hnone, _⟩ := List.findIdx?_eq_some_iff_getElem.mp h
  rw [List.getElem?_eq_getElem hlt, Option.isNone_iff_eq_none.mp hnone]

theorem findSlotByHandle_hasEntry {slots : List (Option MscEntry)} {handle slot : Nat}
    (h : findSlotByHandle slots handle = some slot) :
    ∃ e, HasEntry slots slot e ∧ e.mscDevice = handle := by
  obtain ⟨hlt, hany, _⟩ := List.findIdx?_eq_some_iff_getElem.mp h
  obtain ⟨e, he, hhandle⟩ := (Option.any_eq_true _ _).mp hany
  exact ⟨e, by rw [HasEntry, List.getElem?_eq_getElem hlt, he], of_decide_eq_true hhandle⟩

/-- The handle of an entry is found. -/
theorem findSlotByHandle_of_hasEntry {slots : List (Option MscEntry)} {slot : Nat} {e : MscEntry}
    (h : HasEntry slots slot e) : findSlotByHandle slots e.mscDevice ≠ none := by
  intro hnone
  have hmem : some e ∈ slots := List.mem_of_getElem? h
  have hany := List.findIdx?_eq_none_iff.mp hnone _ hmem
  simp at hany

/-! ## Events -/

/-- A handle that a driver hands out is not one that is in use. -/
def FreshHandles (s : MscDevices) (event : MscEventMsg × HostIo) : Prop :=
  event.1.connected = true → ∀ device, event.2.installed = .ok device →
    Fresh id s.drivers.installed device ∧
      ∀ vfs, event.2.registered = .ok vfs →
        Fresh MscMount.vfsHandle s.drivers.registered (some vfs)

/-- A connect that fails changes nothing. -/
def FailedConnectKeeps (s : MscDevices) (event : MscEventMsg × HostIo) : Prop :=
  event.1.connected = true → ∀ ret t,
    handleDeviceConnectedCalls s event.1.usbAddr event.2 = some (ret, t) → ret ≠ .ok → t = s

/-- A connect: it fails and leaves everything as it was, or a free slot is filled. -/
theorem handleDeviceConnectedCalls_cases {s : MscDevices} {io : HostIo} (addr : UInt8)
    (hfresh : ∀ device, io.installed = .ok device → Fresh id s.drivers.installed device) :
    (∃ err, handleDeviceConnectedCalls s addr io = some (err, s)) ∨
      ∃ slot device vfs, s.slots[slot]? = some none ∧ io.installed = .ok device ∧
        io.registered = .ok vfs ∧
        handleDeviceConnectedCalls s addr io = some (.ok, {
          slots := s.slots.set slot (some ⟨addr, device, some vfs⟩)
          drivers :=
            (s.drivers.installDevice device).vfsRegister device (mountPath slot) vfs }) := by
  unfold handleDeviceConnectedCalls
  cases hslot : findFreeSlot s.slots with
  | none => exact Or.inl ⟨_, rfl⟩
  | some slot =>
      simp only
      split
      · exact Or.inl ⟨_, rfl⟩
      · cases hinst : io.installed with
        | error err => exact Or.inl ⟨_, rfl⟩
        | ok device =>
            cases hreg : io.registered with
            | error err =>
                -- the device is returned to its driver
                have hback : release id (insert device s.drivers.installed) device =
                    some s.drivers.installed := release_insert (hfresh device hinst)
                refine Or.inl ⟨err, ?_⟩
                simp only [MscDrivers.installDevice, MscDrivers.uninstallDevice, hback,
                  Option.map_some]
            | ok vfs => exact Or.inr ⟨slot, device, vfs, findFreeSlot_free hslot, rfl, rfl, rfl⟩

theorem failedConnectKeeps_of_fresh {s : MscDevices} {event : MscEventMsg × HostIo}
    (hfresh : FreshHandles s event) : FailedConnectKeeps s event := by
  intro hconnected ret t hcalls hfailed
  have hdevices := fun device hinst => (hfresh hconnected device hinst).1
  rcases handleDeviceConnectedCalls_cases event.1.usbAddr hdevices with
    ⟨err, heq⟩ | ⟨_, _, _, _, _, _, heq⟩
  · cases heq.symm.trans hcalls
    rfl
  · cases heq.symm.trans hcalls
    exact absurd rfl hfailed

/-- A free slot is filled. -/
theorem SlotsMatch.fill {s : MscDevices} (hs : SlotsMatch s) {slot device vfs : Nat}
    {addr : UInt8} (hfree : s.slots[slot]? = some none)
    (hdevice : Fresh id s.drivers.installed device)
    (hvfs : Fresh MscMount.vfsHandle s.drivers.registered (some vfs)) :
    SlotsMatch {
      slots := s.slots.set slot (some ⟨addr, device, some vfs⟩)
      drivers := (s.drivers.installDevice device).vfsRegister device (mountPath slot) vfs } := by
  have hlt : slot < s.slots.length := (List.getElem?_eq_some_iff.mp hfree).1
  have hmount : Fresh MscMount.vfsHandle s.drivers.registered
      (mountOf slot ⟨addr, device, some vfs⟩).vfsHandle := hvfs
  rw [mountPath_eq (Nat.lt_of_lt_of_le hlt hs.counted)]
  constructor
  · exact hs.installed.fill hfree hdevice
  · exact hs.registered.fill hfree hmount
  · intro i e he
    rcases (hasEntry_set_some_iff hlt).mp he with ⟨_, rfl⟩ | ⟨_, he⟩
    · rfl
    · exact hs.mounted he
  · rw [List.length_set]
    exact hs.counted

theorem slotsMatch_connected {s : MscDevices} {event : MscEventMsg × HostIo} (hs : SlotsMatch s)
    (hconnected : event.1.connected = true) (hfresh : FreshHandles s event) :
    ∃ ret t, handleDeviceConnectedCalls s event.1.usbAddr event.2 = some (ret, t) ∧
      SlotsMatch t := by
  have hdevices := fun device hinst => (hfresh hconnected device hinst).1
  rcases handleDeviceConnectedCalls_cases event.1.usbAddr hdevices with
    ⟨err, heq⟩ | ⟨slot, device, vfs, hfree, hinst, hreg, heq⟩
  · exact ⟨err, s, heq, hs⟩
  · obtain ⟨hdevice, hvfs⟩ := hfresh hconnected device hinst
    exact ⟨_, _, heq, hs.fill hfree hdevice (hvfs vfs hreg)⟩

/-- The entry of a slot can be returned to the drivers. -/
theorem SlotsMatch.clear {s : MscDevices} (hs : SlotsMatch s) {slot : Nat} {e : MscEntry}
    (hheld : HasEntry s.slots slot e) :
    ∃ drivers, s.drivers.removeEntry e = some drivers ∧
      SlotsMatch ⟨s.slots.set slot none, drivers⟩ := by
  obtain ⟨vfs, hvfs⟩ := Option.isSome_iff_exists.mp (hs.mounted hheld)
  obtain ⟨addr, device, handle⟩ := e
  cases hvfs
  have hunregister : release MscMount.vfsHandle s.drivers.registered (some vfs) = some _ :=
    hs.registered.release hheld
  have huninstall : release id s.drivers.installed device = some _ :=
    hs.installed.release hheld
  refine ⟨⟨_, _⟩, ?_, hs.installed.clear hheld, hs.registered.clear hheld, ?_, ?_⟩
  · simp only [MscDrivers.removeEntry, MscDrivers.vfsUnregister, MscDrivers.uninstallDevice,
      hunregister, huninstall, Option.map_some, Option.bind_some]
    rfl
  · intro i e' he'
    exact hs.mounted (hasEntry_set_none_iff.mp he').2
  · rw [List.length_set]
    exact hs.counted

theorem SlotsMatch.findSlotByHandle_eq {s : MscDevices} (hs : SlotsMatch s) {slot : Nat}
    {e : MscEntry} (hheld : HasEntry s.slots slot e) :
    findSlotByHandle s.slots e.mscDevice = some slot := by
  cases hfound : findSlotByHandle s.slots e.mscDevice with
  | none => exact absurd hfound (findSlotByHandle_of_hasEntry hheld)
  | some found =>
      obtain ⟨e', he', hdevice⟩ := findSlotByHandle_hasEntry hfound
      rw [hs.installed.unique he' hheld hdevice]

/-- A device in a slot disconnects. -/
theorem SlotsMatch.disconnect {s : MscDevices} (hs : SlotsMatch s) {slot : Nat} {e : MscEntry}
    (hheld : HasEntry s.slots slot e) :
    ∃ drivers, handleDeviceDisconnectedCalls s e.mscDevice =
        some ⟨s.slots.set slot none, drivers⟩ ∧ SlotsMatch ⟨s.slots.set slot none, drivers⟩ := by
  obtain ⟨drivers, hremove, hmatch⟩ := hs.clear hheld
  refine ⟨drivers, ?_, hmatch⟩
  have hentry : s.slots[slot]?.join = some e := by rw [hheld, Option.join_some]
  simp only [handleDeviceDisconnectedCalls, hs.findSlotByHandle_eq hheld, hentry, hremove,
    Option.bind_some, Option.map_some]

theorem slotsMatch_disconnected {s : MscDevices} (hs : SlotsMatch s) (handle : Nat) :
    ∃ t, handleDeviceDisconnectedCalls s handle = some t ∧ SlotsMatch t := by
  cases hfound : findSlotByHandle s.slots handle with
  | none => exact ⟨s, by rw [handleDeviceDisconnectedCalls, hfound], hs⟩
  | some slot =>
      obtain ⟨e, hheld, rfl⟩ := findSlotByHandle_hasEntry hfound
      obtain ⟨drivers, hcalls, hmatch⟩ := hs.disconnect hheld
      exact ⟨_, hcalls, hmatch⟩

theorem slotsMatch_event {s : MscDevices} {event : MscEventMsg × HostIo} (hs : SlotsMatch s)
    (hfresh : FreshHandles s event) : ∃ t, eventCalls s event = some t ∧ SlotsMatch t := by
  unfold eventCalls
  split
  · rename_i hconnected
    obtain ⟨ret, t, hcalls, hmatch⟩ := slotsMatch_connected hs hconnected hfresh
    exact ⟨t, by rw [hcalls, Option.map_some], hmatch⟩
  · exact slotsMatch_disconnected hs event.1.handle

/-- Every filesystem has a path of its own. -/
theorem SlotsMatch.path_injOn {s : MscDevices} (hs : SlotsMatch s) :
    Set.InjOn MscMount.path s.drivers.registered := by
  intro m hm m' hm' hpath
  obtain ⟨i, e, he, rfl⟩ := (hs.registered.mem_iff m).mp hm
  obtain ⟨j, e', he', rfl⟩ := (hs.registered.mem_iff m').mp hm'
  have hij : i = j := usbPath_injective hpath
  subst hij
  rw [he.unique he']

/-! ## The cleanup -/

theorem slotsMatch_cleanupSlot {s : MscDevices} (hs : SlotsMatch s) (slot : Nat) :
    ∃ t, cleanupSlotCalls s slot = some t ∧ SlotsMatch t ∧
      ∀ i e, HasEntry t.slots i e → i ≠ slot ∧ HasEntry s.slots i e := by
  unfold cleanupSlotCalls
  split
  · rename_i e hheld
    obtain ⟨drivers, hcalls, hmatch⟩ := hs.disconnect hheld
    exact ⟨_, hcalls, hmatch, fun i e' he' => hasEntry_set_none_iff.mp he'⟩
  · rename_i hempty
    refine ⟨s, rfl, hs, fun i e he => ⟨?_, he⟩⟩
    rintro rfl
    exact hempty e he

/-- The cleanup of some slots empties them and fills none. -/
theorem slotsMatch_cleanupSlots {s : MscDevices} (hs : SlotsMatch s) (slots : List Nat) :
    ∃ t, slots.foldlM cleanupSlotCalls s = some t ∧ SlotsMatch t ∧
      ∀ i e, HasEntry t.slots i e → i ∉ slots ∧ HasEntry s.slots i e := by
  induction slots generalizing s with
  | nil => exact ⟨s, rfl, hs, fun i e he => ⟨List.not_mem_nil, he⟩⟩
  | cons slot slots ih =>
      obtain ⟨m, hm, hmatch, hfirst⟩ := slotsMatch_cleanupSlot hs slot
      obtain ⟨t, ht, hmatch, hrest⟩ := ih hmatch
      refine ⟨t, ?_, hmatch, fun i e he => ?_⟩
      · rw [List.foldlM_cons, hm]
        exact ht
      · obtain ⟨hnot, he⟩ := hrest i e he
        obtain ⟨hne, he⟩ := hfirst i e he
        exact ⟨List.not_mem_cons_of_ne_of_not_mem hne hnot, he⟩

/-- After the cleanup all slots are empty, and nothing is installed or registered. -/
theorem cleanupCalls_empty {s : MscDevices} (hs : SlotsMatch s) :
    ∃ t, cleanupCalls s = some t ∧ (∀ i e, ¬ HasEntry t.slots i e) ∧ t.drivers = ⟨∅, ∅⟩ := by
  obtain ⟨t, ht, hmatch, hempty⟩ := slotsMatch_cleanupSlots hs (List.range s.slots.length)
  have hnone : ∀ i e, ¬ HasEntry t.slots i e := by
    intro i e he
    obtain ⟨hnot, he⟩ := hempty i e he
    exact hnot (List.mem_range.mpr he.lt_length)
  refine ⟨t, ht, hnone, ?_⟩
  rw [← hmatch.installed.eq_empty hnone, ← hmatch.registered.eq_empty hnone]

/-! ## Every sequence of events -/

/-- Over every sequence of events: no device is uninstalled and no filesystem unregistered
twice, the occupied slots match the devices and filesystems, each at a path of its own, a connect
that fails changes nothing, and the cleanup returns everything. -/
theorem eventCalls_slotsMatch {maxMscDevices : Nat} (hint : maxMscDevices ≤ 2 ^ 31)
    {events : List (MscEventMsg × HostIo)}
    (hfresh : AllSteps eventCalls FreshHandles (.empty maxMscDevices) events) :
    AllSteps eventCalls FailedConnectKeeps (.empty maxMscDevices) events ∧
      ∃ t, run eventCalls (.empty maxMscDevices) events = some t ∧ SlotsMatch t ∧
        Set.InjOn MscMount.path t.drivers.registered ∧
        ∃ u, cleanupCalls t = some u ∧ (∀ i e, ¬ HasEntry u.slots i e) ∧ u.drivers = ⟨∅, ∅⟩ := by
  refine ⟨hfresh.mono fun _ _ => failedConnectKeeps_of_fresh, ?_⟩
  have hstep : ∀ s event, SlotsMatch s → FreshHandles s event →
      ∃ t, eventCalls s event = some t ∧ SlotsMatch t :=
    fun _ _ hs hfresh => slotsMatch_event hs hfresh
  obtain ⟨t, hrun, hmatch⟩ := run_total_of_good hstep (slotsMatch_empty hint) hfresh
  exact ⟨t, hrun, hmatch, hmatch.path_injOn, cleanupCalls_empty hmatch⟩

instance decidableForallOk {ε α : Type} (r : Except ε α) (p : α → Prop) [DecidablePred p] :
    Decidable (∀ x, r = .ok x → p x) :=
  match r with
  | .error _ => isTrue nofun
  | .ok x => decidable_of_iff (p x) ⟨fun hp _ hx => Except.ok.inj hx ▸ hp, fun h => h x rfl⟩

instance (s : MscDevices) (event : MscEventMsg × HostIo) : Decidable (FreshHandles s event) :=
  inferInstanceAs (Decidable (_ → ∀ device, event.2.installed = .ok device → _ ∧ _))

/-- Two devices connect, of which the first cannot be registered at once; it connects again into
the second slot, both disconnect in this order, and so does a device that is not known. -/
def deviceEvents : List (MscEventMsg × HostIo) :=
  [(⟨1, 0, true⟩, { installed := .ok 7, registered := .error .noMem }),
    (⟨2, 0, true⟩, { installed := .ok 8, registered := .ok 3 }),
    (⟨1, 0, true⟩, { installed := .ok 7, registered := .ok 4 }),
    (⟨2, 8, false⟩, {}), (⟨1, 7, false⟩, {}), (⟨3, 5, false⟩, {})]

theorem eventCalls_slotsMatch_twoDevices :
    ∃ t, run eventCalls (.empty 2) deviceEvents = some t ∧ SlotsMatch t := by
  have hfresh : AllSteps eventCalls FreshHandles (.empty 2) deviceEvents := by decide +kernel
  obtain ⟨_, t, hrun, hmatch, _⟩ := eventCalls_slotsMatch (by decide) hfresh
  exact ⟨t, hrun, hmatch⟩

end Esp32Deskflow.UsbHost
