/-
  Tusb/Duplicates.lean --- what the duplicate check drops.

  A key or button call that repeats the last one within 30 ms is dropped.  The last call
  is remembered before it is known to enter the queue, and LEAVE and DISCONNECTED,
  which release everything, do not touch the memory.
-/
import Esp32Deskflow.Tusb.Delivery

set_option autoImplicit false

namespace Esp32Deskflow.Tusb

open Esp32Deskflow.Foundation Esp32Deskflow.Foundation.Transition

/-! ## The memory of the duplicate check -/

/-- Keys and buttons have a memory each. -/
inductive Device where
  | keyboard | mouse
  deriving DecidableEq, Repr

/-- What the duplicate check compares. -/
inductive InputId where
  | key (type : ActCmdType) (key mask : UInt16)
  | button (type : ActCmdType) (button : Int8)
  deriving DecidableEq, Repr

/-- The device whose memory it is in. -/
def InputId.device : InputId → Device
  | .key _ _ _ => .keyboard
  | .button _ _ => .mouse

/-- The identity of a command that is checked by key or button. -/
def ActCmd.inputId : ActCmd → Option InputId
  | .keyDown key mask _ => some (.key .keyDown key mask)
  | .keyUp key mask _ => some (.key .keyUp key mask)
  | .mouseDown button => some (.button .mouseDown button)
  | .mouseUp button => some (.button .mouseUp button)
  | _ => none

/-- The command and the time that are remembered for a device. -/
def TusbActuator.memory (act : TusbActuator) : Device → InputId × UInt64
  | .keyboard =>
      (.key act.lastQueuedKbType act.lastQueuedKbKey act.lastQueuedKbMask, act.lastQueuedKbTime)
  | .mouse => (.button act.lastQueuedBtnType act.lastQueuedBtnId, act.lastQueuedBtnTime)

/-- The memory of the device has this command, from less than `ACT_DEDUP_MS` ago. -/
def TusbActuator.Matches (act : TusbActuator) (id : InputId) (now : UInt64) : Prop :=
  (act.memory id.device).1 = id ∧ now - (act.memory id.device).2 < actDedupMs

instance (act : TusbActuator) (id : InputId) (now : UInt64) : Decidable (act.Matches id now) :=
  inferInstanceAs (Decidable (_ ∧ _))

theorem queueKey_spec (act : TusbActuator) (type : ActCmdType) (cmd : ActCmd) (key mask : UInt16)
    (now : UInt64) :
    (act.Matches (.key type key mask) now ∧
      act.queueKey type cmd key mask now = (act, .returns)) ∨
    ∃ act', act.queueKey type cmd key mask now = (act', .sends cmd) ∧
      act'.memory .keyboard = (.key type key mask, now) ∧
      act'.memory .mouse = act.memory .mouse := by
  have hmatches : act.Matches (.key type key mask) now ↔ act.lastQueuedKbType = type ∧
      act.lastQueuedKbKey = key ∧ act.lastQueuedKbMask = mask ∧
      now - act.lastQueuedKbTime < actDedupMs := by
    simp only [TusbActuator.Matches, TusbActuator.memory, InputId.device, InputId.key.injEq,
      and_assoc]
  unfold TusbActuator.queueKey
  split
  · next hsame => exact Or.inl ⟨hmatches.mpr hsame, rfl⟩
  · exact Or.inr ⟨_, rfl, rfl, rfl⟩

theorem queueButton_spec (act : TusbActuator) (type : ActCmdType) (cmd : ActCmd) (button : Int8)
    (now : UInt64) :
    (act.Matches (.button type button) now ∧
      act.queueButton type cmd button now = (act, .returns)) ∨
    ∃ act', act.queueButton type cmd button now = (act', .sends cmd) ∧
      act'.memory .mouse = (.button type button, now) ∧
      act'.memory .keyboard = act.memory .keyboard := by
  have hmatches : act.Matches (.button type button) now ↔ act.lastQueuedBtnType = type ∧
      act.lastQueuedBtnId = button ∧ now - act.lastQueuedBtnTime < actDedupMs := by
    simp only [TusbActuator.Matches, TusbActuator.memory, InputId.device, InputId.button.injEq,
      and_assoc]
  unfold TusbActuator.queueButton
  split
  · next hsame => exact Or.inl ⟨hmatches.mpr hsame, rfl⟩
  · exact Or.inr ⟨_, rfl, rfl, rfl⟩

/-- A key or button call returns at once on a match, and otherwise remembers its command. -/
theorem enterCall_input {act : TusbActuator} {cmd : ActCmd} {id : InputId} {now : UInt64}
    (hid : cmd.inputId = some id) :
    (act.Matches id now ∧ enterCall act cmd now = (act, .returns)) ∨
    ∃ act', enterCall act cmd now = (act', .sends cmd) ∧ act'.memory id.device = (id, now) ∧
      ∀ device, device ≠ id.device → act'.memory device = act.memory device := by
  have hkey : ∀ act' : TusbActuator, act'.memory .mouse = act.memory .mouse →
      ∀ device, device ≠ .keyboard → act'.memory device = act.memory device := by
    intro act' hother device hne
    cases device with
    | keyboard => exact absurd rfl hne
    | mouse => exact hother
  have hbutton : ∀ act' : TusbActuator, act'.memory .keyboard = act.memory .keyboard →
      ∀ device, device ≠ .mouse → act'.memory device = act.memory device := by
    intro act' hother device hne
    cases device with
    | keyboard => exact hother
    | mouse => exact absurd rfl hne
  cases cmd with
  | keyDown key mask button | keyUp key mask button =>
      cases hid
      rcases queueKey_spec act _ _ key mask now with hsame | ⟨act', hcall, hmemory, hother⟩
      · exact Or.inl hsame
      · exact Or.inr ⟨act', hcall, hmemory, hkey act' hother⟩
  | mouseDown button | mouseUp button =>
      cases hid
      rcases queueButton_spec act _ _ button now with hsame | ⟨act', hcall, hmemory, hother⟩
      · exact Or.inl hsame
      · exact Or.inr ⟨act', hcall, hmemory, hbutton act' hother⟩
  | _ => cases hid

/-- The other calls leave the memory alone. -/
theorem enterCall_other {act : TusbActuator} {cmd : ActCmd} {now : UInt64}
    (hid : cmd.inputId = none) (device : Device) :
    (enterCall act cmd now).1.memory device = act.memory device := by
  cases cmd with
  | keyDown key mask button | keyUp key mask button => cases hid
  | mouseDown button | mouseUp button => cases hid
  | mouseWheel dx dy =>
      unfold enterCall actuatorQueueMouseWheel
      dsimp only
      split
      · rfl
      · cases device <;> rfl
  | _ => rfl

/-! ## The history of the calls -/

/-- A call that did not return at once: its command, its time, and whether `xQueueSend` has put the
command into the queue. -/
structure Attempt where
  cmd : ActCmd
  time : UInt64
  queued : Bool
  deriving DecidableEq, Repr

/-- The time of the last call and the attempts so far, the newest first. -/
structure CallLog where
  clock : UInt64
  attempts : List Attempt
  deriving DecidableEq, Repr

/-- The command of the attempt got into the queue. -/
def Attempt.markQueued (a : Attempt) : Attempt := { a with queued := true }

/-- The log after a step of the network task. -/
def CallLog.next (d : Delivery) (label : DeliveryLabel) (log : CallLog) : CallLog :=
  match label with
  | .call cmd now =>
      { clock := now
        attempts := if (enterCall d.act cmd now).2 = .returns then log.attempts
          else ⟨cmd, now, false⟩ :: log.attempts }
  | .send => { log with attempts := log.attempts.modifyHead Attempt.markQueued }
  | _ => log

/-- The tasks at the queue, with the log beside them. -/
def loggedStep : Delivery × CallLog → DeliveryLabel → Option (Delivery × CallLog) :=
  withGhost deliveryStep CallLog.next

/-- No call before 30 ms after boot. -/
def loggedInit (screenWidth screenHeight : UInt16) : Delivery × CallLog :=
  (Delivery.init screenWidth screenHeight, { clock := 30, attempts := [] })

/-- The times of the calls, in order. -/
def callTimes (labels : List DeliveryLabel) : List UInt64 :=
  labels.filterMap fun
    | .call _ now => some now
    | _ => none

/-- The command releases all keys and buttons. -/
def ActCmd.releasesAll : ActCmd → Bool
  | .leave | .disconnected => true
  | _ => false

/-- The first command ends what the second one has begun: it is the opposite command for the same
key or button, or it releases everything. -/
def ActCmd.undoes (other cmd : ActCmd) : Bool :=
  other.releasesAll || match other, cmd with
    | .keyUp key _ _, .keyDown key' _ _ => key = key'
    | .keyDown key _ _, .keyUp key' _ _ => key = key'
    | .mouseUp button, .mouseDown button' => button = button'
    | .mouseDown button, .mouseUp button' => button = button'
    | _, _ => false

/-- The attempt is a key or button command of this device. -/
def Attempt.ofDevice (device : Device) (a : Attempt) : Bool :=
  a.cmd.inputId.any fun id => id.device = device

/-- If the call drops its command as a duplicate, an identical command has entered the queue less
than 30 ms before, and nothing that undoes it has entered the queue since. -/
def DropsInEffect (s : Delivery × CallLog) : DeliveryLabel → Prop
  | .call cmd now =>
      cmd.inputId.isSome → s.1.pc = .idle → (enterCall s.1.act cmd now).2 = .returns →
      ∃ since before a, s.2.attempts = since ++ a :: before ∧ a.queued = true ∧
        a.cmd.inputId = cmd.inputId ∧ a.time ≤ now ∧ now.toNat < a.time.toNat + 30 ∧
        ∀ b ∈ since, b.queued = true → b.cmd.undoes cmd = false
  | _ => True

/-- The attempt decides whether what the device has in its memory is in effect. -/
def Attempt.decides (device : Device) (a : Attempt) : Bool :=
  a.ofDevice device || (a.queued && a.cmd.releasesAll)

/-- If the call finds its command in the memory, the call that put it there has entered the queue,
and no LEAVE or DISCONNECTED has since. -/
def MemoryInEffect (s : Delivery × CallLog) : DeliveryLabel → Prop
  | .call cmd now => ∀ id ∈ cmd.inputId, s.1.act.Matches id now →
      ∀ a ∈ s.2.attempts.find? (Attempt.decides id.device),
        a.queued = true ∧ a.cmd.releasesAll = false
  | _ => True

instance (s : Delivery × CallLog) : (label : DeliveryLabel) → Decidable (MemoryInEffect s label)
  | .call _ _ => inferInstanceAs (Decidable (∀ id ∈ _, _ → _))
  | .send | .sendTimeout | .flush | .readDepth | .dump | .hidReceive =>
      inferInstanceAs (Decidable True)

/-! ## The memory is that of the newest attempt -/

/-- The time of a call is not before that of the last one. -/
def ClockRises (s : Delivery × CallLog) : DeliveryLabel → Prop
  | .call _ now => s.2.clock ≤ now
  | _ => True

theorem allSteps_clockRises {labels : List DeliveryLabel} {s : Delivery × CallLog}
    (htimes : (s.2.clock :: callTimes labels).IsChain (· ≤ ·)) :
    AllSteps loggedStep ClockRises s labels := by
  induction labels generalizing s with
  | nil => trivial
  | cons label labels ih =>
      cases label with
      | call cmd now =>
          obtain ⟨hle, hrest⟩ := List.isChain_cons_cons.mp htimes
          refine ⟨hle, fun t ht => ih ?_⟩
          rw [(withGhost_eq_some_iff.mp ht).2]
          exact hrest
      | _ =>
          refine ⟨trivial, fun t ht => ih ?_⟩
          rw [(withGhost_eq_some_iff.mp ht).2]
          exact htimes

/-- The newest attempt for a device: what is compared of its command, and its time. -/
def CallLog.lastTried (log : CallLog) (device : Device) : Option (Option InputId × UInt64) :=
  (log.attempts.find? (Attempt.ofDevice device)).map fun a => (a.cmd.inputId, a.time)

/-- A memory has the newest attempt, and before the first one its time is 0. -/
def Remembers (memory : InputId × UInt64) : Option (Option InputId × UInt64) → Prop
  | some (id, time) => id = some memory.1 ∧ time = memory.2
  | none => memory.2 = 0

/-- The memory of each device is that of the newest attempt. -/
structure LogInv (s : Delivery × CallLog) : Prop where
  clock : 30 ≤ s.2.clock
  times : ∀ a ∈ s.2.attempts, a.time ≤ s.2.clock
  memory : ∀ device, Remembers (s.1.act.memory device) (s.2.lastTried device)

theorem logInv_init (screenWidth screenHeight : UInt16) :
    LogInv (loggedInit screenWidth screenHeight) where
  clock := UInt64.le_refl _
  times := nofun
  memory := fun device => by cases device <;> rfl

/-- Between the calls only the queue changes. -/
theorem deliveryStep_queueOnly {d d' : Delivery} {label : DeliveryLabel}
    (hcall : ∀ cmd now, label ≠ .call cmd now) (hstep : deliveryStep d label = some d') :
    ∃ queue, d'.act = { d.act with cmdQueue := queue } := by
  cases label with
  | call cmd now => exact absurd rfl (hcall cmd now)
  | send =>
      simp only [deliveryStep] at hstep
      split at hstep
      · obtain ⟨act, hsend, rfl⟩ := Option.map_eq_some_iff.mp hstep
        exact ⟨_, (xQueueSend_spec hsend).2⟩
      · cases hstep
  | sendTimeout =>
      simp only [deliveryStep] at hstep
      split at hstep
      · split at hstep
        · cases hstep
          exact ⟨_, rfl⟩
        · cases hstep
      · cases hstep
  | flush =>
      simp only [deliveryStep] at hstep
      split at hstep
      · split at hstep
        · cases hstep
          exact ⟨_, rfl⟩
        · next cmd act hreceive =>
            obtain ⟨rest, -, hact⟩ := xQueueReceive_spec hreceive
            cases hstep
            exact ⟨rest, hact⟩
      · cases hstep
  | readDepth =>
      simp only [deliveryStep] at hstep
      split at hstep
      · cases hstep
        exact ⟨_, rfl⟩
      · cases hstep
  | dump =>
      simp only [deliveryStep] at hstep
      split at hstep
      · cases hstep
        exact ⟨_, rfl⟩
      · split at hstep
        · cases hstep
          exact ⟨_, rfl⟩
        · next cmd act hreceive =>
            obtain ⟨rest, -, hact⟩ := xQueueReceive_spec hreceive
            cases hstep
            exact ⟨rest, hact⟩
      · cases hstep
  | hidReceive =>
      simp only [deliveryStep] at hstep
      split at hstep
      · cases hstep
        exact ⟨_, rfl⟩
      · next cmd act hreceive =>
          obtain ⟨rest, -, hact⟩ := xQueueReceive_spec hreceive
          cases hstep
          exact ⟨rest, hact⟩

theorem find?_modifyHead_markQueued (attempts : List Attempt) (device : Device) :
    ((attempts.modifyHead Attempt.markQueued).find? (Attempt.ofDevice device)).map
        (fun a => (a.cmd.inputId, a.time)) =
      (attempts.find? (Attempt.ofDevice device)).map fun a => (a.cmd.inputId, a.time) := by
  cases attempts with
  | nil => rfl
  | cons a attempts =>
      have hsame : a.markQueued.ofDevice device = a.ofDevice device := rfl
      rw [List.modifyHead_cons, List.find?_cons, List.find?_cons, hsame]
      cases a.ofDevice device <;> rfl

theorem lastTried_cons (clock : UInt64) (a : Attempt) (attempts : List Attempt) (device : Device) :
    CallLog.lastTried ⟨clock, a :: attempts⟩ device =
      if a.ofDevice device then some (a.cmd.inputId, a.time)
      else CallLog.lastTried ⟨clock, attempts⟩ device := by
  unfold CallLog.lastTried
  rw [List.find?_cons]
  cases a.ofDevice device <;> rfl

theorem deliveryStep_call {d d' : Delivery} {cmd : ActCmd} {now : UInt64}
    (hstep : deliveryStep d (.call cmd now) = some d') :
    d'.act = (enterCall d.act cmd now).1 := by
  simp only [deliveryStep] at hstep
  split at hstep
  · split at hstep <;>
    · next heq =>
        cases hstep
        rw [heq]
  · cases hstep

/-- A call is remembered if it is tried. -/
theorem LogInv.call {s t : Delivery × CallLog} {cmd : ActCmd} {now : UInt64} (hinv : LogInv s)
    (hclock : s.2.clock ≤ now) (hact : t.1.act = (enterCall s.1.act cmd now).1)
    (hlog : t.2 = CallLog.next s.1 (.call cmd now) s.2) : LogInv t := by
  refine ⟨?_, ?_, fun device => ?_⟩
  · rw [hlog]
    exact UInt64.le_trans hinv.clock hclock
  · have hold : ∀ a ∈ s.2.attempts, a.time ≤ now := fun a ha =>
      UInt64.le_trans (hinv.times a ha) hclock
    rw [hlog]
    unfold CallLog.next
    dsimp only
    split
    · exact hold
    · intro a ha
      rcases List.mem_cons.mp ha with rfl | ha
      · exact UInt64.le_refl _
      · exact hold a ha
  · have hmemory := hinv.memory device
    rw [hlog, hact]
    unfold CallLog.next
    dsimp only
    cases hid : cmd.inputId with
    | none =>
        have hother : Attempt.ofDevice device ⟨cmd, now, false⟩ = false := by
          rw [Attempt.ofDevice, hid, Option.any_none]
        rw [enterCall_other hid device]
        split
        · exact hmemory
        · rw [lastTried_cons, hother]
          exact hmemory
    | some id =>
        rcases enterCall_input hid with ⟨-, hcall⟩ | ⟨act', hcall, hnew, hsame⟩
        · rw [hcall, if_pos rfl]
          exact hmemory
        · have hof : Attempt.ofDevice device ⟨cmd, now, false⟩ = decide (id.device = device) := by
            rw [Attempt.ofDevice, hid, Option.any_some]
          rw [hcall, if_neg nofun, lastTried_cons, hof]
          by_cases hdevice : id.device = device
          · subst hdevice
            rw [hnew]
            simp only [decide_true, if_true, hid]
            exact ⟨rfl, rfl⟩
          · rw [hsame device (Ne.symm hdevice)]
            simp only [hdevice, decide_false, Bool.false_eq_true, if_false]
            exact hmemory

theorem loggedStep_logInv {s t : Delivery × CallLog} {label : DeliveryLabel} (hinv : LogInv s)
    (hclock : ClockRises s label) (hstep : loggedStep s label = some t) : LogInv t := by
  obtain ⟨hstep, hlog⟩ := withGhost_eq_some_iff.mp hstep
  have hquiet : (∀ cmd now, label ≠ .call cmd now) → t.2.clock = s.2.clock →
      (∀ a ∈ t.2.attempts, a.time ≤ s.2.clock) →
      (∀ device, t.2.lastTried device = s.2.lastTried device) → LogInv t := by
    intro hcall hsame htimes htried
    obtain ⟨queue, hact⟩ := deliveryStep_queueOnly hcall hstep
    refine ⟨hsame ▸ hinv.clock, hsame ▸ htimes, fun device => ?_⟩
    rw [htried, hact]
    have hmemory := hinv.memory device
    cases device <;> exact hmemory
  cases label with
  | call cmd now => exact hinv.call hclock (deliveryStep_call hstep) hlog
  | send =>
      refine hquiet nofun (by rw [hlog]; rfl) ?_ fun device => ?_
      · rw [hlog]
        intro a ha
        have hold := hinv.times
        unfold CallLog.next at ha
        dsimp only at ha
        cases hattempts : s.2.attempts with
        | nil =>
            rw [hattempts] at ha
            cases ha
        | cons b attempts =>
            rw [hattempts] at ha hold
            rcases List.mem_cons.mp ha with rfl | ha
            · exact hold b List.mem_cons_self
            · exact hold a (List.mem_cons_of_mem b ha)
      · rw [hlog]
        exact find?_modifyHead_markQueued s.2.attempts device
  | _ =>
      refine hquiet nofun (by rw [hlog]; rfl) ?_ fun device => by rw [hlog]; rfl
      rw [hlog]
      exact hinv.times

/-! ## Dropped duplicates -/

/-- A command that undoes another one releases everything or is for the same device. -/
theorem undoes_cases {other cmd : ActCmd} {id : InputId} (hid : cmd.inputId = some id)
    (hundoes : other.undoes cmd = true) :
    other.releasesAll = true ∨ ∃ id', other.inputId = some id' ∧ id'.device = id.device := by
  cases cmd with
  | keyDown key mask button | keyUp key mask button | mouseDown button | mouseUp button =>
      cases hid
      cases other with
      | leave | disconnected => exact Or.inl rfl
      | keyDown key' mask' button' | keyUp key' mask' button' =>
          first
            | exact Or.inr ⟨_, rfl, rfl⟩
            | cases hundoes
      | mouseDown button' | mouseUp button' =>
          first
            | exact Or.inr ⟨_, rfl, rfl⟩
            | cases hundoes
      | _ => cases hundoes
  | _ => cases hid

/-- A match in time is a match by a call less than 30 ms ago. -/
theorem within_of_sub_lt {time now : UInt64} (hle : time ≤ now) (hlt : now - time < actDedupMs) :
    now.toNat < time.toNat + 30 := by
  have hle' := UInt64.le_iff_toNat_le.mp hle
  have hlt' := UInt64.lt_iff_toNat_lt.mp hlt
  have hwindow : actDedupMs.toNat = 30 := rfl
  rw [UInt64.toNat_sub_of_le _ _ hle, hwindow] at hlt'
  omega

/-- The memory that has not been written matches no call from 30 ms after boot on. -/
theorem not_matches_of_fresh {act : TusbActuator} {id : InputId} {now : UInt64} (hnow : 30 ≤ now)
    (hfresh : (act.memory id.device).2 = 0) : ¬ act.Matches id now := by
  rintro ⟨-, hlt⟩
  rw [hfresh, UInt64.sub_zero] at hlt
  exact UInt64.lt_irrefl _ (UInt64.lt_of_lt_of_le hlt hnow)

/-- Where the memory is in effect, only what is in effect is dropped. -/
theorem MemoryInEffect.drops {s : Delivery × CallLog} {label : DeliveryLabel} (hinv : LogInv s)
    (hclock : ClockRises s label) (h : MemoryInEffect s label) : DropsInEffect s label := by
  cases label with
  | call cmd now =>
      intro hinput _ hreturns
      obtain ⟨id, hid⟩ := Option.isSome_iff_exists.mp hinput
      have hmatch : s.1.act.Matches id now := by
        rcases enterCall_input hid with ⟨hmatch, -⟩ | ⟨act', hcall, -⟩
        · exact hmatch
        · rw [hcall] at hreturns
          cases hreturns
      have hmemory := hinv.memory id.device
      cases hfind : s.2.attempts.find? (Attempt.decides id.device) with
      | none =>
          have hnone : s.2.attempts.find? (Attempt.ofDevice id.device) = none := by
            rw [List.find?_eq_none] at hfind ⊢
            intro a ha hof
            exact hfind a ha (by rw [Attempt.decides, hof, Bool.true_or])
          rw [CallLog.lastTried, hnone] at hmemory
          have hnow : 30 ≤ now := UInt64.le_trans hinv.clock hclock
          exact absurd hmatch (not_matches_of_fresh hnow hmemory)
      | some a =>
          obtain ⟨hqueued, hkeeps⟩ := h id hid hmatch a hfind
          obtain ⟨hdecides, since, before, hlog, hsince⟩ := List.find?_eq_some_iff_append.mp hfind
          have hquiet : ∀ b ∈ since, b.ofDevice id.device = false ∧
              (b.queued && b.cmd.releasesAll) = false := by
            intro b hb
            exact Bool.or_eq_false_iff.mp (Bool.not_eq_true' _ ▸ hsince b hb)
          have hof : a.ofDevice id.device = true := by
            rw [Attempt.decides, hkeeps, Bool.and_false, Bool.or_false] at hdecides
            exact hdecides
          have hlast : s.2.attempts.find? (Attempt.ofDevice id.device) = some a := by
            refine List.find?_eq_some_iff_append.mpr ⟨hof, since, before, hlog, fun b hb => ?_⟩
            rw [(hquiet b hb).1]
            rfl
          rw [CallLog.lastTried, hlast] at hmemory
          obtain ⟨hsame, htime⟩ := hmemory
          have hle : a.time ≤ now :=
            UInt64.le_trans (hinv.times a (List.mem_of_find?_eq_some hlast)) hclock
          refine ⟨since, before, a, hlog, hqueued, ?_, hle, ?_, fun b hb hbqueued => ?_⟩
          · rw [hsame, hmatch.1, hid]
          · apply within_of_sub_lt hle
            rw [htime]
            exact hmatch.2
          · obtain ⟨hother, hrelease⟩ := hquiet b hb
            refine Bool.eq_false_iff.mpr fun hundoes => ?_
            rcases undoes_cases hid hundoes with hall | ⟨id', hid', hdevice⟩
            · rw [hbqueued, hall] at hrelease
              cases hrelease
            · rw [Attempt.ofDevice, hid', Option.any_some, hdevice, decide_eq_true rfl] at hother
              cases hother
  | _ => trivial

/-- In every run of the calls, from 30 ms after boot on and in the order of their times: if each
call that finds its command in the memory finds there what is in effect, every call that drops its
command repeats one that is. -/
theorem dropsInEffect_run {screenWidth screenHeight : UInt16} {labels : List DeliveryLabel}
    (htimes : (30 :: callTimes labels).IsChain (· ≤ ·))
    (hall : AllSteps loggedStep MemoryInEffect (loggedInit screenWidth screenHeight) labels) :
    AllSteps loggedStep DropsInEffect (loggedInit screenWidth screenHeight) labels := by
  have hclock := allSteps_clockRises (s := loggedInit screenWidth screenHeight) htimes
  have himp : ∀ (s : Delivery × CallLog) label, LogInv s →
      (ClockRises s label ∧ MemoryInEffect s label) → DropsInEffect s label :=
    fun _ _ hinv h => h.2.drops hinv h.1
  have hstep : ∀ (s : Delivery × CallLog) label t, LogInv s →
      (ClockRises s label ∧ MemoryInEffect s label) → loggedStep s label = some t → LogInv t :=
    fun _ _ _ hinv h hstep => loggedStep_logInv hinv h.1 hstep
  exact AllSteps.imp_of_inv himp hstep (logInv_init _ _) (hclock.and hall)

/-- A key goes down and, before the first KEY_DOWN is taken, down again. -/
def repeatedKeyLabels : List DeliveryLabel :=
  [.call (.keyDown 0x61 0 0) 1000, .send, .call (.keyDown 0x61 0 0) 1010, .hidReceive]

theorem dropsInEffect_run_repeated :
    (run loggedStep (loggedInit 1920 1080) repeatedKeyLabels).map (fun s => s.1.accepted) =
      some [.keyDown 0x61 0 0] ∧
    AllSteps loggedStep DropsInEffect (loggedInit 1920 1080) repeatedKeyLabels :=
  ⟨by decide, dropsInEffect_run (by decide) (by decide)⟩

/-- A key goes down, the cursor leaves the screen and comes back, and the key goes down again. -/
def leaveBetweenLabels : List DeliveryLabel :=
  [.call (.keyDown 0x61 0 0) 1000, .send, .call .leave 1010, .send]

/-- The second KEY_DOWN is dropped although LEAVE has released the key. -/
theorem not_dropsInEffect_leave :
    (30 :: callTimes (leaveBetweenLabels ++ [.call (.keyDown 0x61 0 0) 1020])).IsChain (· ≤ ·) ∧
    ∃ s, run loggedStep (loggedInit 1920 1080) leaveBetweenLabels = some s ∧
      s.1.accepted = [.keyDown 0x61 0 0, .leave] ∧ s.1.pc = .idle ∧
      (enterCall s.1.act (.keyDown 0x61 0 0) 1020).2 = .returns ∧
      ¬ DropsInEffect s (.call (.keyDown 0x61 0 0) 1020) := by
  have hview : (run loggedStep (loggedInit 1920 1080) leaveBetweenLabels).map (fun s =>
      (s.1.accepted, s.1.pc, (enterCall s.1.act (.keyDown 0x61 0 0) 1020).2, s.2.attempts)) =
      some ([.keyDown 0x61 0 0, .leave], .idle, .returns,
        [⟨.leave, 1010, true⟩, ⟨.keyDown 0x61 0 0, 1000, true⟩]) := by
    decide +kernel
  obtain ⟨s, hrun, hends⟩ := Option.map_eq_some_iff.mp hview
  simp only [Prod.mk.injEq] at hends
  obtain ⟨haccepted, hpc, hreturns, hattempts⟩ := hends
  refine ⟨by decide, s, hrun, haccepted, hpc, hreturns, fun hdrops => ?_⟩
  obtain ⟨since, before, a, hlog, -, hid, -, -, hquiet⟩ := hdrops rfl hpc hreturns
  rw [hattempts] at hlog
  cases since with
  | nil =>
      obtain ⟨rfl, -⟩ := List.cons.inj hlog
      cases hid
  | cons b since =>
      obtain ⟨rfl, -⟩ := List.cons.inj hlog
      exact absurd (hquiet _ List.mem_cons_self rfl) (by decide)

end Esp32Deskflow.Tusb
