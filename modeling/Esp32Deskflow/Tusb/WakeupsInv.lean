/-
  Tusb/WakeupsInv.lean --- why `hid_task` is woken for everything that is left to do.

  A notification may be used up by a wait that it was not given for.  Nothing is lost by
  that: whoever leaves work announces it before it gives the notification, and `hid_task`
  looks at the work after every wait.  The flags of `tusb_device.c` are written and read
  crosswise, so that one of the two sides sees what the other one has written.
-/
import Esp32Deskflow.Tusb.Wakeups

set_option autoImplicit false

namespace Esp32Deskflow.Tusb

open Esp32Deskflow.Foundation Esp32Deskflow.Foundation.Transition

/-! ## The invariant -/

/-- From here `hid_task` gets to a sleep without another look at `movement_pending`. -/
def HidTaskPc.Announced : HidTaskPc → Prop
  | .moving => True
  | .receive missed => missed = false
  | .idle missed => missed = false
  | _ => False

/-- `tusb_set_pending_send(true)` was the last call of its kind. -/
def HidTaskPc.Raised : HidTaskPc → Prop
  | .sending _ pc _ => pc ≠ .raise
  | _ => False

/-- `tusb_try_remote_wakeup` is over, and the report is not. -/
def HidTaskPc.Tried : HidTaskPc → Prop
  | .sending _ .report _ => True
  | .sending _ (.waiting _) _ => True
  | _ => False

/-- `tud_suspend_cb` is under way. -/
def UsbPc.inSuspend : UsbPc → Bool
  | .suspending _ => true
  | .readPending => true
  | .readEnabled => true
  | .wakeup => true
  | _ => false

/-- The host was asked to wake up, if it sleeps and lets itself be woken. -/
def Woken (w : Wakeups) : Prop :=
  w.usb.inSuspend = false → w.suspended = true → w.remoteWakeupEn = true → w.wakeRequested = true

/-- A notification is there, or it comes with the end of the report in flight. -/
def Owed (w : Wakeups) : Prop :=
  w.notified = true ∨ w.dropped = true ∨ w.inFlight = true ∨ w.usb = .completing

/-- A notification is there, or the network task is about to give it. -/
def Given (w : Wakeups) : Prop := w.notified = true ∨ w.net = .giving

/-- Where `hid_task` sleeps with work to do, the notification that wakes it is there or to come. -/
structure WakeupsInv (w : Wakeups) : Prop where
  queued : ∀ missed, w.hid = .idle missed → w.queue ≠ [] → Given w
  moved : w.hid.Announced → w.act.movementPending = 1 → Given w
  raised : w.hid.Raised → w.pendingSend = true
  woken : w.hid.Tried → Woken w
  owed : ∀ send rest, w.hid = .sending send (.waiting true) rest → Owed w

theorem wakeupsInv_init (act : TusbActuator) (layout : KeyboardLayout) (mounted : Bool) :
    WakeupsInv (Wakeups.init act layout mounted) where
  queued := fun missed h => by cases h
  moved := False.elim
  raised := False.elim
  woken := False.elim
  owed := fun send rest h => by cases h

/-! ## The network task -/

theorem deliveryStep_accepted {d d' : Delivery} {label : DeliveryLabel} (hne : label ≠ .send)
    (hstep : deliveryStep d label = some d') : d'.accepted = d.accepted := by
  cases label with
  | send => exact absurd rfl hne
  | _ => grind [deliveryStep, Delivery.take]

/-- Only a send puts something into an empty queue. -/
theorem deliveryStep_empty {d d' : Delivery} {label : DeliveryLabel} (hne : label ≠ .send)
    (hempty : d.act.cmdQueue = []) (hstep : deliveryStep d label = some d') :
    d'.act.cmdQueue = [] := by
  rcases deliveryStep_cases hstep with ⟨hqueue, -⟩ | ⟨cmd, -, haccepted, -⟩ |
    ⟨cmd, taker, hqueue, -⟩
  · rw [hqueue, hempty]
  · rw [deliveryStep_accepted hne hstep] at haccepted
    simp at haccepted
  · rw [hempty] at hqueue
    cases hqueue

/-- What the network task may do, and that it announces what it does. -/
structure NetStep (w w' : Wakeups) : Prop where
  hid : w'.hid = w.hid
  flags : w'.usb = w.usb ∧ w'.pendingSend = w.pendingSend ∧ w'.suspended = w.suspended ∧
    w'.remoteWakeupEn = w.remoteWakeupEn ∧ w'.wakeRequested = w.wakeRequested ∧
    w'.inFlight = w.inFlight ∧ w'.dropped = w.dropped
  notified : w.notified = true → w'.notified = true
  given : Given w → Given w'
  queued : w.queue = [] → w'.queue ≠ [] → Given w'
  moved : w.act.movementPending ≠ 1 → w'.act.movementPending = 1 → Given w'

theorem NetStep.keeps {w w' : Wakeups} (h : NetStep w w') (hinv : WakeupsInv w) :
    WakeupsInv w' := by
  obtain ⟨husb, hpending, hsuspended, henabled, hrequested, hflight, hdropped⟩ := h.flags
  refine ⟨fun missed hidle hwork => ?_, fun hann hmoved => ?_, fun hraised => ?_,
    fun htried => ?_, fun send rest hwait => ?_⟩
  · rw [h.hid] at hidle
    by_cases hempty : w.queue = []
    · exact h.queued hempty hwork
    · exact h.given (hinv.queued missed hidle hempty)
  · rw [h.hid] at hann
    by_cases hbefore : w.act.movementPending = 1
    · exact h.given (hinv.moved hann hbefore)
    · exact h.moved hbefore hmoved
  · rw [h.hid] at hraised
    rw [hpending]
    exact hinv.raised hraised
  · rw [h.hid] at htried
    have hwoken := hinv.woken htried
    unfold Woken at hwoken ⊢
    rwa [husb, hsuspended, henabled, hrequested]
  · rw [h.hid] at hwait
    rcases hinv.owed send rest hwait with howed | howed | howed | howed
    · exact Or.inl (h.notified howed)
    · exact Or.inr (Or.inl (hdropped.trans howed))
    · exact Or.inr (Or.inr (Or.inl (hflight.trans howed)))
    · exact Or.inr (Or.inr (Or.inr (husb.trans howed)))

/-- A step of the network task that leaves the queue and the pending flag alone. -/
theorem NetStep.of_quiet {w : Wakeups} {d : Delivery} {net : NetNotify}
    (hnet : w.net ≠ .giving)
    (hqueue : w.delivery.act.cmdQueue = [] → d.act.cmdQueue = [])
    (hmoved : d.act.movementPending = w.delivery.act.movementPending) :
    NetStep w { w with delivery := d, net := net } where
  hid := rfl
  flags := ⟨rfl, rfl, rfl, rfl, rfl, rfl, rfl⟩
  notified := id
  given := fun h => Or.inl (h.resolve_right hnet)
  queued := fun hempty hwork => absurd (hqueue hempty) hwork
  moved := fun hbefore hafter => absurd (hmoved.symm.trans hafter) hbefore

/-- A step of the network task after which it gives the notification. -/
theorem NetStep.of_giving (w : Wakeups) (d : Delivery) :
    NetStep w { w with delivery := d, net := .giving } where
  hid := rfl
  flags := ⟨rfl, rfl, rfl, rfl, rfl, rfl, rfl⟩
  notified := id
  given := fun _ => Or.inr rfl
  queued := fun _ _ => Or.inr rfl
  moved := fun _ _ => Or.inr rfl

theorem net_netStep {w w' : Wakeups} {label : DeliveryLabel}
    (hstep : wakeupsStep w (.net label) = some w') : NetStep w w' := by
  simp only [wakeupsStep] at hstep
  split at hstep
  · next hnet =>
      obtain ⟨d, hd, rfl⟩ := Option.map_eq_some_iff.mp hstep
      by_cases hsend : label = .send
      · subst hsend
        exact NetStep.of_giving w d
      · rw [if_neg hsend]
        have hdevice := (deliveryStep_device hnet.2 hd).1
        have hmoved := (congrArg TusbActuator.movementPending hdevice :)
        have hidle : w.net ≠ .giving := by simp [hnet.1]
        exact NetStep.of_quiet hidle (fun hempty => deliveryStep_empty hsend hempty hd) hmoved
  · cases hstep

theorem setMovement_netStep {w w' : Wakeups} {x y : UInt16}
    (hstep : wakeupsStep w (.setMovement x y) = some w') : NetStep w w' := by
  simp only [wakeupsStep] at hstep
  split at hstep
  · next hnet =>
      cases hstep
      have hidle : w.net ≠ .giving := by simp [hnet.1]
      exact NetStep.of_quiet hidle id rfl
  · cases hstep

theorem moveRelative_netStep {w w' : Wakeups} {dx dy : Int16}
    (hstep : wakeupsStep w (.moveRelative dx dy) = some w') : NetStep w w' := by
  simp only [wakeupsStep] at hstep
  split at hstep
  · next hnet =>
      cases hstep
      have hidle : w.net ≠ .giving := by simp [hnet.1]
      exact NetStep.of_quiet hidle id rfl
  · cases hstep

theorem netExchange_netStep {w w' : Wakeups} {spurious : Bool}
    (hstep : wakeupsStep w (.netExchange spurious) = some w') : NetStep w w' := by
  simp only [wakeupsStep] at hstep
  split at hstep
  · next hnet =>
      split at hstep
      · cases hstep
        exact NetStep.of_giving w _
      · cases hstep
        have hidle : w.net ≠ .giving := by simp [hnet]
        exact NetStep.of_quiet hidle id rfl
  · cases hstep

theorem netGive_netStep {w w' : Wakeups} (hstep : wakeupsStep w .netGive = some w') :
    NetStep w w' := by
  simp only [wakeupsStep] at hstep
  split at hstep
  · cases hstep
    exact ⟨rfl, ⟨rfl, rfl, rfl, rfl, rfl, rfl, rfl⟩, fun _ => rfl, fun _ => Or.inl rfl,
      fun _ _ => Or.inl rfl, fun _ _ => Or.inl rfl⟩
  · cases hstep

/-! ## The USB stack -/

/-- What the USB stack may do, and what its callbacks make up for. -/
structure UsbStep (w w' : Wakeups) : Prop where
  hid : w'.hid = w.hid
  delivery : w'.delivery = w.delivery
  net : w'.net = w.net
  pendingSend : w'.pendingSend = w.pendingSend
  notified : w.notified = true → w'.notified = true
  woken : w.pendingSend = true → Woken w → Woken w'
  owed : Owed w → Owed w'

theorem UsbStep.keeps {w w' : Wakeups} (h : UsbStep w w') (hinv : WakeupsInv w) :
    WakeupsInv w' := by
  have hgiven : Given w → Given w' := Or.imp h.notified h.net.trans
  refine ⟨fun missed hidle hwork => ?_, fun hann hmoved => ?_, fun hraised => ?_,
    fun htried => ?_, fun send rest hwait => ?_⟩
  · rw [h.hid] at hidle
    unfold Wakeups.queue at hwork
    rw [h.delivery] at hwork
    exact hgiven (hinv.queued missed hidle hwork)
  · rw [h.hid] at hann
    unfold Wakeups.act at hmoved
    rw [h.delivery] at hmoved
    exact hgiven (hinv.moved hann hmoved)
  · rw [h.hid] at hraised
    rw [h.pendingSend]
    exact hinv.raised hraised
  · rw [h.hid] at htried
    have hraised : w.hid.Raised := by
      unfold HidTaskPc.Tried at htried
      unfold HidTaskPc.Raised
      split at htried
      all_goals simp_all
    exact h.woken (hinv.raised hraised) (hinv.woken htried)
  · rw [h.hid] at hwait
    exact h.owed (hinv.owed send rest hwait)

/-- What is owed does not come from the callback that goes on. -/
theorem Owed.of_not_completing {w w' : Wakeups} (howed : Owed w) (husb : w.usb ≠ .completing)
    (hnotified : w'.notified = w.notified) (hdropped : w'.dropped = w.dropped)
    (hflight : w'.inFlight = w.inFlight) : Owed w' := by
  rcases howed with howed | howed | howed | howed
  · exact Or.inl (hnotified.trans howed)
  · exact Or.inr (Or.inl (hdropped.trans howed))
  · exact Or.inr (Or.inr (Or.inl (hflight.trans howed)))
  · exact absurd howed husb

theorem usb_usbStep {w w' : Wakeups} (hstep : usbStep w = some w') : UsbStep w w' := by
  unfold usbStep at hstep
  have howed : w.usb ≠ .completing → w'.notified = w.notified → w'.dropped = w.dropped →
      w'.inFlight = w.inFlight → Owed w → Owed w' :=
    fun husb hnotified hdropped hflight h => h.of_not_completing husb hnotified hdropped hflight
  split at hstep
  · cases hstep
  · next enabled husb =>
      cases hstep
      have hne : w.usb ≠ .completing := by simp [husb]
      refine ⟨rfl, rfl, rfl, rfl, id, fun _ _ hcallback => ?_, howed hne rfl rfl rfl⟩
      cases hcallback
  · next husb =>
      cases hstep
      have hne : w.usb ≠ .completing := by simp [husb]
      refine ⟨rfl, rfl, rfl, rfl, id, fun hpending _ hcallback => ?_, howed hne rfl rfl rfl⟩
      -- the flag is raised, so the callback goes on
      simp [hpending, UsbPc.inSuspend] at hcallback
  · next husb =>
      cases hstep
      have hne : w.usb ≠ .completing := by simp [husb]
      refine ⟨rfl, rfl, rfl, rfl, id, fun _ _ hcallback _ henabled => ?_, howed hne rfl rfl rfl⟩
      have henabled' : w.remoteWakeupEn = true := henabled
      simp [henabled', UsbPc.inSuspend] at hcallback
  · next husb =>
      cases hstep
      have hne : w.usb ≠ .completing := by simp [husb]
      exact ⟨rfl, rfl, rfl, rfl, id, fun _ _ _ _ _ => rfl, howed hne rfl rfl rfl⟩
  · next husb =>
      cases hstep
      refine ⟨rfl, rfl, rfl, rfl, fun _ => rfl, fun _ hwoken _ => ?_, fun _ => Or.inl rfl⟩
      exact hwoken (by rw [husb]; rfl)

theorem suspend_usbStep {w w' : Wakeups} {enabled : Bool}
    (hstep : wakeupsStep w (.suspend enabled) = some w') : UsbStep w w' := by
  simp only [wakeupsStep] at hstep
  split at hstep
  · next husb =>
      cases hstep
      have hne : w.usb ≠ .completing := by simp [husb]
      refine ⟨rfl, rfl, rfl, rfl, id, fun _ _ hcallback => ?_, fun h => ?_⟩
      · cases hcallback
      · exact h.of_not_completing hne rfl rfl rfl
  · cases hstep

theorem resume_usbStep {w w' : Wakeups} (hstep : wakeupsStep w .resume = some w') :
    UsbStep w w' := by
  simp only [wakeupsStep] at hstep
  split at hstep
  · cases hstep
    refine ⟨rfl, rfl, rfl, rfl, id, fun _ _ _ hsuspended => ?_, id⟩
    cases hsuspended
  · cases hstep

theorem complete_usbStep {w w' : Wakeups} (hstep : wakeupsStep w .complete = some w') :
    UsbStep w w' := by
  simp only [wakeupsStep] at hstep
  split at hstep
  · next husb =>
      cases hstep
      refine ⟨rfl, rfl, rfl, rfl, id, fun _ hwoken _ => ?_, fun _ => ?_⟩
      · exact hwoken (by rw [husb.1]; rfl)
      · exact Or.inr (Or.inr (Or.inr rfl))
  · cases hstep

theorem reset_usbStep {w w' : Wakeups} {mounted : Bool}
    (hstep : wakeupsStep w (.reset mounted) = some w') : UsbStep w w' := by
  simp only [wakeupsStep] at hstep
  split at hstep
  · cases hstep
    refine ⟨rfl, rfl, rfl, rfl, id, fun _ hwoken => hwoken, fun howed => ?_⟩
    rcases howed with howed | howed | howed | howed
    · exact Or.inl howed
    · exact Or.inr (Or.inl (by simp [howed]))
    · exact Or.inr (Or.inl (by simp [howed]))
    · exact Or.inr (Or.inr (Or.inr howed))
  · cases hstep

theorem setLayout_usbStep {w w' : Wakeups} {layout : UInt8}
    (hstep : wakeupsStep w (.setLayout layout) = some w') : UsbStep w w' := by
  cases hstep
  exact ⟨rfl, rfl, rfl, rfl, id, fun _ => id, id⟩

/-! ## `hid_task` -/

/-- Where nothing is asked of the others. -/
def HidTaskPc.Free : HidTaskPc → Prop
  | .loopTop => True
  | .receive missed => missed = true
  | .received _ => True
  | .stmts _ => True
  | .sending _ pc _ => pc = .raise
  | _ => False

theorem WakeupsInv.of_free {w : Wakeups} (hfree : w.hid.Free) : WakeupsInv w := by
  refine ⟨fun missed hidle => ?_, fun hann => ?_, fun hraised => ?_, fun htried => ?_,
    fun send rest hwait => ?_⟩
  · rw [hidle] at hfree
    cases hfree
  · cases hpc : w.hid with
    | receive missed => simp_all [HidTaskPc.Free, HidTaskPc.Announced]
    | _ => simp_all [HidTaskPc.Free, HidTaskPc.Announced]
  · cases hpc : w.hid with
    | sending send pc rest => simp_all [HidTaskPc.Free, HidTaskPc.Raised]
    | _ => simp_all [HidTaskPc.Raised]
  · cases hpc : w.hid with
    | sending send pc rest => simp_all [HidTaskPc.Free, HidTaskPc.Tried]
    | _ => simp_all [HidTaskPc.Tried]
  · rw [hwait] at hfree
    cases hfree

/-- Before the sleep only a pending movement matters. -/
theorem WakeupsInv.of_beforeSleep {w : Wakeups}
    (hpc : w.hid = .moving ∨ ∃ missed, w.hid = .receive missed)
    (hmoved : w.hid.Announced → w.act.movementPending = 1 → Given w) : WakeupsInv w := by
  refine ⟨fun missed hidle => ?_, hmoved, fun hraised => ?_, fun htried => ?_,
    fun send rest hwait => ?_⟩
  · rcases hpc with hpc | ⟨_, hpc⟩ <;> rw [hpc] at hidle <;> cases hidle
  · rcases hpc with hpc | ⟨_, hpc⟩ <;> rw [hpc] at hraised <;> exact hraised.elim
  · rcases hpc with hpc | ⟨_, hpc⟩ <;> rw [hpc] at htried <;> exact htried.elim
  · rcases hpc with hpc | ⟨_, hpc⟩ <;> rw [hpc] at hwait <;> cases hwait

/-- In a report function only the flags matter. -/
theorem WakeupsInv.of_sending {w : Wakeups} {send : HidSend} {pc : SendPc} {rest : List HidStmt}
    (hpc : w.hid = .sending send pc rest) (hpending : w.pendingSend = true)
    (hwoken : w.hid.Tried → Woken w) (howed : pc = .waiting true → Owed w) : WakeupsInv w where
  queued := fun missed hidle => by
    rw [hpc] at hidle
    cases hidle
  moved := fun hann => by
    rw [hpc] at hann
    exact hann.elim
  raised := fun _ => hpending
  woken := hwoken
  owed := fun send' rest' hwait => by
    rw [hpc] at hwait
    cases hwait
    exact howed rfl

/-- `tusb_try_remote_wakeup` has found that the device does not sleep, or that it may not wake
the host. -/
theorem Woken.of_awake {w : Wakeups} (h : w.suspended = false ∨ w.remoteWakeupEn = false) :
    Woken w := by
  intro _ hsuspended henabled
  simp [hsuspended, henabled] at h

theorem sendStep_keeps {w w' : Wakeups} {send : HidSend} {pc : SendPc} {rest : List HidStmt}
    (hinv : WakeupsInv w) (hpc : w.hid = .sending send pc rest)
    (hstep : sendStep w send rest pc = some w') : WakeupsInv w' := by
  have hraised : pc ≠ .raise → w.pendingSend = true := by
    intro hne
    refine hinv.raised ?_
    rw [hpc]
    exact hne
  cases pc with
  | raise =>
      cases hstep
      exact .of_sending rfl rfl False.elim (fun h => by cases h)
  | readSuspended =>
      cases hstep
      refine .of_sending rfl (hraised (by decide)) (fun htried => ?_) (fun h => ?_)
      · cases hsuspended : w.suspended with
        | true => simp [hsuspended, HidTaskPc.Tried] at htried
        | false => exact Woken.of_awake (Or.inl rfl)
      · split at h <;> cases h
  | readEnabled =>
      cases hstep
      refine .of_sending rfl (hraised (by decide)) (fun htried => ?_) (fun h => ?_)
      · cases henabled : w.remoteWakeupEn with
        | true => simp [henabled, HidTaskPc.Tried] at htried
        | false => exact Woken.of_awake (Or.inr rfl)
      · split at h <;> cases h
  | readPending =>
      cases hstep
      have hpending := hraised (by decide)
      refine .of_sending rfl hpending (fun htried => ?_) (fun h => ?_)
      · simp [hpending, HidTaskPc.Tried] at htried
      · split at h <;> cases h
  | wakeup =>
      cases hstep
      exact .of_sending rfl (hraised (by decide)) (fun _ _ _ _ => rfl) (fun h => by cases h)
  | report => cases hstep
  | waiting ready =>
      simp only [sendStep] at hstep
      split at hstep
      · cases hstep
        have hwoken : Woken w := by
          refine hinv.woken ?_
          rw [hpc]
          trivial
        exact .of_sending rfl (hraised (by simp)) (fun _ => hwoken) (fun h => by cases h)
      · cases hstep
  | lower =>
      cases hstep
      exact .of_free trivial

theorem stmtsStep_keeps {w w' : Wakeups} {rest : List HidStmt}
    (hstep : stmtsStep w rest = some w') : WakeupsInv w' := by
  unfold stmtsStep at hstep
  split at hstep
  case h_4 => cases hstep
  all_goals
    cases hstep
    exact .of_free (by trivial)

theorem receive_keeps {w : Wakeups} {missed : Bool} (hinv : WakeupsInv w)
    (hpc : w.hid = .receive missed) : WakeupsInv (w.receive missed) := by
  unfold Wakeups.receive
  split
  · next hreceive =>
      have hempty : w.queue = [] := xQueueReceive_none hreceive
      refine ⟨fun _ _ hwork => absurd hempty hwork, fun hann hmoved => ?_, False.elim,
        False.elim, fun send rest hwait => by cases hwait⟩
      refine hinv.moved ?_ hmoved
      rw [hpc]
      exact hann
  · exact .of_free trivial

theorem hidTaskStep_keeps {w w' : Wakeups} (hinv : WakeupsInv w)
    (hstep : hidTaskStep w = some w') : WakeupsInv w' := by
  unfold hidTaskStep at hstep
  split at hstep
  · cases hstep
  · cases hstep
  · next missed hpc =>
      cases hstep
      exact receive_keeps hinv hpc
  · split at hstep
    · cases hstep
      exact .of_free trivial
    · cases hstep
  · next cmd hpc =>
      cases hstep
      unfold Wakeups.dispatch
      split
      · exact .of_free trivial
      · exact .of_free trivial
  · exact stmtsStep_keeps hstep
  · next send pc rest hpc => exact sendStep_keeps hinv hpc hstep

theorem hidExchangeStep_keeps {w w' : Wakeups} {spurious : Bool}
    (hstep : hidExchangeStep w spurious = some w') : WakeupsInv w' := by
  unfold hidExchangeStep at hstep
  split at hstep
  · split at hstep
    · split at hstep
      · cases hstep
        exact .of_free rfl
      · cases hstep
        exact .of_beforeSleep (Or.inl rfl) (fun _ hmoved => by cases hmoved)
    · next hclear =>
        cases hstep
        exact .of_beforeSleep (Or.inr ⟨_, rfl⟩) (fun _ hmoved => absurd hmoved hclear)
  · cases hstep

/-- `send_abs_mouse_once` has nothing to do with the work that waits, nor with the sleep. -/
theorem sendAbsMouseOnce_spec_wakeups (w : Wakeups) (ready : Bool) :
    (w.sendAbsMouseOnce ready).act.movementPending = w.act.movementPending ∧
      (w.sendAbsMouseOnce ready).notified = w.notified ∧
      (w.sendAbsMouseOnce ready).net = w.net := by
  unfold Wakeups.sendAbsMouseOnce
  split
  · exact ⟨rfl, rfl, rfl⟩
  · split
    · next w' h =>
        cases (Prod.mk.inj h).2
        exact ⟨rfl, rfl, rfl⟩
    · next w' h =>
        cases (Prod.mk.inj h).2
        exact ⟨rfl, rfl, rfl⟩

theorem hidReportStep_keeps {w w' : Wakeups} {ready : Bool} (hinv : WakeupsInv w)
    (hstep : hidReportStep w ready = some w') : WakeupsInv w' := by
  unfold hidReportStep at hstep
  split at hstep
  · next hpc =>
      cases hstep
      have hbefore : w.act.movementPending = 1 → Given w := by
        refine hinv.moved ?_
        rw [hpc]
        trivial
      refine .of_beforeSleep (Or.inr ⟨_, rfl⟩) (fun _ hmoved => ?_)
      split at hmoved
      · obtain ⟨hsame, hnotified, hnet⟩ := sendAbsMouseOnce_spec_wakeups w ready
        have hgiven := hbefore (hsame.symm.trans hmoved)
        exact hgiven.imp (fun h => by simp [*]) (fun h => by simp [*])
      · exact (hbefore hmoved).imp (fun h => by simp [*]) (fun h => by simp [*])
  · cases hstep
    exact .of_free trivial
  · next send rest hpc =>
      have hpending : w.pendingSend = true := by
        refine hinv.raised ?_
        rw [hpc]
        exact fun h => by cases h
      have hwoken : Woken w := by
        refine hinv.woken ?_
        rw [hpc]
        trivial
      cases haccepted : ready && !w.inFlight with
      | true =>
          simp only [Wakeups.tudHidReport, haccepted, Option.some.injEq] at hstep
          subst hstep
          exact .of_sending rfl hpending False.elim (fun h => by cases h)
      | false =>
          simp only [Wakeups.tudHidReport, haccepted, Option.some.injEq] at hstep
          subst hstep
          refine .of_sending rfl hpending (fun _ => hwoken) (fun hwait => ?_)
          -- refused although the device was ready: the last report is in flight
          split at hwait
          · cases hwait
            have hflight : w.inFlight = true := by simpa using haccepted
            exact Or.inr (Or.inr (Or.inl (by simp [hflight])))
          · cases hwait
  · cases hstep

/-! ## Runs -/

theorem wakeupsStep_keeps (w : Wakeups) (label : WakeupsLabel) (w' : Wakeups)
    (hinv : WakeupsInv w) (hstep : wakeupsStep w label = some w') : WakeupsInv w' := by
  cases label with
  | hidExchange spurious => exact hidExchangeStep_keeps hstep
  | hidReport ready => exact hidReportStep_keeps hinv hstep
  | hidTimeout =>
      simp only [wakeupsStep] at hstep
      split at hstep
      · cases hstep
        exact .of_free trivial
      · cases hstep
  | hid => exact hidTaskStep_keeps hinv hstep
  | net label => exact (net_netStep hstep).keeps hinv
  | setMovement x y => exact (setMovement_netStep hstep).keeps hinv
  | moveRelative dx dy => exact (moveRelative_netStep hstep).keeps hinv
  | netExchange spurious => exact (netExchange_netStep hstep).keeps hinv
  | netGive => exact (netGive_netStep hstep).keeps hinv
  | suspend enabled => exact (suspend_usbStep hstep).keeps hinv
  | resume => exact (resume_usbStep hstep).keeps hinv
  | complete => exact (complete_usbStep hstep).keeps hinv
  | usb => exact (usb_usbStep hstep).keeps hinv
  | reset mounted => exact (reset_usbStep hstep).keeps hinv
  | setLayout layout => exact (setLayout_usbStep hstep).keeps hinv

theorem run_wakeupsInv {act : TusbActuator} {layout : KeyboardLayout} {mounted : Bool}
    {labels : List WakeupsLabel} {w : Wakeups}
    (hrun : run wakeupsStep (Wakeups.init act layout mounted) labels = some w) : WakeupsInv w :=
  run_invariant wakeupsStep_keeps (wakeupsInv_init act layout mounted) hrun

end Esp32Deskflow.Tusb
