/-
  Tusb/HidWaits.lean --- what ends a wait of `hid_task`.

  For work the task waits a second at most, and a notification is there or on its way as
  long as there is any.  For a report it waits without a timeout: a notification comes with
  the end of the report in flight, and with nothing else that the USB stack does.  A resume,
  a reset or a mount gives none.
-/
import Esp32Deskflow.Tusb.WakeupsInv

set_option autoImplicit false

namespace Esp32Deskflow.Tusb

open Esp32Deskflow.Foundation Esp32Deskflow.Foundation.Transition

/-! ## The sleep -/

/-- The notification that is there, or that the network task gives next, ends the sleep of
`hid_task`, which then looks at the work as it is now. -/
def WakesUp (w : Wakeups) : Prop :=
  ∃ labels w', (labels = [.hid] ∨ labels = [.netGive, .hid]) ∧ run wakeupsStep w labels = some w' ∧
    w'.hid = .loopTop ∧ w'.act = w.act

theorem wakesUp_of_given {w : Wakeups} {missed : Bool} (hidle : w.hid = .idle missed)
    (hgiven : Given w) : WakesUp w := by
  rcases hgiven with hnotified | hgiving
  · have hstep : wakeupsStep w .hid = some { w with notified := false, hid := .loopTop } := by
      simp only [wakeupsStep, hidTaskStep, hidle, hnotified, if_true]
    exact ⟨_, _, Or.inl rfl, run_cons_iff.mpr ⟨_, hstep, rfl⟩, rfl, rfl⟩
  · have hgive : wakeupsStep w .netGive = some { w with notified := true, net := .idle } := by
      simp only [wakeupsStep, hgiving, if_true]
    have hstep : wakeupsStep { w with notified := true, net := .idle } .hid =
        some { w with notified := false, net := .idle, hid := .loopTop } := by
      simp only [wakeupsStep, hidTaskStep, hidle, if_true]
    exact ⟨_, _, Or.inr rfl,
      run_cons_iff.mpr ⟨_, hgive, run_cons_iff.mpr ⟨_, hstep, rfl⟩⟩, rfl, rfl⟩

/-- `hid_task` never sleeps through its work: with a command in the queue, or a pending movement
that its compare-exchange has not missed, a notification is there or is the network task's next
step, in every interleaving. -/
theorem no_lost_wakeup {act : TusbActuator} {layout : KeyboardLayout} {mounted missed : Bool}
    {labels : List WakeupsLabel} {w : Wakeups}
    (hrun : run wakeupsStep (Wakeups.init act layout mounted) labels = some w)
    (hidle : w.hid = .idle missed)
    (hwork : w.queue ≠ [] ∨ missed = false ∧ w.act.movementPending = 1) : WakesUp w := by
  have hinv := run_wakeupsInv hrun
  refine wakesUp_of_given hidle ?_
  rcases hwork with hqueue | ⟨hmissed, hmoved⟩
  · exact hinv.queued missed hidle hqueue
  · refine hinv.moved ?_ hmoved
    rw [hidle]
    exact hmissed

/-- A key goes down while `hid_task` sleeps; the notification is still to be given. -/
def keyBeforeGive : List WakeupsLabel :=
  [.hidExchange false, .hid, .net (.call (.keyDown 0x61 0 0) 1000), .net .send]

theorem no_lost_wakeup_key :
    ∃ w, run wakeupsStep (Wakeups.init (tusbActuatorInit 1920 1080) .us true) keyBeforeGive =
        some w ∧
      w.notified = false ∧ w.queue = [.keyDown 0x61 0 0] ∧ WakesUp w := by
  have hview : (run wakeupsStep (Wakeups.init (tusbActuatorInit 1920 1080) .us true)
      keyBeforeGive).map (fun w => (w.hid, w.notified, w.queue)) =
      some (.idle false, false, [.keyDown 0x61 0 0]) := by
    decide +kernel
  obtain ⟨w, hrun, hends⟩ := Option.map_eq_some_iff.mp hview
  simp only [Prod.mk.injEq] at hends
  obtain ⟨hidle, hnotified, hqueue⟩ := hends
  refine ⟨w, hrun, hnotified, hqueue, no_lost_wakeup hrun hidle (Or.inl ?_)⟩
  rw [hqueue]
  exact List.cons_ne_nil _ _

/-! ## The wait for a report -/

/-- Steps that the USB stack and `hid_task` take without the network task. -/
def WakeupsLabel.WithoutNet : WakeupsLabel → Prop
  | .hid => True
  | .suspend _ => True
  | .resume => True
  | .complete => True
  | .usb => True
  | .reset _ => True
  | _ => False

/-- The bus is reset. -/
def WakeupsLabel.isReset : WakeupsLabel → Bool
  | .reset _ => true
  | _ => false

/-- Steps without the network task and without a reset. -/
def WakeupsLabel.Settled (l : WakeupsLabel) : Prop := l.WithoutNet ∧ l.isReset = false

/-- A notification is there, or the report in flight still has its callback to come. -/
def Coming (w : Wakeups) : Prop :=
  w.notified = true ∨ w.inFlight = true ∨ w.usb = .completing

/-- Some of the `allowed` steps end the wait for a report. -/
def WaitCanEnd (allowed : WakeupsLabel → Prop) (w : Wakeups) (send : HidSend)
    (rest : List HidStmt) : Prop :=
  ∃ labels w', (∀ l ∈ labels, allowed l) ∧ run wakeupsStep w labels = some w' ∧
    w'.hid = .sending send .report rest

section

variable {w : Wakeups} {send : HidSend} {ready : Bool} {rest : List HidStmt}

theorem WaitCanEnd.mono {allowed more : WakeupsLabel → Prop} (h : WaitCanEnd allowed w send rest)
    (hmore : ∀ l, allowed l → more l) : WaitCanEnd more w send rest := by
  obtain ⟨labels, w', hall, hrun, hend⟩ := h
  exact ⟨labels, w', fun l hl => hmore l (hall l hl), hrun, hend⟩

theorem waitCanEnd_cons {w' : Wakeups} {label : WakeupsLabel}
    (hstep : wakeupsStep w label = some w') (hown : label.Settled)
    (h : WaitCanEnd WakeupsLabel.Settled w' send rest) :
    WaitCanEnd WakeupsLabel.Settled w send rest := by
  obtain ⟨labels, w'', hall, hrun, hend⟩ := h
  exact ⟨label :: labels, w'', List.forall_mem_cons.mpr ⟨hown, hall⟩,
    run_cons_iff.mpr ⟨w', hstep, hrun⟩, hend⟩

theorem waitCanEnd_of_notified (hwait : w.hid = .sending send (.waiting ready) rest)
    (hnotified : w.notified = true) : WaitCanEnd WakeupsLabel.Settled w send rest := by
  have hstep : wakeupsStep w .hid =
      some { w with notified := false, hid := .sending send .report rest } := by
    simp only [wakeupsStep, hidTaskStep, hwait, sendStep, hnotified, if_true]
  exact waitCanEnd_cons hstep ⟨trivial, rfl⟩ ⟨[], _, by simp, rfl, rfl⟩

theorem waitCanEnd_of_completing (hwait : w.hid = .sending send (.waiting ready) rest)
    (husb : w.usb = .completing) : WaitCanEnd WakeupsLabel.Settled w send rest := by
  have hstep : wakeupsStep w .usb = some { w with notified := true, usb := .idle } := by
    simp only [wakeupsStep, usbStep, husb]
  exact waitCanEnd_cons hstep ⟨trivial, rfl⟩ (waitCanEnd_of_notified hwait rfl)

theorem waitCanEnd_of_idle (hwait : w.hid = .sending send (.waiting ready) rest)
    (hflight : w.inFlight = true) (husb : w.usb = .idle) :
    WaitCanEnd WakeupsLabel.Settled w send rest := by
  have hstep : wakeupsStep w .complete = some { w with inFlight := false, usb := .completing } := by
    simp only [wakeupsStep, husb, hflight, and_self, if_true]
  exact waitCanEnd_cons hstep ⟨trivial, rfl⟩ (waitCanEnd_of_completing hwait rfl)

theorem waitCanEnd_of_wakeup (hwait : w.hid = .sending send (.waiting ready) rest)
    (hflight : w.inFlight = true) (husb : w.usb = .wakeup) :
    WaitCanEnd WakeupsLabel.Settled w send rest := by
  have hstep : wakeupsStep w .usb = some { w with wakeRequested := true, usb := .idle } := by
    simp only [wakeupsStep, usbStep, husb]
  exact waitCanEnd_cons hstep ⟨trivial, rfl⟩ (waitCanEnd_of_idle hwait hflight rfl)

theorem waitCanEnd_of_readEnabled (hwait : w.hid = .sending send (.waiting ready) rest)
    (hflight : w.inFlight = true) (husb : w.usb = .readEnabled) :
    WaitCanEnd WakeupsLabel.Settled w send rest := by
  have hstep : wakeupsStep w .usb =
      some { w with usb := if w.remoteWakeupEn then .wakeup else .idle } := by
    simp only [wakeupsStep, usbStep, husb]
  refine waitCanEnd_cons hstep ⟨trivial, rfl⟩ ?_
  cases henabled : w.remoteWakeupEn with
  | true => exact waitCanEnd_of_wakeup hwait hflight rfl
  | false => exact waitCanEnd_of_idle hwait hflight rfl

theorem waitCanEnd_of_readPending (hwait : w.hid = .sending send (.waiting ready) rest)
    (hflight : w.inFlight = true) (husb : w.usb = .readPending) :
    WaitCanEnd WakeupsLabel.Settled w send rest := by
  have hstep : wakeupsStep w .usb =
      some { w with usb := if w.pendingSend then .readEnabled else .idle } := by
    simp only [wakeupsStep, usbStep, husb]
  refine waitCanEnd_cons hstep ⟨trivial, rfl⟩ ?_
  cases hpending : w.pendingSend with
  | true => exact waitCanEnd_of_readEnabled hwait hflight rfl
  | false => exact waitCanEnd_of_idle hwait hflight rfl

theorem waitCanEnd_of_coming (hwait : w.hid = .sending send (.waiting ready) rest)
    (hcoming : Coming w) : WaitCanEnd WakeupsLabel.Settled w send rest := by
  rcases hcoming with hnotified | hflight | husb
  · exact waitCanEnd_of_notified hwait hnotified
  · -- the callback that is under way runs to its end first
    cases husb : w.usb with
    | idle => exact waitCanEnd_of_idle hwait hflight husb
    | suspending enabled =>
        have hstep : wakeupsStep w .usb =
            some { w with remoteWakeupEn := enabled, usb := .readPending } := by
          simp only [wakeupsStep, usbStep, husb]
        exact waitCanEnd_cons hstep ⟨trivial, rfl⟩ (waitCanEnd_of_readPending hwait hflight rfl)
    | readPending => exact waitCanEnd_of_readPending hwait hflight husb
    | readEnabled => exact waitCanEnd_of_readEnabled hwait hflight husb
    | wakeup => exact waitCanEnd_of_wakeup hwait hflight husb
    | completing => exact waitCanEnd_of_completing hwait husb
  · exact waitCanEnd_of_completing hwait husb

/-- With no notification coming, the USB stack does not bring one about. -/
theorem not_coming_step {w' : Wakeups} {label : WakeupsLabel} (hown : label.WithoutNet)
    (hwait : w.hid = .sending send (.waiting ready) rest) (hnot : ¬ Coming w)
    (hstep : wakeupsStep w label = some w') :
    w'.hid = .sending send (.waiting ready) rest ∧ ¬ Coming w' := by
  have hnotified : w.notified = false := by
    simpa using fun h => hnot (Or.inl h)
  have hflight : w.inFlight = false := by
    simpa using fun h => hnot (Or.inr (Or.inl h))
  have husb : w.usb ≠ .completing := fun h => hnot (Or.inr (Or.inr h))
  cases label with
  | hid => simp [wakeupsStep, hidTaskStep, hwait, sendStep, hnotified] at hstep
  | suspend enabled =>
      simp only [wakeupsStep] at hstep
      split at hstep
      · cases hstep
        exact ⟨hwait, by simp [Coming, hnotified, hflight]⟩
      · cases hstep
  | resume =>
      simp only [wakeupsStep] at hstep
      split at hstep
      · cases hstep
        exact ⟨hwait, hnot⟩
      · cases hstep
  | complete => simp [wakeupsStep, hflight] at hstep
  | usb =>
      simp only [wakeupsStep, usbStep] at hstep
      split at hstep
      · cases hstep
      · cases hstep
        exact ⟨hwait, by simp [Coming, hnotified, hflight]⟩
      · cases hstep
        exact ⟨hwait, by cases w.pendingSend <;> simp [Coming, hnotified, hflight]⟩
      · cases hstep
        exact ⟨hwait, by cases w.remoteWakeupEn <;> simp [Coming, hnotified, hflight]⟩
      · cases hstep
        exact ⟨hwait, by simp [Coming, hnotified, hflight]⟩
      · next hcompleting => exact absurd hcompleting husb
  | reset mounted =>
      simp only [wakeupsStep] at hstep
      split at hstep
      · cases hstep
        exact ⟨hwait, by simp [Coming, hnotified, husb]⟩
      · cases hstep
  | _ => exact hown.elim

theorem not_coming_run {labels : List WakeupsLabel} {w' : Wakeups}
    (hall : ∀ l ∈ labels, l.WithoutNet) (hwait : w.hid = .sending send (.waiting ready) rest)
    (hnot : ¬ Coming w) (hrun : run wakeupsStep w labels = some w') :
    w'.hid = .sending send (.waiting ready) rest := by
  induction labels generalizing w with
  | nil =>
      cases hrun
      exact hwait
  | cons label labels ih =>
      obtain ⟨hown, hall⟩ := List.forall_mem_cons.mp hall
      obtain ⟨m, hm, hrest⟩ := run_cons_iff.mp hrun
      obtain ⟨hwait', hnot'⟩ := not_coming_step hown hwait hnot hm
      exact ih hall hwait' hnot' hrest

/-- The network task takes nothing away from what is coming. -/
theorem NetStep.coming {w' : Wakeups} (h : NetStep w w') (hcoming : Coming w) : Coming w' := by
  obtain ⟨husb, -, -, -, -, hflight, -⟩ := h.flags
  exact hcoming.imp h.notified (Or.imp hflight.trans husb.trans)

/-- As long as the bus is not reset, a notification that is coming does come: a step ends the
wait, or it is still coming. -/
theorem coming_step {w' : Wakeups} {label : WakeupsLabel} (hreset : label.isReset = false)
    (hwait : w.hid = .sending send (.waiting ready) rest) (hcoming : Coming w)
    (hstep : wakeupsStep w label = some w') :
    w'.hid = .sending send .report rest ∨
      (w'.hid = .sending send (.waiting ready) rest ∧ Coming w') := by
  have hnet : NetStep w w' → w'.hid = .sending send .report rest ∨
      (w'.hid = .sending send (.waiting ready) rest ∧ Coming w') := fun h =>
    .inr ⟨h.hid.trans hwait, h.coming hcoming⟩
  cases label with
  | hidExchange spurious => simp [wakeupsStep, hidExchangeStep, hwait] at hstep
  | hidReport answer => simp [wakeupsStep, hidReportStep, hwait] at hstep
  | hidTimeout => simp [wakeupsStep, hwait] at hstep
  | hid =>
      simp only [wakeupsStep, hidTaskStep, hwait, sendStep] at hstep
      split at hstep
      · cases hstep
        exact .inl rfl
      · cases hstep
  | net label => exact hnet (net_netStep hstep)
  | setMovement x y => exact hnet (setMovement_netStep hstep)
  | moveRelative dx dy => exact hnet (moveRelative_netStep hstep)
  | netExchange spurious => exact hnet (netExchange_netStep hstep)
  | netGive => exact hnet (netGive_netStep hstep)
  | suspend enabled =>
      simp only [wakeupsStep] at hstep
      split at hstep
      · next husb =>
          cases hstep
          exact .inr ⟨hwait, hcoming.imp_right fun h => .inl (h.resolve_right (by simp [husb]))⟩
      · cases hstep
  | resume =>
      simp only [wakeupsStep] at hstep
      split at hstep
      · cases hstep
        exact .inr ⟨hwait, hcoming⟩
      · cases hstep
  | complete =>
      simp only [wakeupsStep] at hstep
      split at hstep
      · cases hstep
        exact .inr ⟨hwait, .inr (.inr rfl)⟩
      · cases hstep
  | usb =>
      have hflight : w.usb ≠ .completing → w.notified = true ∨ w.inFlight = true :=
        fun hne => hcoming.imp_right fun h => h.resolve_right hne
      simp only [wakeupsStep, usbStep] at hstep
      split at hstep
      · cases hstep
      · next husb =>
          cases hstep
          exact .inr ⟨hwait, (hflight (by simp [husb])).imp_right .inl⟩
      · next husb =>
          cases hstep
          exact .inr ⟨hwait, (hflight (by simp [husb])).imp_right .inl⟩
      · next husb =>
          cases hstep
          exact .inr ⟨hwait, (hflight (by simp [husb])).imp_right .inl⟩
      · next husb =>
          cases hstep
          exact .inr ⟨hwait, (hflight (by simp [husb])).imp_right .inl⟩
      · cases hstep
        exact .inr ⟨hwait, .inl rfl⟩
  | reset mounted => cases hreset
  | setLayout layout =>
      cases hstep
      exact .inr ⟨hwait, hcoming⟩

/-- On the way the wait has ended. -/
def EndedOnTheWay (w : Wakeups) (labels : List WakeupsLabel) (send : HidSend)
    (rest : List HidStmt) : Prop :=
  ∃ before m, before <+: labels ∧ run wakeupsStep w before = some m ∧
    m.hid = .sending send .report rest

theorem coming_run {labels : List WakeupsLabel} {w' : Wakeups}
    (hreset : ∀ l ∈ labels, l.isReset = false)
    (hwait : w.hid = .sending send (.waiting ready) rest) (hcoming : Coming w)
    (hrun : run wakeupsStep w labels = some w') :
    EndedOnTheWay w labels send rest ∨
      (w'.hid = .sending send (.waiting ready) rest ∧ Coming w') := by
  induction labels generalizing w with
  | nil =>
      cases hrun
      exact .inr ⟨hwait, hcoming⟩
  | cons label labels ih =>
      obtain ⟨hone, hall⟩ := List.forall_mem_cons.mp hreset
      obtain ⟨m, hm, hrest⟩ := run_cons_iff.mp hrun
      have hfirst : run wakeupsStep w [label] = some m := run_cons_iff.mpr ⟨m, hm, rfl⟩
      rcases coming_step hone hwait hcoming hm with hend | ⟨hwait', hcoming'⟩
      · exact .inl ⟨[label], m, List.prefix_append [label] labels, hfirst, hend⟩
      · refine (ih hall hwait' hcoming' hrest).imp_left ?_
        rintro ⟨before, n, hprefix, hbefore, hend⟩
        exact ⟨label :: before, n, List.cons_prefix_cons.mpr ⟨rfl, hprefix⟩,
          run_cons_iff.mpr ⟨m, hm, hbefore⟩, hend⟩

theorem coming_of_waitCanEnd (hwait : w.hid = .sending send (.waiting ready) rest)
    (h : WaitCanEnd WakeupsLabel.WithoutNet w send rest) : Coming w := by
  obtain ⟨labels, w', hall, hrun, hend⟩ := h
  by_contra hnot
  rw [not_coming_run hall hwait hnot hrun] at hend
  cases hend

end

/-- A wait for a report can end without the network task, with or without resets of the bus,
exactly if a notification is there or the last report is still in flight; and that is so whenever
the report was refused by a device that was ready, unless the bus was reset since.  Then, whatever
all parties do but for a reset, the wait ends on the way or still can. -/
theorem report_wait_can_end_iff {act : TusbActuator} {layout : KeyboardLayout}
    {mounted ready : Bool} {labels : List WakeupsLabel} {w : Wakeups} {send : HidSend}
    {rest : List HidStmt}
    (hrun : run wakeupsStep (Wakeups.init act layout mounted) labels = some w)
    (hwait : w.hid = .sending send (.waiting ready) rest) :
    (WaitCanEnd WakeupsLabel.Settled w send rest ↔ Coming w) ∧
      (WaitCanEnd WakeupsLabel.WithoutNet w send rest ↔ Coming w) ∧
      (ready = true → w.dropped = false → Coming w) ∧
      (Coming w → ∀ more w', (∀ l ∈ more, l.isReset = false) →
        run wakeupsStep w more = some w' →
          EndedOnTheWay w more send rest ∨
            (w'.hid = .sending send (.waiting ready) rest ∧
              WaitCanEnd WakeupsLabel.Settled w' send rest)) := by
  have hmono : WaitCanEnd WakeupsLabel.Settled w send rest →
      WaitCanEnd WakeupsLabel.WithoutNet w send rest := fun h => h.mono fun _ hl => hl.1
  refine ⟨⟨fun h => coming_of_waitCanEnd hwait (hmono h), waitCanEnd_of_coming hwait⟩,
    ⟨coming_of_waitCanEnd hwait, fun h => hmono (waitCanEnd_of_coming hwait h)⟩, ?_,
    fun hcoming more w' hreset hmore => ?_⟩
  · rintro rfl hdropped
    rcases (run_wakeupsInv hrun).owed send rest hwait with howed | howed | howed
    · exact Or.inl howed
    · rw [hdropped] at howed
      cases howed
    · exact Or.inr howed
  · exact (coming_run hreset hwait hcoming hmore).imp_right fun h =>
      ⟨h.1, waitCanEnd_of_coming h.1 h.2⟩

/-- `hid_task` takes up a key while the device is suspended, up to `tud_hid_report`. -/
def keyToReport (cmd : ActCmd) (now : UInt64) : List WakeupsLabel :=
  [.net (.call cmd now), .net .send, .netGive, .hidExchange false, .hid, .hid, .hid, .hid, .hid,
    .hid, .hid, .hid]

/-- A key goes down and up again while the first report is in flight. -/
def keyDownUp : List WakeupsLabel :=
  keyToReport (.keyDown 0x61 0 0) 1000 ++ [.hidReport true, .hid, .hid] ++
    keyToReport (.keyUp 0x61 0 0) 1010 ++ [.hidReport true, .hid]

theorem report_wait_can_end_iff_keyUp :
    ∃ w, run wakeupsStep (Wakeups.init (tusbActuatorInit 1920 1080) .us true)
        (keyDownUp ++ [.hidReport true]) = some w ∧
      ∃ send rest, w.hid = .sending send (.waiting true) rest ∧
        WaitCanEnd WakeupsLabel.Settled w send rest := by
  have hview : (run wakeupsStep (Wakeups.init (tusbActuatorInit 1920 1080) .us true)
      (keyDownUp ++ [.hidReport true])).map (fun w => (w.hid, w.dropped)) =
      some (.sending (.keyboard [0, 0, 0, 0, 0, 0, 0, 0]) (.waiting true) [], false) := by
    decide +kernel
  obtain ⟨w, hrun, hends⟩ := Option.map_eq_some_iff.mp hview
  obtain ⟨hwait, hdropped⟩ := Prod.mk.inj hends
  obtain ⟨hiff, -, hcoming, -⟩ := report_wait_can_end_iff hrun hwait
  exact ⟨w, hrun, _, _, hwait, hiff.mpr (hcoming rfl hdropped)⟩

/-! ## The remote wakeup -/

/-- While `hid_task` has a report to send, the host has been asked to wake up since the device
was suspended, if it may be: whichever of the two sides wrote its flag last has seen the other
one. -/
theorem remote_wakeup_requested {act : TusbActuator} {layout : KeyboardLayout} {mounted : Bool}
    {labels : List WakeupsLabel} {w : Wakeups}
    (hrun : run wakeupsStep (Wakeups.init act layout mounted) labels = some w)
    (htried : w.hid.Tried) (hcallback : w.usb.inSuspend = false) (hsuspended : w.suspended = true)
    (henabled : w.remoteWakeupEn = true) : w.pendingSend = true ∧ w.wakeRequested = true := by
  have hinv := run_wakeupsInv hrun
  refine ⟨hinv.raised ?_, hinv.woken htried hcallback hsuspended henabled⟩
  cases hpc : w.hid with
  | sending send pc rest =>
      rw [hpc] at htried
      intro hraise
      rw [hraise] at htried
      exact htried
  | _ =>
      rw [hpc] at htried
      exact htried.elim

theorem remote_wakeup_requested_key :
    ∃ w, run wakeupsStep (Wakeups.init (tusbActuatorInit 1920 1080) .us true)
        (keyToReport (.keyDown 0x61 0 0) 1000) = some w ∧
      w.pendingSend = true ∧ w.wakeRequested = true := by
  have hview : (run wakeupsStep (Wakeups.init (tusbActuatorInit 1920 1080) .us true)
      (keyToReport (.keyDown 0x61 0 0) 1000)).map
        (fun w => (w.hid, w.usb, w.suspended, w.remoteWakeupEn)) =
      some (.sending (.keyboard [0, 0, 4, 0, 0, 0, 0, 0]) .report [], .idle, true, true) := by
    decide +kernel
  obtain ⟨w, hrun, hends⟩ := Option.map_eq_some_iff.mp hview
  simp only [Prod.mk.injEq] at hends
  obtain ⟨hpc, husb, hsuspended, henabled⟩ := hends
  have htried : w.hid.Tried := by
    rw [hpc]
    trivial
  have hcallback : w.usb.inSuspend = false := by
    rw [husb]
    rfl
  exact ⟨w, hrun, remote_wakeup_requested hrun htried hcallback hsuspended henabled⟩

end Esp32Deskflow.Tusb
