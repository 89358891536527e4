/-
  UsbHost/StartMounted.lean --- what `ESP_OK` of `usb_host_msc_start` tells its caller.

  The call waits for one semaphore.  `handle_device_connected` gives it when the module is
  mounted, and a host task gives it whenever it ends: after a failed installation, and after
  its cleanup.  The call returns `ESP_OK` for each of them.
-/
import Esp32Deskflow.UsbHost.UsbHostMsc

set_option autoImplicit false

namespace Esp32Deskflow.UsbHost

open Esp32Deskflow.Foundation Esp32Deskflow.Foundation.Transition

/-! ## Return values -/

/-- What `usb_host_msc_start` returns, if it ends with the step. -/
def startReturns (s : MscHost) (a : MscStep) : Option EspErr :=
  (mscStep s a).bind fun _ =>
    match a with
    | .start =>
        match s.state with
        | .mounted => some .ok
        | .activating => some .invalidState
        | .inactive | .error => none
    | .fail => some .fail
    | .takeMounted => some .ok
    | .settle => some .timeout
    | _ => none

/-- The call in progress is one of `usb_host_msc_start`. -/
def Control.inStart : Control → Bool
  | .recovering | .activating | .clearing | .emptying | .creating | .failing | .created _
  | .waiting | .givingUp | .draining | .settling => true
  | .idle | .requesting | .stopping | .stopped => false

/-- The steps of `usb_host_msc_start`. -/
def MscStep.ofStart : MscStep → Bool
  | .start | .recover | .activate | .clearStop | .emptySem | .create _ | .fail | .storeHandle
  | .takeMounted | .timeOut | .giveUp | .drain | .settle => true
  | .stop | .requestStop | .stopWaited _ | .deactivate | .event _ | .host _ _ => false

/-- `s_state` is mounted, or it was so earlier in the call of `usb_host_msc_start` that is in
progress; the second component remembers it. -/
def mountedInCall (s : MscHost × Bool) : Bool := s.1.isMounted || (s.1.control.inStart && s.2)

/-- The system that remembers whether `s_state` was mounted in the call. -/
def seenStep : MscHost × Bool → MscStep → Option (MscHost × Bool) :=
  withGhost mscStep fun s _ seen => mountedInCall (s, seen)

/-- If the step returns `ESP_OK` from `usb_host_msc_start`, `s_state` has been mounted in that
call. -/
def OkMeansMounted (s : MscHost × Bool) (a : MscStep) : Prop :=
  startReturns s.1 a = some .ok → mountedInCall s = true

/-! ## The semaphore -/

/-- The step gives `s_mounted_sem`. -/
def givesSem (s : MscHost) : MscStep → Bool
  | .host i _ =>
      match s.tasks[i]? with
      | some ⟨_, .giveMounted _⟩ | some ⟨_, .signal⟩ => true
      | _ => false
  | _ => false

/-- A semaphore that is given to a waiting `usb_host_msc_start` tells it that `s_state` has been
mounted. -/
def GivesMounted (s : MscHost × Bool) (a : MscStep) : Prop :=
  givesSem s.1 a = true → s.1.control.awaits = true → mountedInCall s = true

instance (s : MscHost × Bool) (a : MscStep) : Decidable (OkMeansMounted s a) :=
  inferInstanceAs (Decidable (_ → _))

theorem Control.inStart_of_awaits {c : Control} (h : c.awaits = true) : c.inStart = true := by
  cases c with
  | creating | created task | waiting => rfl
  | idle | recovering | activating | clearing | emptying | failing | givingUp | draining
  | settling | requesting | stopping | stopped => cases h

/-- What is seen in a call is not forgotten in it. -/
theorem mountedInCall_of_step {s t : MscHost × Bool} {a : MscStep} (h : seenStep s a = some t)
    (ht : t.1.control.inStart = true) (hs : mountedInCall s = true) : mountedInCall t = true := by
  have hghost : t.2 = true := (withGhost_eq_some_iff.mp h).2.trans hs
  rw [mountedInCall, ht, hghost, Bool.and_true, Bool.or_true]

theorem mountedSem_of_host {s t : MscHost} {i : Nat} {io : HostIo} (h : hostStep s i io = some t)
    (hsem : t.mountedSem = true) : s.mountedSem = true ∨ givesSem s (.host i io) = true := by
  unfold hostStep at h
  split at h
  · cases h
  · rename_i task htask
    obtain ⟨id, pc⟩ := task
    cases pc with
    | giveMounted idle | signal =>
        refine Or.inr ?_
        rw [givesSem, htask]
    | entry | clearHandle failed | setError =>
        cases h
        exact Or.inl hsem
    | installHost | installMsc | check idle =>
        simp only at h
        split at h
        · cases h
          exact Or.inl hsem
        · cases h
          exact Or.inl hsem
    | loop =>
        cases h
        obtain ⟨_, _, _, hframe⟩ := handleEvent_frame s io
        rw [MscHost.setPc, hframe] at hsem
        exact Or.inl hsem
    | cleanup slot =>
        simp only at h
        split at h
        · cases h
          obtain ⟨_, hframe⟩ := cleanupSlot_frame s slot
          rw [MscHost.setPc, hframe] at hsem
          exact Or.inl hsem
        · cases h
          exact Or.inl hsem

/-- A waiting call that finds the semaphore full has waited before, and the semaphore was full
then or the step gave it. -/
theorem awaits_of_step {s t : MscHost} {a : MscStep} (h : mscStep s a = some t)
    (ht : t.control.awaits = true) (hsem : t.mountedSem = true) :
    s.control.awaits = true ∧ (s.mountedSem = true ∨ givesSem s a = true) := by
  rcases callerEffect_of_step h with ⟨i, io, rfl⟩ | hcaller
  · rw [(effect_host h).2] at ht
    exact ⟨ht, mountedSem_of_host h hsem⟩
  · obtain ⟨hawaits, hfull⟩ := hcaller.awaits ht hsem
    exact ⟨hawaits, Or.inl hfull⟩

/-! ## Only mounts are signalled -/

/-- The semaphore is full in a call that waits for it only if `s_state` has been mounted in the
call. -/
def SemMeansMounted (s : MscHost × Bool) : Prop :=
  s.1.control.awaits = true → s.1.mountedSem = true → mountedInCall s = true

theorem semMeansMounted_of_step {s t : MscHost × Bool} {a : MscStep} (hs : SemMeansMounted s)
    (hgives : GivesMounted s a) (h : seenStep s a = some t) : SemMeansMounted t := by
  intro ht hsem
  obtain ⟨hawaits, hfull⟩ := awaits_of_step (withGhost_eq_some_iff.mp h).1 ht hsem
  refine mountedInCall_of_step h (Control.inStart_of_awaits ht) ?_
  rcases hfull with hfull | hgave
  · exact hs hawaits hfull
  · exact hgives hgave hawaits

theorem okMeansMounted_of_sem {s : MscHost × Bool} {a : MscStep} (hs : SemMeansMounted s) :
    OkMeansMounted s a := by
  intro hret
  obtain ⟨t, hstep, hret⟩ := Option.bind_eq_some_iff.mp hret
  cases a with
  | start =>
      simp only at hret
      split at hret
      · rename_i hmounted
        rw [mountedInCall, MscHost.isMounted, hmounted]
        rfl
      · cases hret
      · cases hret
      · cases hret
  | takeMounted =>
      obtain ⟨⟨hwaiting, hsem⟩, _⟩ := Option.ite_none_right_eq_some.mp hstep
      exact hs (by rw [hwaiting]; rfl) hsem
  | recover | activate | clearStop | emptySem | create created | fail | storeHandle | timeOut
  | giveUp | drain | settle | stop | requestStop | stopWaited timedOut | deactivate | event msg
  | host i io => cases hret

/-! ## Other signals mislead the call -/

/-- `usb_host_msc_start`, if it goes on alone, returns `ESP_OK` without having seen `s_state`
mounted. -/
def Misled (s : MscHost × Bool) : Prop :=
  ∃ own, (∀ b ∈ own, b.ofStart = true) ∧ ¬ AllSteps seenStep OkMeansMounted s own

theorem Misled.of_step {s t : MscHost × Bool} {b : MscStep} (hown : b.ofStart = true)
    (hstep : seenStep s b = some t) (h : Misled t) : Misled s :=
  CanBreak.of_step hown hstep h

/-- A step that leaves `s_state` alone shows nothing. -/
theorem unseen_of_step {s t : MscHost × Bool} {a : MscStep} (hstep : seenStep s a = some t)
    (hstate : t.1.state = s.1.state) (hs : mountedInCall s = false) : mountedInCall t = false := by
  have hghost : t.2 = false := (withGhost_eq_some_iff.mp hstep).2.trans hs
  have hmounted : t.1.isMounted = false := by
    rw [MscHost.isMounted, hstate]
    exact (Bool.or_eq_false_iff.mp hs).1
  rw [mountedInCall, hmounted, hghost, Bool.and_false, Bool.or_false]

theorem misled_waiting {s : MscHost × Bool} (hcontrol : s.1.control = .waiting)
    (hsem : s.1.mountedSem = true) (hseen : mountedInCall s = false) : Misled s := by
  refine ⟨[.takeMounted], List.forall_mem_singleton.mpr rfl, ?_⟩
  rintro ⟨hok, _⟩
  have hret : startReturns s.1 .takeMounted = some .ok := by
    rw [startReturns, mscStep, if_pos ⟨hcontrol, hsem⟩]
    rfl
  rw [hok hret] at hseen
  cases hseen

theorem misled_created {s : MscHost × Bool} {task : Nat} (hcontrol : s.1.control = .created task)
    (hsem : s.1.mountedSem = true) (hseen : mountedInCall s = false) : Misled s := by
  have hstep : seenStep s .storeHandle =
      some ({ s.1 with taskHandle := some task, control := .waiting }, mountedInCall s) := by
    rw [seenStep, withGhost, mscStep, hcontrol]
    rfl
  exact .of_step rfl hstep (misled_waiting rfl hsem (unseen_of_step hstep rfl hseen))

/-- A call that waits with a full semaphore and has not seen `s_state` mounted. -/
theorem misled_of_full {s : MscHost × Bool} (hawaits : s.1.control.awaits = true)
    (hsem : s.1.mountedSem = true) (hseen : mountedInCall s = false) : Misled s := by
  cases hcontrol : s.1.control with
  | waiting => exact misled_waiting hcontrol hsem hseen
  | created task => exact misled_created hcontrol hsem hseen
  | creating =>
      have hcreate : mscStep s.1 (.create true) = some { s.1 with
          control := .created s.1.nextTask
          tasks := s.1.tasks ++ [⟨s.1.nextTask, .entry⟩]
          nextTask := s.1.nextTask + 1 } := by
        rw [mscStep, if_neg (not_not.mpr hcontrol), if_pos rfl]
      have hstep : seenStep s (.create true) = some (_, mountedInCall s) :=
        withGhost_eq_some_iff.mpr ⟨hcreate, rfl⟩
      exact .of_step rfl hstep (misled_created rfl hsem (unseen_of_step hstep rfl hseen))
  | idle | recovering | activating | clearing | emptying | failing | givingUp | draining
  | settling | requesting | stopping | stopped =>
      rw [hcontrol] at hawaits
      cases hawaits

/-- What a step does that gives the semaphore. -/
theorem step_of_givesSem {s : MscHost} {a : MscStep} (h : givesSem s a = true) :
    ∃ t, mscStep s a = some t ∧ t.mountedSem = true ∧ t.state = s.state ∧
      t.control = s.control := by
  unfold givesSem at h
  split at h
  · rename_i i io
    split at h
    · rename_i id idle htask
      have hstep : mscStep s (.host i io) = some ({ s with mountedSem := true }.setPc i
          ⟨id, .giveMounted idle⟩ (.check idle)) := by
        simp only [mscStep, hostStep, htask]
      exact ⟨_, hstep, rfl, rfl, rfl⟩
    · rename_i id htask
      have hstep : mscStep s (.host i io) =
          some { s with mountedSem := true, tasks := s.tasks.eraseIdx i } := by
        simp only [mscStep, hostStep, htask]
      exact ⟨_, hstep, rfl, rfl, rfl⟩
    · cases h
  · cases h

/-- A signal that does not mean a mount misleads the call. -/
theorem misled_of_signal {s : MscHost × Bool} {a : MscStep} (hbad : ¬ GivesMounted s a) :
    ∃ t, seenStep s a = some t ∧ Misled t := by
  obtain ⟨hgives, hbad⟩ := Classical.not_imp.mp hbad
  obtain ⟨hawaits, hseen⟩ := Classical.not_imp.mp hbad
  obtain ⟨t, hstep, hsem, hstate, hcontrol⟩ := step_of_givesSem hgives
  have hstep : seenStep s a = some (t, mountedInCall s) := withGhost_eq_some_iff.mpr ⟨hstep, rfl⟩
  refine ⟨_, hstep, misled_of_full ?_ hsem ?_⟩
  · rw [hcontrol]
    exact hawaits
  · exact unseen_of_step hstep hstate (Bool.eq_false_iff.mpr hseen)

/-! ## Every run -/

theorem givesMounted_of_ofStart {b : MscStep} (hown : b.ofStart = true) (s : MscHost × Bool) :
    GivesMounted s b := by
  intro hgives
  cases b with
  | host i io => cases hown
  | start | recover | activate | clearStop | emptySem | create created | fail | storeHandle
  | takeMounted | timeOut | giveUp | drain | settle | stop | requestStop | stopWaited timedOut
  | deactivate | event msg => cases hgives

/-- In a run `ESP_OK` means that `s_state` has been mounted during the call, also when
`usb_host_msc_start` goes on alone after any part of the run, if and only if every signal that
reaches a waiting call comes after `s_state` has been mounted in it. -/
theorem startOk_mounted_iff (maxMscDevices : Nat) (steps : List MscStep) :
    (∀ done own, done <+: steps → (∀ b ∈ own, b.ofStart = true) →
        AllSteps seenStep OkMeansMounted (MscHost.initial maxMscDevices, false) (done ++ own)) ↔
      AllSteps seenStep GivesMounted (MscHost.initial maxMscDevices, false) steps := by
  have hinitial : SemMeansMounted (MscHost.initial maxMscDevices, false) := nofun
  have hok : ∀ s a, SemMeansMounted s → GivesMounted s a → OkMeansMounted s a :=
    fun _ _ hs _ => okMeansMounted_of_sem hs
  have hkeeps : ∀ s a t, SemMeansMounted s → GivesMounted s a → seenStep s a = some t →
      SemMeansMounted t :=
    fun _ _ _ hs hgives hstep => semMeansMounted_of_step hs hgives hstep
  have hown : ∀ s b, MscStep.ofStart b = true → GivesMounted s b :=
    fun s _ hown => givesMounted_of_ofStart hown s
  exact allSteps_own_iff hok hkeeps hown (fun _ _ _ hbad => misled_of_signal hbad) hinitial

/-- A start whose task cannot install the USB host library. -/
def failedInstallSteps : List MscStep :=
  [.start, .activate, .clearStop, .emptySem, .create true, .storeHandle, .host 0 {},
    .host 0 { hostInstall := .noMem }, .host 0 {}, .host 0 {}, .host 0 {}, .takeMounted]

/-- The start returns `ESP_OK`, and the module is in its error state. -/
theorem not_okMeansMounted_failedInstall :
    run seenStep (MscHost.initial 2, false) failedInstallSteps =
        some ({ MscHost.initial 2 with state := .error, nextTask := 1 }, false) ∧
      ¬ AllSteps seenStep OkMeansMounted (MscHost.initial 2, false) failedInstallSteps := by
  exact ⟨by decide +kernel, by decide +kernel⟩

end Esp32Deskflow.UsbHost
