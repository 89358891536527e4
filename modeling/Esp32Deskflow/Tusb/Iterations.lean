/-
  Tusb/Iterations.lean --- an iteration of `hid_task`, access by access, against
  `Hid.iteration`.

  `Hid.iteration` takes the answers of `tud_hid_report` from a script and is through in
  one step.  In `Wakeups` the task stops at every access, sleeps and is woken, and the
  USB stack runs its callbacks in between.  Both end in the same state.

  At each point `left` says what `hid_task` still has to do; a step takes from it what
  it does, and the steps of the USB stack take nothing.
-/
import Esp32Deskflow.Tusb.Wakeups

set_option autoImplicit false

namespace Esp32Deskflow.Tusb

open Esp32Deskflow.Foundation Esp32Deskflow.Foundation.Transition

/-! ## What is left to do -/

/-- The state as `Hid` has it, with the answers to come. -/
def Wakeups.hidAt (w : Wakeups) (processed : List ActCmd) (answers : List Bool) : Hid where
  act := w.act
  layout := w.layout
  mounted := w.mounted
  answers := answers
  calls := w.calls
  processed := processed

/-- A report function that waits, from its first `tud_hid_report` on. -/
def Hid.finishSend (h : Hid) (send : HidSend) : Option Hid :=
  if send.retries then
    (sendUntilAccepted send.report h.answers).map fun r =>
      { h with act := send.sent h.act, calls := h.calls ++ r.1, answers := r.2 }
  else
    match h.answers with
    | [] => none
    | answer :: answers =>
        some { h with
          act := if answer then send.sent h.act else h.act
          calls := h.calls ++ [(send.report, answer)]
          answers := answers }

/-- The rest of the iteration. -/
def left (h : Hid) : HidTaskPc → Option Hid
  | .loopTop => some h
  | .moving => (if h.mounted then h.sendAbsMouseOnce else some h).bind Hid.commandStep
  | .receive _ => h.commandStep
  | .idle _ => some h
  | .received cmd =>
      if h.mounted then { h with processed := h.processed ++ [cmd] }.processCommand cmd else some h
  | .stmts rest => h.runStmts rest
  | .sending send pc rest =>
      (if pc = .lower then some h else h.finishSend send).bind fun h => h.runStmts rest

theorem finishSend_mouseSend (h : Hid) : h.finishSend h.act.mouseSend = h.sendAbsMouseRetry := by
  unfold Hid.finishSend Hid.sendAbsMouseRetry Hid.tryMouse
  by_cases himportant : h.act.mouseButtons ≠ h.act.lastSentButtons
  · have hretries : h.act.mouseSend.retries = true := decide_eq_true himportant
    rw [if_pos himportant, if_pos hretries]
    rfl
  · have hretries : ¬ h.act.mouseSend.retries = true := by
      simpa [HidSend.retries, TusbActuator.mouseSend] using himportant
    rw [if_neg himportant, if_neg hretries]
    cases h.answers with
    | nil => rfl
    | cons answer answers => cases answer <;> rfl

/-- From `w` to `w'` the task does a part of what is left, with the answers it is given. -/
def Does (w w' : Wakeups) : Prop :=
  ∀ processed, ∃ used processed', w'.calls.map Prod.snd = w.calls.map Prod.snd ++ used ∧
    ∀ future, left (w.hidAt processed (used ++ future)) w.hid =
      left (w'.hidAt processed' future) w'.hid

theorem Does.refl (w : Wakeups) : Does w w :=
  fun processed => ⟨[], processed, (List.append_nil _).symm, fun _ => rfl⟩

theorem Does.trans {w w' w'' : Wakeups} (h : Does w w') (h' : Does w' w'') : Does w w'' := by
  intro processed
  obtain ⟨used, processed', hcalls, hleft⟩ := h processed
  obtain ⟨used', processed'', hcalls', hleft'⟩ := h' processed'
  refine ⟨used ++ used', processed'', ?_, fun future => ?_⟩
  · rw [hcalls', hcalls, List.append_assoc]
  · rw [List.append_assoc, hleft, hleft']

/-- A step that `tud_hid_report` has no part in. -/
theorem Does.of_left {w w' : Wakeups} (hcalls : w'.calls = w.calls)
    (hleft : ∀ processed answers,
      left (w.hidAt processed answers) w.hid = left (w'.hidAt processed answers) w'.hid) :
    Does w w' := by
  intro processed
  refine ⟨[], processed, ?_, hleft processed⟩
  rw [hcalls, List.append_nil]

/-! ## The steps of `hid_task` -/

theorem sendStep_does {w w' : Wakeups} {send : HidSend} {pc : SendPc} {rest : List HidStmt}
    (hpc : w.hid = .sending send pc rest) (hstep : sendStep w send rest pc = some w') :
    Does w w' := by
  have hsame : ∀ {pc' : SendPc} {w' : Wakeups}, pc ≠ .lower → pc' ≠ .lower →
      w'.hid = .sending send pc' rest → w'.calls = w.calls →
      (∀ processed answers, w'.hidAt processed answers = w.hidAt processed answers) →
      Does w w' := by
    intro pc' w' hpre hpost hpc' hcalls hstate
    refine .of_left hcalls fun processed answers => ?_
    rw [hpc, hpc', hstate]
    simp only [left, if_neg hpre, if_neg hpost]
  cases pc with
  | raise =>
      cases hstep
      exact hsame (by decide) (by decide) rfl rfl fun _ _ => rfl
  | readSuspended =>
      cases hstep
      exact hsame (by decide) (by split <;> decide) rfl rfl fun _ _ => rfl
  | readEnabled =>
      cases hstep
      exact hsame (by decide) (by split <;> decide) rfl rfl fun _ _ => rfl
  | readPending =>
      cases hstep
      exact hsame (by decide) (by split <;> decide) rfl rfl fun _ _ => rfl
  | wakeup =>
      cases hstep
      exact hsame (by decide) (by decide) rfl rfl fun _ _ => rfl
  | report => cases hstep
  | waiting ready =>
      simp only [sendStep] at hstep
      split at hstep
      · cases hstep
        exact hsame (by simp) (by decide) rfl rfl fun _ _ => rfl
      · cases hstep
  | lower =>
      cases hstep
      refine .of_left rfl fun processed answers => ?_
      rw [hpc]
      rfl

theorem stmtsStep_does {w w' : Wakeups} {stmts : List HidStmt} (hpc : w.hid = .stmts stmts)
    (hstep : stmtsStep w stmts = some w') : Does w w' := by
  unfold stmtsStep at hstep
  split at hstep
  · cases hstep
    refine .of_left rfl fun processed answers => ?_
    rw [hpc]
    rfl
  · next report rest =>
      cases hstep
      refine .of_left rfl fun processed answers => ?_
      rw [hpc]
      rfl
  · next rest =>
      cases hstep
      refine .of_left rfl fun processed answers => ?_
      rw [hpc]
      have hsend := finishSend_mouseSend (w.hidAt processed answers)
      exact congrArg (fun o => Option.bind o fun h => Hid.runStmts h rest) hsend.symm
  · cases hstep
  · next x y rest =>
      cases hstep
      refine .of_left rfl fun processed answers => ?_
      rw [hpc]
      rfl
  · next rest =>
      cases hstep
      refine .of_left rfl fun processed answers => ?_
      rw [hpc]
      rfl

theorem receive_does {w : Wakeups} {missed : Bool} (hpc : w.hid = .receive missed) :
    Does w (w.receive missed) := by
  unfold Wakeups.receive
  split
  · next hreceive =>
      refine .of_left rfl fun processed answers => ?_
      have hreceive' : (w.hidAt processed answers).act.xQueueReceive = none := hreceive
      rw [hpc]
      simp only [left, Hid.commandStep, hreceive']
      rfl
  · next cmd act hreceive =>
      refine .of_left rfl fun processed answers => ?_
      have hreceive' : (w.hidAt processed answers).act.xQueueReceive = some (cmd, act) := hreceive
      rw [hpc]
      simp only [left, Hid.commandStep, hreceive']
      rfl

theorem dispatch_does {w : Wakeups} {cmd : ActCmd} (hpc : w.hid = .received cmd) :
    Does w (w.dispatch cmd) := by
  unfold Wakeups.dispatch
  split
  · next hmounted =>
      intro processed
      refine ⟨[], processed ++ [cmd], (List.append_nil _).symm, fun answers => ?_⟩
      have hmounted' : (w.hidAt processed answers).mounted = true := hmounted
      rw [hpc]
      simp only [left, List.nil_append, if_pos hmounted', processCommand_eq_runStmts]
      rfl
  · next hmounted =>
      refine .of_left rfl fun processed answers => ?_
      have hmounted' : ¬ (w.hidAt processed answers).mounted = true := hmounted
      rw [hpc]
      simp only [left, if_neg hmounted']
      rfl

theorem hidTaskStep_does {w w' : Wakeups} (hstep : hidTaskStep w = some w') : Does w w' := by
  unfold hidTaskStep at hstep
  split at hstep
  · cases hstep
  · cases hstep
  · next missed hpc =>
      cases hstep
      exact receive_does hpc
  · next missed hpc =>
      split at hstep
      · cases hstep
        refine .of_left rfl fun processed answers => ?_
        rw [hpc]
        rfl
      · cases hstep
  · next cmd hpc =>
      cases hstep
      exact dispatch_does hpc
  · next stmts hpc => exact stmtsStep_does hpc hstep
  · next send pc rest hpc => exact sendStep_does hpc hstep

/-- `send_abs_mouse_once` with the answer that the stack gives, if it is asked. -/
theorem sendAbsMouseOnce_hidAt (w : Wakeups) (ready : Bool) :
    ∃ used, (w.sendAbsMouseOnce ready).calls.map Prod.snd = w.calls.map Prod.snd ++ used ∧
      ∀ processed future, (w.hidAt processed (used ++ future)).sendAbsMouseOnce =
        some ((w.sendAbsMouseOnce ready).hidAt processed future) := by
  unfold Wakeups.sendAbsMouseOnce
  split
  · next hsame =>
      refine ⟨[], (List.append_nil _).symm, fun processed future => ?_⟩
      unfold Hid.sendAbsMouseOnce
      exact if_pos hsame
  · next hchanged =>
      have hasks : ∀ processed answers, (w.hidAt processed answers).sendAbsMouseOnce =
          (w.hidAt processed answers).tryMouse := fun processed answers => if_neg hchanged
      cases haccepted : ready && !w.inFlight with
      | true =>
          refine ⟨[true], ?_, fun processed future => ?_⟩
          · simp [Wakeups.tudHidReport, haccepted, Wakeups.withAct]
          · rw [hasks]
            simp only [Wakeups.tudHidReport, haccepted]
            rfl
      | false =>
          refine ⟨[false], ?_, fun processed future => ?_⟩
          · simp [Wakeups.tudHidReport, haccepted]
          · rw [hasks]
            simp only [Wakeups.tudHidReport, haccepted]
            rfl

/-- A refused report that is tried again is still to be sent. -/
theorem finishSend_false {h : Hid} {send : HidSend} {answers : List Bool}
    (hretries : send.retries = true) :
    { h with answers := false :: answers }.finishSend send =
      { h with
        calls := h.calls ++ [(send.report, false)], answers := answers }.finishSend send := by
  unfold Hid.finishSend
  rw [if_pos hretries, if_pos hretries]
  simp only [sendUntilAccepted, Option.map_map]
  refine congrArg (fun f => Option.map f _) (funext fun r => ?_)
  simp [List.append_assoc]

theorem hidReportStep_does {w w' : Wakeups} {ready : Bool}
    (hstep : hidReportStep w ready = some w') : Does w w' := by
  unfold hidReportStep at hstep
  split at hstep
  · next hpc =>
      cases hstep
      intro processed
      by_cases hmounted : w.mounted = true
      · rw [if_pos hmounted]
        obtain ⟨used, hcalls, hsend⟩ := sendAbsMouseOnce_hidAt w ready
        refine ⟨used, processed, hcalls, fun future => ?_⟩
        have hmounted' : (w.hidAt processed (used ++ future)).mounted = true := hmounted
        rw [hpc]
        simp only [left, if_pos hmounted', hsend, Option.bind_some]
        rfl
      · rw [if_neg hmounted]
        refine ⟨[], processed, (List.append_nil _).symm, fun future => ?_⟩
        have hmounted' : ¬ (w.hidAt processed ([] ++ future)).mounted = true := hmounted
        rw [hpc]
        simp only [left, if_neg hmounted', Option.bind_some]
        rfl
  · next rest hpc =>
      cases hstep
      intro processed
      obtain ⟨used, hcalls, hsend⟩ := sendAbsMouseOnce_hidAt w ready
      refine ⟨used, processed, hcalls, fun future => ?_⟩
      rw [hpc]
      simp only [left, Hid.runStmts, Hid.runStmt, hsend, Option.bind_some]
      rfl
  · next send rest hpc =>
      intro processed
      have hleft : ∀ answers, left (w.hidAt processed answers) w.hid =
          ((w.hidAt processed answers).finishSend send).bind fun h => h.runStmts rest := by
        intro answers
        rw [hpc]
        rfl
      cases haccepted : ready && !w.inFlight with
      | true =>
          simp only [Wakeups.tudHidReport, haccepted, Option.some.injEq] at hstep
          subst hstep
          refine ⟨[true], processed, by simp [Wakeups.withAct], fun future => ?_⟩
          have hfinish : (w.hidAt processed (true :: future)).finishSend send =
              some { w.hidAt processed future with
                act := send.sent w.act, calls := w.calls ++ [(send.report, true)] } := by
            unfold Hid.finishSend
            split <;> rfl
          rw [hleft]
          exact congrArg (fun o => Option.bind o fun h => Hid.runStmts h rest) hfinish
      | false =>
          simp only [Wakeups.tudHidReport, haccepted, Option.some.injEq] at hstep
          cases hretries : send.retries with
          | true =>
              simp only [hretries, if_true] at hstep
              subst hstep
              refine ⟨[false], processed, by simp, fun future => ?_⟩
              have hfinish : (w.hidAt processed (false :: future)).finishSend send =
                  { w.hidAt processed future with
                    calls := w.calls ++ [(send.report, false)] }.finishSend send :=
                finishSend_false (h := w.hidAt processed future) hretries
              rw [hleft]
              exact congrArg (fun o => Option.bind o fun h => Hid.runStmts h rest) hfinish
          | false =>
              simp only [hretries, Bool.false_eq_true, if_false] at hstep
              subst hstep
              refine ⟨[false], processed, by simp, fun future => ?_⟩
              rw [hleft]
              have hfinish : (w.hidAt processed (false :: future)).finishSend send =
                  some { w.hidAt processed future with
                    calls := w.calls ++ [(send.report, false)] } := by
                unfold Hid.finishSend
                rw [if_neg (by simp [hretries])]
                rfl
              exact congrArg (fun o => Option.bind o fun h => Hid.runStmts h rest) hfinish
  · cases hstep

/-! ## The others -/

/-- The steps of `hid_task` behind its compare-exchange, and those of the others that leave the
actuator, the layout and the mount status alone. -/
def WakeupsLabel.Undisturbed : WakeupsLabel → Prop
  | .hidReport _ => True
  | .hid => True
  | .netGive => True
  | .suspend _ => True
  | .resume => True
  | .complete => True
  | .usb => True
  | _ => False

/-- What the others do in between is no part of the iteration. -/
theorem Does.of_same {w w' : Wakeups} (hhid : w'.hid = w.hid) (hcalls : w'.calls = w.calls)
    (hstate : ∀ processed answers, w'.hidAt processed answers = w.hidAt processed answers) :
    Does w w' := by
  refine .of_left hcalls fun processed answers => ?_
  rw [hhid, hstate]

theorem usbStep_does {w w' : Wakeups} (hstep : usbStep w = some w') : Does w w' := by
  unfold usbStep at hstep
  split at hstep
  case h_1 => cases hstep
  all_goals
    cases hstep
    exact .of_same rfl rfl fun _ _ => rfl

theorem wakeupsStep_does {w w' : Wakeups} {label : WakeupsLabel} (hlabel : label.Undisturbed)
    (hstep : wakeupsStep w label = some w') : Does w w' := by
  cases label with
  | hidReport ready => exact hidReportStep_does hstep
  | hid => exact hidTaskStep_does hstep
  | netGive =>
      simp only [wakeupsStep] at hstep
      split at hstep
      · cases hstep
        exact .of_same rfl rfl fun _ _ => rfl
      · cases hstep
  | suspend enabled =>
      simp only [wakeupsStep] at hstep
      split at hstep
      · cases hstep
        exact .of_same rfl rfl fun _ _ => rfl
      · cases hstep
  | resume =>
      simp only [wakeupsStep] at hstep
      split at hstep
      · cases hstep
        exact .of_same rfl rfl fun _ _ => rfl
      · cases hstep
  | complete =>
      simp only [wakeupsStep] at hstep
      split at hstep
      · cases hstep
        exact .of_same rfl rfl fun _ _ => rfl
      · cases hstep
  | usb => exact usbStep_does hstep
  | _ => exact hlabel.elim

theorem run_does {labels : List WakeupsLabel} {w w' : Wakeups}
    (hall : ∀ l ∈ labels, l.Undisturbed) (hrun : run wakeupsStep w labels = some w') :
    Does w w' := by
  induction labels generalizing w with
  | nil =>
      cases hrun
      exact .refl _
  | cons label labels ih =>
      obtain ⟨hlabel, hall⟩ := List.forall_mem_cons.mp hall
      obtain ⟨m, hm, hrest⟩ := run_cons_iff.mp hrun
      exact (wakeupsStep_does hlabel hm).trans (ih hall hrest)

/-! ## An iteration -/

/-- After the compare-exchange, an iteration is left. -/
theorem left_hidExchange {w w' : Wakeups} (hstep : hidExchangeStep w false = some w')
    (processed : List ActCmd) (answers : List Bool) :
    (w.hidAt processed answers).iteration = left (w'.hidAt processed answers) w'.hid ∧
      w'.calls = w.calls := by
  unfold hidExchangeStep at hstep
  split at hstep
  · split at hstep
    · next hpending =>
        simp only [Bool.false_eq_true, if_false, Option.some.injEq] at hstep
        subst hstep
        have hpending' : (w.hidAt processed answers).act.movementPending = 1 := hpending
        refine ⟨?_, rfl⟩
        simp only [Hid.iteration, Hid.movementStep, if_pos hpending']
        rfl
    · next hclear =>
        simp only [Option.some.injEq] at hstep
        subst hstep
        have hclear' : ¬ (w.hidAt processed answers).act.movementPending = 1 := hclear
        refine ⟨?_, rfl⟩
        simp only [Hid.iteration, Hid.movementStep, if_neg hclear']
        rfl
  · cases hstep

/-- From one compare-exchange of `hid_task` to the end of the iteration or to its sleep, whatever
the USB stack refuses, suspends, resumes and completes in between and however often the task is
woken: the actuator and the reports are those of `Hid.iteration` with the answers given. -/
theorem iteration_of_run {w w' : Wakeups} {labels : List WakeupsLabel}
    (hall : ∀ l ∈ labels, l.Undisturbed)
    (hrun : run wakeupsStep w (.hidExchange false :: labels) = some w')
    (hend : w'.hid = .loopTop ∨ ∃ missed, w'.hid = .idle missed) (processed : List ActCmd) :
    ∃ answers processed', w'.calls.map Prod.snd = w.calls.map Prod.snd ++ answers ∧
      (w.hidAt processed answers).iteration = some (w'.hidAt processed' []) := by
  obtain ⟨m, hm, hrest⟩ := run_cons_iff.mp hrun
  obtain ⟨used, processed', hcalls, hleft⟩ := run_does hall hrest processed
  have hstart := left_hidExchange hm processed used
  refine ⟨used, processed', ?_, ?_⟩
  · rw [hcalls, hstart.2]
  · have hrest := hleft []
    rw [List.append_nil] at hrest
    rw [hstart.1, hrest]
    rcases hend with hend | ⟨missed, hend⟩ <;> rw [hend] <;> rfl

/-- A key, refused once by a device that wakes up: suspended, woken, resumed. -/
def refusedKey : List WakeupsLabel :=
  List.replicate 8 .hid ++ [.hidReport false, .resume, .hid, .hidReport true, .hid, .hid]

theorem iteration_of_run_refusedKey :
    ∃ w w', run wakeupsStep (Wakeups.init (tusbActuatorInit 1920 1080) .us true)
        [.net (.call (.keyDown 0x61 0 0) 1000), .net .send, .netGive] = some w ∧
      run wakeupsStep w (.hidExchange false :: refusedKey) = some w' ∧
      ∃ answers processed', w'.calls.map Prod.snd = w.calls.map Prod.snd ++ answers ∧
        (w.hidAt [] answers).iteration = some (w'.hidAt processed' []) := by
  have hview : ((run wakeupsStep (Wakeups.init (tusbActuatorInit 1920 1080) .us true)
      [.net (.call (.keyDown 0x61 0 0) 1000), .net .send, .netGive]).bind fun w =>
        (run wakeupsStep w (.hidExchange false :: refusedKey)).map Wakeups.hid) =
      some .loopTop := by
    decide +kernel
  obtain ⟨w, hbefore, hview⟩ := Option.bind_eq_some_iff.mp hview
  obtain ⟨w', hrun, hend⟩ := Option.map_eq_some_iff.mp hview
  have hall : ∀ l ∈ refusedKey, l.Undisturbed := by
    simp [refusedKey, WakeupsLabel.Undisturbed]
  exact ⟨w, w', hbefore, hrun, iteration_of_run hall hrun (Or.inl hend) []⟩

end Esp32Deskflow.Tusb
