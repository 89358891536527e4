/-
  Device/HostInput.lean --- from the server's packets to what the host sees.

  The packets of a session say which keys and buttons are down.  They pass through the
  client task, the queue and `hid_task`, any of which may be ahead of the next one.  Once
  the line is empty, and if nothing disturbed the session, the host sees the keys and the
  buttons of the packets, whatever was rejected or sent twice on the way.
-/
import Esp32Deskflow.Device.Firmware
import Esp32Deskflow.Tusb.HostView

set_option autoImplicit false

namespace Esp32Deskflow.Device

open Esp32Deskflow.Foundation Esp32Deskflow.Foundation.History
  Esp32Deskflow.Foundation.Transition Esp32Deskflow.Config Esp32Deskflow.Barrier
  Esp32Deskflow.Tusb

/-! ## What the commands mean -/

/-- What the host is to see of the keys and the buttons. -/
structure Input where
  /-- the keys that are down -/
  keys : Finset UInt16
  /-- the mask and the keys of the last keyboard report, if a command asked for one -/
  keyboard : Option (UInt16 × Finset UInt16)
  /-- the buttons that are down -/
  buttons : Finset Int8
  /-- a button was pressed or released since the last LEAVE, whose mouse report is tried only
  once -/
  clicked : Bool

/-- Nothing is down. -/
def Input.none : Input := ⟨∅, .none, ∅, false⟩

/-- The keyboard report of a command, with the keys that are down after it. -/
def keyboardAfter (before : Option (UInt16 × Finset UInt16)) (keys : Finset UInt16) :
    ActCmd → Option (UInt16 × Finset UInt16)
  | .keyDown _ mask _ | .keyUp _ mask _ => some (mask, keys)
  | .enter _ _ mask => if mask ≠ 0 then some (mask, ∅) else before
  | .leave => some (0, ∅)
  | _ => before

/-- Whether the mouse report is tried only once after a command. -/
def clickedAfter (before : Bool) : ActCmd → Bool
  | .mouseDown _ | .mouseUp _ => true
  | .leave | .disconnected => false
  | _ => before

/-- What the host is to see after a command. -/
def Input.after (i : Input) (cmd : ActCmd) : Input where
  keys := keyEffect i.keys cmd
  keyboard := keyboardAfter i.keyboard (keyEffect i.keys cmd) cmd
  buttons := buttonEffect i.buttons cmd
  clicked := clickedAfter i.clicked cmd

/-- What the host is to see after these commands. -/
def inputAfter (cmds : List ActCmd) : Input := cmds.foldl Input.after .none

/-- The host sees it: the last keyboard report that it accepted shows the keys, one a slot, and
the last mouse report the buttons. -/
structure HostShows (layout : KeyboardLayout) (i : Input) (calls : List (HidReport × Bool)) :
    Prop where
  keyboard : ∀ mask keys, i.keyboard = some (mask, keys) →
    ∃ ks : List UInt16, ks.Nodup ∧ (∀ k, k ∈ ks ↔ k ∈ keys) ∧
      ReportShows layout mask ks (hostKeyboard calls)
  buttons : i.clicked = true → hostButtons calls = buttonBits i.buttons

theorem inputAfter_concat (cmds : List ActCmd) (cmd : ActCmd) :
    inputAfter (cmds ++ [cmd]) = (inputAfter cmds).after cmd := by
  rw [inputAfter, List.foldl_append]
  rfl

theorem inputAfter_keys (cmds : List ActCmd) : (inputAfter cmds).keys = keysDown cmds := by
  induction cmds using List.reverseRecOn with
  | nil => rfl
  | append_singleton cmds cmd ih =>
      rw [inputAfter_concat, keysDown_concat, ← ih]
      rfl

/-- The commands for keys and buttons. -/
def matters : ActCmd → Bool
  | .keyDown _ _ _ | .keyUp _ _ _ | .mouseDown _ | .mouseUp _ | .enter _ _ _ | .leave => true
  | _ => false

theorem after_of_not_matters {cmd : ActCmd} (h : matters cmd = false)
    (hne : isDisconnected cmd = false) (i : Input) : i.after cmd = i := by
  cases cmd with
  | keyDown | keyUp | mouseDown | mouseUp | enter | leave => cases h
  | disconnected => cases hne
  | _ => rfl

/-- Between disconnects the other commands do not count. -/
theorem inputAfter_filter {cmds : List ActCmd} (h : ∀ cmd ∈ cmds, isDisconnected cmd = false) :
    inputAfter (cmds.filter matters) = inputAfter cmds := by
  induction cmds using List.reverseRecOn with
  | nil => rfl
  | append_singleton cmds cmd ih =>
      have hrest := ih fun c hc => h c (List.mem_append_left _ hc)
      rw [inputAfter_concat, List.filter_append, ← hrest]
      cases hm : matters cmd with
      | true => simp [hm, inputAfter_concat]
      | false =>
          rw [after_of_not_matters hm (h cmd (by simp))]
          simp [hm]

theorem disciplined_concat {cmds : List ActCmd} {cmd : ActCmd} (h : Disciplined cmds)
    (hcmd : KeyDiscipline (keysDown cmds) cmd) : Disciplined (cmds ++ [cmd]) := by
  intro before c after hsplit
  rcases List.eq_nil_or_concat' after with rfl | ⟨after, last, rfl⟩
  · obtain ⟨rfl, hlast⟩ := List.append_inj' hsplit rfl
    cases hlast
    exact hcmd
  · rw [← List.cons_append, ← List.append_assoc] at hsplit
    exact h before c after (List.append_inj' hsplit rfl).1

theorem card_keysDown_le {cmds : List ActCmd} (h : Disciplined cmds) :
    (keysDown cmds).card ≤ 6 := by
  rcases List.eq_nil_or_concat' cmds with rfl | ⟨front, cmd, rfl⟩
  · exact Nat.zero_le _
  · rw [keysDown_concat]
    exact h.of_concat.2.2

theorem disciplined_of_filter {cmds : List ActCmd}
    (hmark : ∀ cmd ∈ cmds, isDisconnected cmd = false) (h : Disciplined (cmds.filter matters)) :
    Disciplined cmds := by
  induction cmds using List.reverseRecOn with
  | nil => exact h
  | append_singleton cmds cmd ih =>
      have hbefore : ∀ c ∈ cmds, isDisconnected c = false :=
        fun c hc => hmark c (List.mem_append_left _ hc)
      have hkeys : keysDown (cmds.filter matters) = keysDown cmds := by
        rw [← inputAfter_keys, ← inputAfter_keys, inputAfter_filter hbefore]
      rw [List.filter_append] at h
      cases hm : matters cmd with
      | true =>
          have hone : [cmd].filter matters = [cmd] := by simp [hm]
          rw [hone] at h
          obtain ⟨hrest, hcmd⟩ := h.of_concat
          exact disciplined_concat (ih hbefore hrest) (hkeys ▸ hcmd)
      | false =>
          have hone : [cmd].filter matters = [] := by simp [hm]
          rw [hone, List.append_nil] at h
          have hrest := ih hbefore h
          refine disciplined_concat hrest ?_
          have hcard := card_keysDown_le hrest
          have hne := hmark cmd (by simp)
          cases cmd with
          | keyDown | keyUp | mouseDown | mouseUp | enter | leave => cases hm
          | disconnected => cases hne
          | _ => exact ⟨trivial, hcard⟩

/-! ## What one command does -/

theorem seeKeyboard_mouse (report : List UInt8) (n : Nat) (view : List UInt8) :
    (retriedCalls (.absMouse report) n).foldl seeKeyboard view = view := by
  induction n with
  | zero => rfl
  | succ n ih => exact ih

theorem hostKeyboard_try {h h' : Hid} (hsend : h.tryMouse = some h') :
    hostKeyboard h'.calls = hostKeyboard h.calls := by
  obtain ⟨answer, rest, -, rfl⟩ := tryMouse_spec hsend
  exact hostKeyboard_mouse h.calls h.act answer

theorem hostKeyboard_once {h h' : Hid} (hsend : h.sendAbsMouseOnce = some h') :
    hostKeyboard h'.calls = hostKeyboard h.calls := by
  rcases sendAbsMouseOnce_spec hsend with ⟨rfl, -⟩ | htry
  · rfl
  · exact hostKeyboard_try htry

theorem hostKeyboard_retry {h h' : Hid} (hsend : h.sendAbsMouseRetry = some h') :
    hostKeyboard h'.calls = hostKeyboard h.calls := by
  rcases sendAbsMouseRetry_spec hsend with ⟨n, rest, -, rfl⟩ | htry
  · rw [hostKeyboard, List.foldl_append]
    exact seeKeyboard_mouse _ n _
  · exact hostKeyboard_try htry

/-- What the task and the host know of the commands since the last disconnect. -/
structure Sees (h : Hid) (cmds : List ActCmd) : Prop where
  wellFormed : KeysWellFormed h.act
  keys : Disciplined cmds → ∀ k, k ∈ h.act.tracked ↔ k ∈ keysDown cmds
  keyboard : Disciplined cmds → ∀ mask keys, (inputAfter cmds).keyboard = some (mask, keys) →
    ∃ ks : List UInt16, ks.Nodup ∧ (∀ k, k ∈ ks ↔ k ∈ keys) ∧
      ReportShows h.layout mask ks (hostKeyboard h.calls)
  buttons : h.act.mouseButtons = buttonBits (inputAfter cmds).buttons
  clicked : (inputAfter cmds).clicked = true → h.act.lastSentButtons = h.act.mouseButtons

/-- The host sees what the task knows. -/
theorem Sees.hostShows {h : Hid} {cmds : List ActCmd} (hsees : Sees h cmds)
    (hbuttons : ButtonsInv h) (hdisciplined : Disciplined cmds) :
    HostShows h.layout (inputAfter cmds) h.calls :=
  ⟨hsees.keyboard hdisciplined, fun hclicked =>
    hbuttons.trans ((hsees.clicked hclicked).trans hsees.buttons)⟩

/-- Two states of the task that differ in nothing that the host could notice. -/
structure SameView (h h' : Hid) : Prop where
  slots : h'.act.pressedKeys = h.act.pressedKeys
  count : h'.act.keyCount = h.act.keyCount
  buttons : h'.act.mouseButtons = h.act.mouseButtons
  lastButtons : h'.act.lastSentButtons = h.act.lastSentButtons
  calls : h'.calls = h.calls

theorem SameView.buttonsInv {h h' : Hid} (hsame : SameView h h') (hinv : ButtonsInv h) :
    ButtonsInv h' := by
  unfold ButtonsInv
  rw [hsame.calls, hsame.lastButtons]
  exact hinv

theorem Sees.same {h h' : Hid} {cmds : List ActCmd} (hsees : Sees h cmds)
    (hsame : SameView h h') (hlayout : h'.layout = h.layout) : Sees h' cmds := by
  have htracked : h'.act.tracked = h.act.tracked := by
    rw [TusbActuator.tracked, hsame.slots, hsame.count]
    rfl
  have hwf := hsees.wellFormed
  refine ⟨⟨?_, ?_, ?_⟩, ?_, ?_, ?_, ?_⟩
  · rw [hsame.count]
    exact hwf.count_le
  · rw [htracked]
    exact hwf.distinct
  · rw [hsame.count, hsame.slots]
    exact hwf.rest_zero
  · rw [htracked]
    exact hsees.keys
  · rw [hsame.calls, hlayout]
    exact hsees.keyboard
  · rw [hsame.buttons]
    exact hsees.buttons
  · rw [hsame.buttons, hsame.lastButtons]
    exact hsees.clicked

/-- A mouse report does not show keys, and shows the buttons that are down. -/
theorem Sees.mouse {h h' : Hid} {cmds : List ActCmd} (hsees : Sees h cmds)
    (hsend : h.sendAbsMouseOnce = some h' ∨ h.sendAbsMouseRetry = some h') : Sees h' cmds := by
  obtain ⟨hframe, hkeyboard⟩ : SendFrame h h' ∧
      hostKeyboard h'.calls = hostKeyboard h.calls := by
    rcases hsend with honce | hretry
    · exact ⟨sendAbsMouseOnce_frame honce, hostKeyboard_once honce⟩
    · exact ⟨sendAbsMouseRetry_frame hretry, hostKeyboard_retry hretry⟩
  have hsame := hframe.sameKeys
  refine ⟨hsame.wellFormed hsees.wellFormed, ?_, ?_, ?_, fun hclicked => ?_⟩
  · rw [hsame.tracked]
    exact hsees.keys
  · rw [hkeyboard, hframe.layout]
    exact hsees.keyboard
  · rw [hframe.mouseButtons]
    exact hsees.buttons
  · rcases sendMouse_accepted hsend with ⟨hact, -⟩ | ⟨hact, -⟩
    · rw [hact]
      exact hsees.clicked hclicked
    · rw [hact]
      rfl

theorem processCommand_layout {h h' : Hid} {cmd : ActCmd} (hp : h.processCommand cmd = some h') :
    h'.layout = h.layout := by
  apply (processCommand_sends hp).keeps (P := fun m => m.layout = h.layout)
  · exact fun _ _ hm _ => hm
  · exact fun _ _ _ hm hsend => (sendKbReport_frame hsend).layout.trans hm
  · rintro m m' hm (hsend | hsend)
    · exact (sendAbsMouseOnce_frame hsend).layout.trans hm
    · exact (sendAbsMouseRetry_frame hsend).layout.trans hm
  · rfl

/-- The report of ENTER and LEAVE: the mask, and no key. -/
theorem reportShows_mask (layout : KeyboardLayout) (mask : UInt16) :
    ReportShows layout mask [] [maskToTusbModifier mask, 0, 0, 0, 0, 0, 0, 0] := by
  refine ⟨_, _, rfl, fun i _ => by simp, rfl, fun usage husage => ?_⟩
  rw [List.eq_of_mem_replicate (n := 6) husage]
  rfl

/-- The keyboard that the host sees after a command, given the one before it. -/
theorem keyboard_command {h h' : Hid} {cmds : List ActCmd} {cmd : ActCmd} {mask : UInt16}
    {keys : Finset UInt16} (hsees : Sees h cmds) (hbefore : Disciplined cmds)
    (hkeys : ∀ k, k ∈ h'.act.tracked ↔ k ∈ (inputAfter (cmds ++ [cmd])).keys)
    (hwf : KeysWellFormed h'.act) (hp : h.processCommand cmd = some h')
    (hasked : (inputAfter (cmds ++ [cmd])).keyboard = some (mask, keys)) :
    ∃ ks : List UInt16, ks.Nodup ∧ (∀ k, k ∈ ks ↔ k ∈ keys) ∧
      ReportShows h.layout mask ks (hostKeyboard h'.calls) := by
  have hsame : (inputAfter cmds).keyboard = some (mask, keys) →
      hostKeyboard h'.calls = hostKeyboard h.calls →
      ∃ ks : List UInt16, ks.Nodup ∧ (∀ k, k ∈ ks ↔ k ∈ keys) ∧
        ReportShows h.layout mask ks (hostKeyboard h'.calls) := by
    intro hkeyboard hcalls
    rw [hcalls]
    exact hsees.keyboard hbefore mask keys hkeyboard
  have hnone : ∀ {m m' : Hid} {mask' : UInt16}, some (mask', ∅) = some (mask, keys) →
      m.sendKbReport [maskToTusbModifier mask', 0, 0, 0, 0, 0, 0, 0] = some m' →
      hostKeyboard h'.calls = hostKeyboard m'.calls →
      ∃ ks : List UInt16, ks.Nodup ∧ (∀ k, k ∈ ks ↔ k ∈ keys) ∧
        ReportShows h.layout mask ks (hostKeyboard h'.calls) := by
    intro m m' mask' heq hsend hcalls
    cases heq
    obtain ⟨n, rest, -, rfl⟩ := sendKbReport_spec hsend
    rw [hcalls, hostKeyboard_retried]
    exact ⟨[], List.nodup_nil, by simp, reportShows_mask h.layout mask⟩
  rw [inputAfter_concat] at hasked hkeys
  cases cmd with
  | keyDown key m button | keyUp key m button =>
      cases hasked
      obtain ⟨report, n, hshows, hcalls⟩ := processCommand_report hsees.wellFormed rfl hp
      rw [hcalls, hostKeyboard_retried]
      exact ⟨_, hwf.distinct, hkeys, hshows⟩
  | enter x y m =>
      obtain ⟨mid, hmid, hrest⟩ := Option.bind_eq_some_iff.mp hp
      have hcalls := hostKeyboard_once hmid
      change (if m ≠ 0 then some (m, ∅) else (inputAfter cmds).keyboard) = _ at hasked
      split at hrest
      · next hmask =>
          rw [if_pos hmask] at hasked
          exact hnone hasked hrest rfl
      · next hmask =>
          rw [if_neg hmask] at hasked
          cases hrest
          exact hsame hasked hcalls
  | leave =>
      obtain ⟨mid, hmid, hrest⟩ := Option.bind_eq_some_iff.mp hp
      have hcalls := hostKeyboard_once hrest
      exact hnone hasked hmid hcalls
  | jiggle =>
      obtain ⟨mid, hmid, hrest⟩ := Option.bind_eq_some_iff.mp hp
      have hfirst := hostKeyboard_once hmid
      have hlast := hostKeyboard_once hrest
      exact hsame hasked (hlast.trans hfirst)
  | mouseDown id | mouseUp id | mouseWheel dx dy =>
      have hcalls := hostKeyboard_retry hp
      exact hsame hasked hcalls
  | keyRepeat | connected | disconnected | setScreenSize | setScaling =>
      cases hp
      exact hsame hasked rfl

/-- Only a click, a LEAVE and a disconnect change the buttons that are to be shown. -/
theorem clicked_command {h h' : Hid} {cmds : List ActCmd} {cmd : ActCmd} (hsees : Sees h cmds)
    (hp : h.processCommand cmd = some h')
    (hclicked : (inputAfter (cmds ++ [cmd])).clicked = true) :
    h'.act.lastSentButtons = h'.act.mouseButtons := by
  have hkeeps : cmd.setsButtons = false → (inputAfter cmds).clicked = true →
      h'.act.lastSentButtons = h'.act.mouseButtons := by
    intro hsets hbefore
    apply (processCommand_sends hp).keeps (P := fun m => m.act.lastSentButtons = m.act.mouseButtons)
    · exact fun m act hm hedit => (hedit.lastButtons.trans hm).trans (hedit.buttons hsets).symm
    · intro m m' report hm hsend
      rw [(sendKbReport_accepted hsend).1]
      exact hm
    · intro m m' hm hsend
      rcases sendMouse_accepted hsend with ⟨hact, -⟩ | ⟨hact, -⟩
      · rw [hact]
        exact hm
      · rw [hact]
        rfl
    · exact hsees.clicked hbefore
  rw [inputAfter_concat] at hclicked
  cases cmd with
  | mouseDown id | mouseUp id => exact sendAbsMouseRetry_remembers hp
  | leave | disconnected => cases hclicked
  | _ => exact hkeeps rfl hclicked

theorem Sees.command {h h' : Hid} {cmds : List ActCmd} {cmd : ActCmd} (hsees : Sees h cmds)
    (hp : h.processCommand cmd = some h') : Sees h' (cmds ++ [cmd]) := by
  have hsame := processCommand_sameKeys hp
  have hwf := hsame.wellFormed (keyCommand_wellFormed hsees.wellFormed cmd)
  have hkeys : Disciplined (cmds ++ [cmd]) → ∀ k, k ∈ h'.act.tracked ↔
      k ∈ keysDown (cmds ++ [cmd]) := by
    intro hdisciplined k
    obtain ⟨hbefore, hcmd⟩ := hdisciplined.of_concat
    rw [hsame.tracked, keysDown_concat]
    exact keyCommand_tracked hsees.wellFormed (hsees.keys hbefore) hcmd k
  refine ⟨hwf, hkeys, fun hdisciplined mask keys hasked => ?_, ?_, clicked_command hsees hp⟩
  · rw [processCommand_layout hp]
    refine keyboard_command hsees hdisciplined.of_concat.1 ?_ hwf hp hasked
    rw [inputAfter_keys]
    exact hkeys hdisciplined
  · rw [processCommand_mouseButtons hp, inputAfter_concat, hsees.buttons]
    exact (buttonBits_effect _ cmd).symm

/-- A disconnect forgets everything, on the task's side. -/
theorem sees_disconnected {h h' : Hid} (hp : h.processCommand .disconnected = some h') :
    Sees h' [] := by
  cases hp
  obtain ⟨hwf, htracked⟩ := clearKeys_wellFormed h.act
  refine ⟨⟨hwf.count_le, hwf.distinct, hwf.rest_zero⟩, fun _ k => ?_, nofun, buttonBits_empty.symm,
    nofun⟩
  change k ∈ h.act.clearKeys.tracked ↔ k ∈ (∅ : Finset UInt16)
  rw [htracked]
  simp

/-! ## What one step does -/

theorem SameView.of_withoutQueue {h : Hid} {act : TusbActuator}
    (hsame : act.withoutQueue = h.act.withoutQueue) : SameView h { h with act := act } where
  slots := (congrArg TusbActuator.pressedKeys hsame :)
  count := (congrArg TusbActuator.keyCount hsame :)
  buttons := (congrArg TusbActuator.mouseButtons hsame :)
  lastButtons := (congrArg TusbActuator.lastSentButtons hsame :)
  calls := rfl

theorem SameView.of_notifyMovement (h : Hid) (x y : UInt16) :
    SameView h { h with act := { h.act with targetX := x, targetY := y }.notifyMovement } := by
  unfold TusbActuator.notifyMovement
  split <;> exact ⟨rfl, rfl, rfl, rfl, rfl⟩

/-- What a step does that the host could notice. -/
inductive ViewStep (t t' : Tasks) (label : TasksLabel) : Prop
  | finish (cmd : ActCmd) (hprocessed : t'.hid.processed = t.hid.processed ++ [cmd])
      (hp : { t.hid with processed := t.hid.processed ++ [cmd] }.processCommand cmd = some t'.hid)
  | mouse (hprocessed : t'.hid.processed = t.hid.processed)
      (hsend : { t.hid with act := { t.hid.act with movementPending := 0 } }.sendAbsMouseOnce =
        some t'.hid)
  | same (hprocessed : t'.hid.processed = t.hid.processed) (hsame : SameView t.hid t'.hid)
      (hlayout : (∀ l, label ≠ .setLayout l) → t'.hid.layout = t.hid.layout)

theorem tasksStep_view {t t' : Tasks} {label : TasksLabel}
    (hstep : tasksStep t label = some t') : ViewStep t t' label := by
  unfold tasksStep at hstep
  cases label with
  | net l =>
      simp only at hstep
      split at hstep
      · cases hstep
      · next hreceive =>
          obtain ⟨d, hd, rfl⟩ := Option.map_eq_some_iff.mp hstep
          exact .same rfl (.of_withoutQueue (deliveryStep_device hreceive hd).1) fun _ => rfl
  | receive =>
      simp only at hstep
      split at hstep
      · cases hstep
        unfold Tasks.receive
        split
        · exact .same rfl ⟨rfl, rfl, rfl, rfl, rfl⟩ fun _ => rfl
        · next cmd act hreceive =>
            obtain ⟨rest, -, rfl⟩ := xQueueReceive_spec hreceive
            exact .same rfl ⟨rfl, rfl, rfl, rfl, rfl⟩ fun _ => rfl
      · cases hstep
  | finish =>
      obtain ⟨cmd, -, hfinish⟩ := Option.bind_eq_some_iff.mp hstep
      unfold Tasks.finish at hfinish
      simp only at hfinish
      split at hfinish
      · obtain ⟨h, hp, rfl⟩ := Option.map_eq_some_iff.mp hfinish
        exact .finish cmd (processCommand_sameKeys hp).processed hp
      · cases hfinish
        exact .same rfl ⟨rfl, rfl, rfl, rfl, rfl⟩ fun _ => rfl
  | movement =>
      simp only at hstep
      split at hstep
      · obtain ⟨h, hmove, rfl⟩ := Option.map_eq_some_iff.mp hstep
        have hprocessed := movementStep_processed hmove
        unfold Hid.movementStep at hmove
        split at hmove
        · split at hmove
          · exact .mouse hprocessed hmove
          · cases hmove
            exact .same rfl ⟨rfl, rfl, rfl, rfl, rfl⟩ fun _ => rfl
        · cases hmove
          exact .same rfl ⟨rfl, rfl, rfl, rfl, rfl⟩ fun _ => rfl
      · cases hstep
  | setMovement x y =>
      simp only at hstep
      split at hstep
      · cases hstep
        exact .same rfl (.of_notifyMovement _ _ _) fun _ => rfl
      · cases hstep
  | moveRelative dx dy =>
      simp only at hstep
      split at hstep
      · cases hstep
        exact .same rfl (.of_notifyMovement _ _ _) fun _ => rfl
      · cases hstep
  | setMounted mounted =>
      cases hstep
      exact .same rfl ⟨rfl, rfl, rfl, rfl, rfl⟩ fun _ => rfl
  | setLayout layout =>
      cases hstep
      exact .same rfl ⟨rfl, rfl, rfl, rfl, rfl⟩ fun h => absurd rfl (h layout)

theorem ViewStep.buttonsInv {t t' : Tasks} {label : TasksLabel} (h : ViewStep t t' label)
    (hinv : ButtonsInv t.hid) : ButtonsInv t'.hid := by
  cases h with
  | finish cmd hprocessed hp => exact processCommand_buttons (by exact hinv) hp
  | mouse hprocessed hsend => exact sendAbsMouseOnce_buttons (by exact hinv) hsend
  | same hprocessed hsame hlayout => exact hsame.buttonsInv hinv

/-- A step of an undisturbed session: once no disconnect is in line any more, the task and the
host know the commands behind the last one. -/
theorem sees_tasksStep {t t' : Tasks} {label : TasksLabel} {cmds : List ActCmd}
    (hline : LineStep t t') (hview : ViewStep t t' label) (hlayout : ∀ l, label ≠ .setLayout l)
    (hsees : .disconnected ∉ waiting t ++ cmds →
      Sees t.hid (since isDisconnected t.hid.processed))
    (hnone : .disconnected ∉ waiting t' ++ cmds) :
    Sees t'.hid (since isDisconnected t'.hid.processed) := by
  have hlength : ∀ {cmd : ActCmd}, t.hid.processed ++ [cmd] ≠ t.hid.processed := by
    intro cmd heq
    simpa using congrArg List.length heq
  have hkeeps : t'.hid.processed = t.hid.processed → .disconnected ∉ waiting t ++ cmds := by
    intro hprocessed
    cases hline with
    | same hprocessed' hwaiting => rwa [← hwaiting]
    | flush hprocessed' front front' hwaiting hwaiting' =>
        rw [hwaiting'] at hnone
        simp at hnone
    | finish cmd hprocessed' hwaiting => exact absurd (hprocessed'.symm.trans hprocessed) hlength
  cases hview with
  | mouse hprocessed hsend =>
      have hbefore := hsees (hkeeps hprocessed)
      have hstart : Sees { t.hid with act := { t.hid.act with movementPending := 0 } }
          (since isDisconnected t.hid.processed) := hbefore.same ⟨rfl, rfl, rfl, rfl, rfl⟩ rfl
      rw [hprocessed]
      exact hstart.mouse (.inl hsend)
  | same hprocessed hsame hkept =>
      rw [hprocessed]
      exact (hsees (hkeeps hprocessed)).same hsame (hkept hlayout)
  | finish cmd hprocessed hp =>
      rw [hprocessed]
      cases hmark : isDisconnected cmd with
      | true =>
          obtain rfl : cmd = .disconnected := by simpa [isDisconnected] using hmark
          rw [since_concat_mark hmark]
          exact sees_disconnected hp
      | false =>
          have hmem : .disconnected ∉ waiting t ++ cmds := by
            cases hline with
            | same hprocessed' hwaiting =>
                exact absurd (hprocessed.symm.trans hprocessed') hlength
            | flush hprocessed' front front' hwaiting hwaiting' =>
                exact absurd (hprocessed.symm.trans hprocessed') hlength
            | finish cmd' hprocessed' hwaiting =>
                obtain ⟨-, heq⟩ := List.append_inj' (hprocessed.symm.trans hprocessed') rfl
                cases heq
                rw [hwaiting, List.cons_append, List.mem_cons, not_or]
                refine ⟨?_, hnone⟩
                rintro rfl
                cases hmark
          have hstart : Sees { t.hid with processed := t.hid.processed ++ [cmd] }
              (since isDisconnected t.hid.processed) :=
            (hsees hmem).same ⟨rfl, rfl, rfl, rfl, rfl⟩ rfl
          rw [since_concat hmark]
          exact hstart.command hp

theorem makeCall_view {t t' : Tasks} {now : UInt64} {e : Event}
    (hcall : makeCall t now e = some t') :
    SameView t.hid t'.hid ∧ t'.hid.layout = t.hid.layout := by
  have hmove : ∀ x y, (if t.pc = .idle then some { t with hid := { t.hid with
      act := { t.hid.act with targetX := x, targetY := y }.notifyMovement } } else none) =
        some t' → SameView t.hid t'.hid ∧ t'.hid.layout = t.hid.layout := by
    intro x y hmoved
    split at hmoved
    · cases hmoved
      exact ⟨.of_notifyMovement _ _ _, rfl⟩
    · cases hmoved
  cases e with
  | act cmd =>
      simp only [makeCall, tasksStep, reduceCtorEq, if_false] at hcall
      obtain ⟨d, hd, rfl⟩ := Option.map_eq_some_iff.mp hcall
      exact ⟨.of_withoutQueue (deliveryStep_device (by simp) hd).1, rfl⟩
  | setMovement x y => exact hmove x y hcall
  | moveRelative dx dy => exact hmove _ _ hcall
  | _ => cases hcall

/-! ## What every run keeps -/

/-- While nothing has disturbed the commands since the last DISCONNECTED, the host sees what they
ask for. -/
structure HostInv (d : Firmware) : Prop where
  buttons : ButtonsInv d.tasks.hid
  sees : d.undisturbed = true → .disconnected ∉ d.pending →
    Sees d.tasks.hid (since isDisconnected d.tasks.hid.processed)

theorem firmwareStep_hostInv {d d' : Firmware} {label : FirmwareLabel} (hline : LineInv d)
    (h : HostInv d) (hstep : firmwareStep d label = some d') : HostInv d' := by
  unfold firmwareStep at hstep
  cases label with
  | client io =>
      simp only at hstep
      split at hstep
      · next hreturned =>
          obtain ⟨w, hw, rfl⟩ := Option.map_eq_some_iff.mp hstep
          obtain ⟨cmds, -, -, hpending, hclean⟩ := clientStep_spec hreturned hw
          refine ⟨h.buttons, fun hundisturbed hnone => ?_⟩
          rw [hpending, List.mem_append, not_or] at hnone
          rw [hclean, Bool.or_eq_true, List.contains_iff_mem] at hundisturbed
          exact h.sees (hundisturbed.resolve_right hnone.2) hnone.1
      · cases hstep
  | outside act =>
      obtain ⟨w, hw, rfl⟩ := Option.map_eq_some_iff.mp hstep
      exact ⟨h.buttons, h.sees⟩
  | call now =>
      simp only at hstep
      split at hstep
      · cases hstep
      · next e rest htodo =>
          obtain ⟨t, hcall, rfl⟩ := Option.map_eq_some_iff.mp hstep
          obtain ⟨hsame, hlayout⟩ := makeCall_view hcall
          refine ⟨hsame.buttonsInv h.buttons, fun hundisturbed hnone => ?_⟩
          have hsplit : (d.undisturbed && !takenForDuplicate d.tasks now e) = true →
              d.undisturbed = true ∧ takenForDuplicate d.tasks now e = false := by simp
          obtain ⟨hbefore, hnew⟩ := hsplit hundisturbed
          obtain ⟨-, hprocessed, hwaiting⟩ := makeCall_line hnew hcall
          have hpending : waiting t ++ rest.filterMap queued = d.pending := by
            simp only [Firmware.pending, hwaiting, htodo]
            cases hq : queued e <;> simp [hq]
          change .disconnected ∉ waiting t ++ rest.filterMap queued at hnone
          rw [hpending] at hnone
          rw [hprocessed]
          exact (h.sees hbefore hnone).same hsame hlayout
  | tasks label =>
      simp only at hstep
      split at hstep
      · cases hstep
      · next hcall =>
          obtain ⟨t, ht, rfl⟩ := Option.map_eq_some_iff.mp hstep
          have hview := tasksStep_view ht
          refine ⟨hview.buttonsInv h.buttons, fun hundisturbed hnone => ?_⟩
          have hsplit : (d.undisturbed && !disturbs d.tasks label) = true →
              d.undisturbed = true ∧ disturbs d.tasks label = false := by simp
          obtain ⟨hbefore, hquiet⟩ := hsplit hundisturbed
          have hstepLine := (tasksStep_line (hline.undumped hbefore) (by simpa using hcall) hquiet
            ht).2
          refine sees_tasksStep hstepLine hview ?_ (h.sees hbefore) hnone
          rintro l rfl
          cases hquiet

theorem hostInv_boot (cfg : DeskflowConfig) (networkEvents : Bool) (layout : KeyboardLayout)
    (mounted : Bool) (answers : List Bool) :
    HostInv (Firmware.boot cfg networkEvents layout mounted answers) := by
  obtain ⟨hwf, htracked⟩ :=
    clearKeys_wellFormed (tusbActuatorInit cfg.screenWidth cfg.screenHeight)
  refine ⟨rfl, fun _ _ => ⟨hwf, fun _ k => ?_, nofun, buttonBits_empty.symm, nofun⟩⟩
  change k ∈ (tusbActuatorInit cfg.screenWidth cfg.screenHeight).clearKeys.tracked ↔ _
  rw [htracked]
  exact Iff.rfl

/-! ## The commands of a session -/

/-- The command of a call, if it is one for keys and buttons. -/
def inputCommand : Event → Option ActCmd
  | .act cmd => if matters cmd then some cmd else none
  | _ => none

/-- The commands for keys and buttons that these packets lead to. -/
def packetCommands (pkts : List Packet) : List ActCmd :=
  (pkts.filterMap userCall).filterMap inputCommand

theorem commands_append (trace events : List Event) :
    commands (trace ++ events) = commands trace ++ commands events := List.filterMap_append

theorem filter_commands (events : List Event) :
    (commands events).filter matters = events.filterMap inputCommand := by
  rw [commands, List.filter_filterMap]
  refine List.filterMap_congr fun e _ => ?_
  cases e with
  | act cmd => cases cmd <;> rfl
  | _ => rfl

theorem userCalls_inputCommand (events : List Event) :
    (userCalls events).filterMap inputCommand = events.filterMap inputCommand := by
  rw [userCalls, List.filterMap_filter]
  refine List.filterMap_congr fun e _ => ?_
  cases e with
  | act cmd => cases cmd <;> rfl
  | _ => rfl

/-- Within a session, the commands since the last disconnect are those of the session. -/
def SessionInput (w : World) : Prop :=
  (since isDisconnected (commands w.trace)).filter matters =
    if w.pc.inSession then (callsOfSession w.trace).filterMap inputCommand else []

theorem since_commands_append {trace events : List Event}
    (h : ∀ e ∈ events, e ≠ .act .disconnected) :
    (since isDisconnected (commands (trace ++ events))).filter matters =
      (since isDisconnected (commands trace)).filter matters ++ events.filterMap inputCommand := by
  have hmark : ∀ cmd ∈ commands events, isDisconnected cmd = false := by
    intro cmd hcmd
    obtain ⟨e, he, hqueued⟩ := List.mem_filterMap.mp hcmd
    refine beq_eq_false_iff_ne.mpr ?_
    rintro rfl
    refine h e he ?_
    cases e with
    | act cmd => cases cmd <;> cases hqueued; rfl
    | _ => cases hqueued
  rw [commands_append, since_append hmark, List.filter_append, filter_commands]

/-- Events without a command, within a session or out of it. -/
theorem SessionInput.idle {w w' : World} {events : List Event} (h : SessionInput w)
    (htrace : w'.trace = w.trace ++ events) (hidle : ∀ e ∈ events, e.Idle)
    (hdisconnected : ∀ e ∈ events, e ≠ .act .disconnected)
    (hpc : w'.pc.inSession = w.pc.inSession) : SessionInput w' := by
  have hcalls : userCalls events = [] := by
    rw [userCalls, List.filter_eq_nil_iff]
    intro e he
    rw [(hidle e he).2.2]
    exact Bool.false_ne_true
  have hnone : events.filterMap inputCommand = [] := by
    rw [← userCalls_inputCommand, hcalls]
    rfl
  unfold SessionInput
  rw [htrace, since_commands_append hdisconnected, hnone, List.append_nil, hpc,
    callsOfSession_append fun e he => (hidle e he).1, hcalls, List.append_nil]
  exact h

theorem SessionInput.handled {w w' : World} {pkt : Packet} {err : EspErr} {events rest : List Event}
    {client' : BarrierClient} (h : SessionInput w) (hh : Handled w.client pkt err client' events)
    (hrest : ∀ e ∈ rest, e = .loopExit) (hin : w.pc.inSession = true)
    (hin' : w'.pc.inSession = true)
    (htrace : w'.trace = w.trace ++ .handled pkt :: (events ++ rest)) : SessionInput w' := by
  have hevents : ∀ e ∈ Event.handled pkt :: (events ++ rest),
      e.isConnected = false ∧ e ≠ .act .disconnected := by
    intro e he
    rw [← List.cons_append, List.mem_append] at he
    rcases he with he | he
    · obtain ⟨-, hconn, hdisc, -⟩ := hh.events e he
      refine ⟨?_, hdisc⟩
      cases e with
      | act cmd => cases cmd <;> first | rfl | exact absurd rfl hconn
      | _ => rfl
    · rw [hrest e he]
      exact ⟨rfl, nofun⟩
  unfold SessionInput at h ⊢
  rw [hin, if_pos rfl] at h
  rw [htrace, hin', if_pos rfl, since_commands_append fun e he => (hevents e he).2, h,
    callsOfSession_append fun e he => (hevents e he).1, List.filterMap_append,
    userCalls_inputCommand]

theorem step_sessionInput {w w' : World} {l : Label} (h : SessionInput w)
    (hstep : step w l = some w') : SessionInput w' := by
  cases step_kind hstep with
  | other events hpc htls hcursor htrace hevents =>
      refine h.idle htrace (fun e he => ?_) (fun e he => ?_) (by rw [hpc])
      · obtain ⟨v, rfl⟩ := hevents e he
        exact ⟨rfl, rfl, rfl⟩
      · obtain ⟨v, rfl⟩ := hevents e he
        intro hmark
        cases hmark
  | outside events hpc hout hclose =>
      refine h.idle hout.trace (fun e he => idle_of_isControl (hout.control e he)) ?_
        (hout.pc.trans hpc.symm)
      rintro e he rfl
      cases hout.control _ he
  | opens hpc hw' =>
      subst hw'
      have hcalls : callsOfSession (w.trace ++ [.act .connected]) = [] := by
        rw [callsOfSession, cut_concat]
        rfl
      have hout : w.pc.inSession = false := by rw [hpc]; rfl
      unfold SessionInput at h ⊢
      rw [hout] at h
      change (since isDisconnected (commands (w.trace ++ [.act .connected]))).filter matters =
        (callsOfSession (w.trace ++ [.act .connected])).filterMap inputCommand
      rw [since_commands_append (by simp), h, hcalls]
      rfl
  | move events hpc hmove =>
      refine h.idle hmove.trace (fun e he => ?_) (fun e he => ?_) (hmove.pc.trans hpc.symm)
      · rcases hmove.quiet e he with rfl | rfl | rfl <;> exact ⟨rfl, rfl, rfl⟩
      · rintro rfl
        have hquiet := hmove.quiet _ he
        simp at hquiet
  | packet pkt err events hpacket =>
      have hin : w.pc.inSession = true := by rw [hpacket.pc]; rfl
      rcases hpacket.next with ⟨-, hpc', htrace⟩ | ⟨-, hpc', htrace⟩
      · have htrace' : w'.trace = w.trace ++ .handled pkt :: (events ++ []) := by
          rw [htrace, List.append_nil]
        exact h.handled hpacket.handled (by simp) hin (by rw [hpc']; rfl) htrace'
      · exact h.handled hpacket.handled (by simp) hin (by rw [hpc']; rfl) htrace
  | closes hpc hpc' htrace hcursor hsettings =>
      unfold SessionInput
      rw [htrace, hpc', commands_append]
      change (since isDisconnected (commands w.trace ++ [.disconnected])).filter matters = []
      rw [since_concat_mark rfl]
      rfl

/-! ## Runs -/

/-- The step does not let a deadline pass with a frame begun. -/
def keepsFrame (d : Firmware) : FirmwareLabel → Prop
  | .client io => KeepsFrame d.world (.task io)
  | _ => True

instance : (d : Firmware) → (label : FirmwareLabel) → Decidable (keepsFrame d label)
  | d, .client io => inferInstanceAs (Decidable (KeepsFrame d.world (.task io)))
  | _, .outside _ | _, .call _ | _, .tasks _ => isTrue trivial

theorem firmwareStep_world {d d' : Firmware} {label : FirmwareLabel}
    (hstep : firmwareStep d label = some d') :
    d'.world = d.world ∨ ∃ l, step d.world l = some d'.world ∧
      (keepsFrame d label → KeepsFrame d.world l) := by
  unfold firmwareStep at hstep
  cases label with
  | client io =>
      simp only at hstep
      split at hstep
      · obtain ⟨w, hw, rfl⟩ := Option.map_eq_some_iff.mp hstep
        exact .inr ⟨.task io, hw, id⟩
      · cases hstep
  | outside act =>
      obtain ⟨w, hw, rfl⟩ := Option.map_eq_some_iff.mp hstep
      exact .inr ⟨.env act, hw, fun _ => trivial⟩
  | call now =>
      simp only at hstep
      split at hstep
      · cases hstep
      · obtain ⟨t, -, rfl⟩ := Option.map_eq_some_iff.mp hstep
        exact .inl rfl
  | tasks label =>
      simp only at hstep
      split at hstep
      · cases hstep
      · obtain ⟨t, -, rfl⟩ := Option.map_eq_some_iff.mp hstep
        exact .inl rfl

/-- What holds of the client, of the line and at the host. -/
structure FirmwareInv (d : Firmware) : Prop where
  calls : CallsInv d.world
  input : SessionInput d.world
  line : LineInv d
  host : HostInv d

theorem firmwareStep_inv {d d' : Firmware} {label : FirmwareLabel} (h : FirmwareInv d)
    (hstep : firmwareStep d label = some d') : FirmwareInv d' := by
  have hline := firmwareStep_lineInv h.line hstep
  have hhost := firmwareStep_hostInv h.line h.host hstep
  rcases firmwareStep_world hstep with hworld | ⟨l, hl, -⟩
  · exact ⟨hworld ▸ h.calls, hworld ▸ h.input, hline, hhost⟩
  · exact ⟨step_callsInv h.calls hl, step_sessionInput h.input hl, hline, hhost⟩

theorem firmwareInv_boot (cfg : DeskflowConfig) (networkEvents : Bool) (layout : KeyboardLayout)
    (mounted : Bool) (answers : List Bool) :
    FirmwareInv (Firmware.boot cfg networkEvents layout mounted answers) :=
  ⟨callsInv_initial cfg networkEvents, rfl,
    lineInv_boot cfg networkEvents layout mounted answers,
    hostInv_boot cfg networkEvents layout mounted answers⟩

theorem firmwareStep_frameInv {d d' : Firmware} {label : FirmwareLabel} (h : FrameInv d.world)
    (hkeep : keepsFrame d label) (hstep : firmwareStep d label = some d') :
    FrameInv d'.world := by
  rcases firmwareStep_world hstep with hworld | ⟨l, hl, hkeeps⟩
  · exact hworld ▸ h
  · exact step_frameInv h (hkeeps hkeep) hl

/-- A key and a button go down. -/
def pressedPackets : List Packet := [.dkdn ⟨0x61, 0, 38⟩, .dmdn ⟨1⟩]

/-- A step of the client and its settings, as a step of the firmware. -/
def asFirmware : Label → FirmwareLabel
  | .task io => .client io
  | .env act => .outside act

/-- A call at time `now`, and its access to the queue. -/
def queueLabels (now : UInt64) : List FirmwareLabel := [.call now, .tasks (.net .send)]

/-- Five commands are queued, and `hid_task` takes them, its first report rejected once. -/
def pressedLabels : List FirmwareLabel :=
  queueLabels 100 ++ queueLabels 100 ++
    (connectLabels 4 ((pressedPackets.map serverFrame).flatten)).map asFirmware ++
    queueLabels 1000 ++ (turnLabels 10 {}).map asFirmware ++ queueLabels 2000 ++
    (turnLabels 5 {}).map asFirmware ++ queueLabels 3000 ++
    (List.replicate 5 [.tasks .receive, .tasks .finish]).flatten

theorem disciplined_pressed : Disciplined (packetCommands pressedPackets) := by
  have hnil : Disciplined [] := fun before _ _ hsplit => by cases before <;> cases hsplit
  have hkey : Disciplined [.keyDown 0x61 0 38] :=
    disciplined_concat hnil ⟨by decide, by decide⟩
  exact disciplined_concat hkey ⟨trivial, by decide⟩

end Esp32Deskflow.Device
