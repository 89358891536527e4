/-
  Tusb/Click.lean --- where a click lands.

  A button command waits in the queue, a move is written to the target at once.  So a
  click lands where the pointer was told to be when the HID task takes the command, and
  moves that were handled in the meantime overtake it.
-/
import Esp32Deskflow.Tusb.LastReport

set_option autoImplicit false

namespace Esp32Deskflow.Tusb

open Esp32Deskflow.Foundation.Transition

/-! ## Packets and iterations -/

/-- A step of one of the tasks. -/
inductive ClickLabel where
  /-- DMMV is handled: `actuator_set_movement` -/
  | dmmv (x y : UInt16)
  /-- DMDN is handled: `actuator_queue_mouse_down` -/
  | dmdn (button : Int8) (now : UInt64)
  /-- DMUP is handled: `actuator_queue_mouse_up` -/
  | dmup (button : Int8) (now : UInt64)
  /-- an iteration of `hid_task` -/
  | iteration
  deriving DecidableEq, Repr

/-- The HID task, and what the packets have said so far. -/
structure Clicking where
  hid : Hid
  /-- the position of the last DMMV -/
  position : Option Position
  /-- the commands of the DMDN and DMUP packets, each with the position before the packet -/
  clicks : List (ActCmd × Option Position)
  /-- the commands that the HID task has taken, each with the position when it did -/
  taken : List (ActCmd × Option Position)
  /-- a packet was not handled, which ends the packet loop -/
  ended : Bool
  deriving DecidableEq, Repr

/-- A button is pressed only while it is up, and released only while it is down. -/
def ClickTurn (down : Finset Int8) : ActCmd → Prop
  | .mouseDown button => button ∉ down
  | .mouseUp button => button ∈ down
  | _ => False

instance (down : Finset Int8) : (cmd : ActCmd) → Decidable (ClickTurn down cmd)
  | .mouseDown _ => inferInstanceAs (Decidable (_ ∉ _))
  | .mouseUp _ => inferInstanceAs (Decidable (_ ∈ _))
  | .keyDown _ _ _ | .keyUp _ _ _ | .keyRepeat _ _ _ _ | .mouseWheel _ _ | .enter _ _ _ | .leave
  | .jiggle | .connected | .disconnected | .setScreenSize _ _ | .setScaling _ =>
      inferInstanceAs (Decidable False)

/-- A button packet that alternates and is not suppressed as a duplicate; others are no run. -/
def Clicking.click (s : Clicking) (cmd : ActCmd) (now : UInt64) : Option Clicking :=
  if s.ended = false ∧ ClickTurn (buttonsDown (s.clicks.map Prod.fst)) cmd ∧
      (enterCall s.hid.act cmd now).2 ≠ .returns then
    let r := actuatorQueue s.hid.act cmd now
    some { s with
      hid := { s.hid with act := r.2 }
      clicks := s.clicks ++ [(cmd, s.position)]
      ended := r.1 ≠ .ok }
  else none

/-- One step.  A packet is handled only as long as none has failed. -/
def clickStep (s : Clicking) : ClickLabel → Option Clicking
  | .dmmv x y =>
      if s.ended then none
      else some { s with
        hid := { s.hid with act := actuatorSetMovement s.hid.act x y }
        position := some (x, y) }
  | .dmdn button now => s.click (.mouseDown button) now
  | .dmup button now => s.click (.mouseUp button) now
  | .iteration => s.hid.iteration.map fun hid => { s with
      hid := hid
      taken := s.taken ++ (s.hid.act.cmdQueue.head?.map fun cmd => (cmd, s.position)).toList }

/-- The device is mounted, and nothing has been said. -/
def Clicking.init (width height : UInt16) (layout : KeyboardLayout) (answers : List Bool) :
    Clicking where
  hid := Hid.init width height layout true answers
  position := none
  clicks := []
  taken := []
  ended := false

/-! ## Changes of a bit -/

/-- The X and Y values of a position, which before the first DMMV is (0, 0). -/
def reported (width height : UInt16) (pos : Option Position) : UInt16 × UInt16 :=
  (toHid width (pos.getD (0, 0)).1, toHid height (pos.getD (0, 0)).2)

/-- The X and Y values of the reports in which the bit changes, starting from `before`. -/
def bitChanges (bit before : UInt8) : List MouseFields → List (UInt16 × UInt16)
  | [] => []
  | r :: rs =>
      if r.buttons &&& bit ≠ before &&& bit then (r.x, r.y) :: bitChanges bit r.buttons rs
      else bitChanges bit r.buttons rs

/-- The command is about this button. -/
def ActCmd.isClickOf (button : Int8) : ActCmd → Bool
  | .mouseDown id | .mouseUp id => id = button
  | _ => false

/-- Where the bit of the button changes on the host. -/
def Hid.landings (h : Hid) (button : Int8) : List (UInt16 × UInt16) :=
  bitChanges (barrierButtonToHid button) 0 (acceptedMouse h.calls)

/-- The positions of the clicks of a button. -/
def clicksOf (button : Int8) (clicks : List (ActCmd × Option Position)) :
    List (Option Position) :=
  (clicks.filter fun c => c.1.isClickOf button).map Prod.snd

/-- For every button with a bit, the report in which the bit changes for the `n`-th time has the
values of the last DMMV position before the `n`-th packet of the button. -/
def LandsWhereClicked (width height : UInt16) (s : Clicking) : Prop :=
  ∀ button, barrierButtonToHid button ≠ 0 →
    ∀ landing ∈ (s.hid.landings button).zip (clicksOf button s.clicks), ∀ pos ∈ landing.2,
      landing.1 = reported width height (some pos)

theorem bitChanges_concat (bit before : UInt8) (reports : List MouseFields) (r : MouseFields) :
    bitChanges bit before (reports ++ [r]) = bitChanges bit before reports ++
      if r.buttons &&& bit ≠ ((reports.getLast?.map MouseFields.buttons).getD before) &&& bit then
        [(r.x, r.y)] else [] := by
  induction reports generalizing before with
  | nil => rfl
  | cons r' reports ih =>
      have hlast : ((r' :: reports).getLast?.map MouseFields.buttons).getD before =
          (reports.getLast?.map MouseFields.buttons).getD r'.buttons := by
        cases reports with
        | nil => rfl
        | cons r'' reports =>
            rw [List.getLast?_cons_cons]
            obtain ⟨last, hlast⟩ := Option.isSome_iff_exists.mp (List.getLast?_isSome.mpr
              (List.cons_ne_nil r'' reports))
            rw [hlast]
            rfl
      rw [hlast, List.cons_append, bitChanges, bitChanges, ih]
      split
      · rw [List.cons_append]
      · rfl

/-- What one more accepted report does to the changes. -/
theorem landings_concat {h h' : Hid} {r : MouseFields} (button : Int8)
    (haccepted : acceptedMouse h'.calls = acceptedMouse h.calls ++ [r]) :
    h'.landings button = h.landings button ++
      if r.buttons &&& barrierButtonToHid button ≠
          (lastMouse h.calls).buttons &&& barrierButtonToHid button then [(r.x, r.y)] else [] := by
  have hlast : ((acceptedMouse h.calls).getLast?.map MouseFields.buttons).getD 0 =
      (lastMouse h.calls).buttons := by
    unfold lastMouse
    cases (acceptedMouse h.calls).getLast? <;> rfl
  unfold Hid.landings
  rw [haccepted, bitChanges_concat, hlast]

/-- A button that is down has its bit. -/
theorem buttonBits_and (down : Finset Int8) (button : Int8) :
    buttonBits down &&& barrierButtonToHid button =
      if button ∈ down then barrierButtonToHid button else 0 := by
  have hbits : ∀ a b c : Bool,
      bitUnion a b c &&& barrierButtonToHid 1 = (if a then barrierButtonToHid 1 else 0) ∧
      bitUnion a b c &&& barrierButtonToHid 2 = (if b then barrierButtonToHid 2 else 0) ∧
      bitUnion a b c &&& barrierButtonToHid 3 = (if c then barrierButtonToHid 3 else 0) := by
    decide
  have h := hbits (decide (1 ∈ down)) (decide (2 ∈ down)) (decide (3 ∈ down))
  simp only [decide_eq_true_eq] at h
  unfold buttonBits
  rcases barrierButtonToHid_cases button with rfl | rfl | rfl | ⟨_, _, _, hzero⟩
  · exact h.1
  · exact h.2.1
  · exact h.2.2
  · rw [hzero, UInt8.and_zero, ite_self]

/-- A press or release changes the bit of its button and no other. -/
theorem bit_turned_iff {down : Finset Int8} {cmd : ActCmd} {button : Int8}
    (hturn : ClickTurn down cmd) (hbit : barrierButtonToHid button ≠ 0) :
    buttonCommand (buttonBits down) cmd &&& barrierButtonToHid button ≠
        buttonBits down &&& barrierButtonToHid button ↔ cmd.isClickOf button = true := by
  rw [← buttonBits_effect, buttonBits_and, buttonBits_and]
  have hsame : (if button ∈ buttonEffect down cmd then barrierButtonToHid button else 0) ≠
      (if button ∈ down then barrierButtonToHid button else 0) ↔
        ¬ (button ∈ buttonEffect down cmd ↔ button ∈ down) := by
    by_cases hin : button ∈ buttonEffect down cmd <;> by_cases hdown : button ∈ down <;>
      simp [hin, hdown, hbit, hbit.symm]
  rw [hsame]
  cases cmd with
  | mouseDown id =>
      have hid : id ∉ down := hturn
      rw [ActCmd.isClickOf, decide_eq_true_eq]
      constructor
      · intro hne
        by_contra hother
        refine hne ⟨fun hin => ?_, Finset.mem_insert_of_mem⟩
        exact (Finset.mem_insert.mp hin).resolve_left (Ne.symm hother)
      · rintro rfl hiff
        exact hid (hiff.mp (Finset.mem_insert_self id down))
  | mouseUp id =>
      have hid : id ∈ down := hturn
      rw [ActCmd.isClickOf, decide_eq_true_eq]
      constructor
      · intro hne
        by_contra hother
        exact hne ⟨Finset.mem_of_mem_erase, Finset.mem_erase_of_ne_of_mem (Ne.symm hother)⟩
      · rintro rfl hiff
        exact Finset.notMem_erase id down (hiff.mpr hid)
  | _ => exact absurd hturn id

/-! ## The two parts of an iteration -/

/-- The screen is this one, and the host has been told of the buttons. -/
structure ShownInv (width height : UInt16) (h : Hid) : Prop where
  width : h.act.screenWidth = width
  height : h.act.screenHeight = height
  last : LastSentInv h
  bits : ButtonBitsInv h
  shown : h.act.lastSentButtons = h.act.mouseButtons

/-- A report with the buttons that the host knows changes no bit. -/
theorem ShownInv.landings_same {width height : UInt16} {h h' : Hid} {r : MouseFields}
    (hinv : ShownInv width height h)
    (haccepted : acceptedMouse h'.calls = acceptedMouse h.calls ++ [r])
    (hbuttons : r.buttons = h.act.mouseButtons) (button : Int8) :
    h'.landings button = h.landings button := by
  have hknown : (lastMouse h.calls).buttons = h.act.mouseButtons :=
    hinv.last.buttons.symm.trans hinv.shown
  rw [landings_concat button haccepted, hbuttons, hknown, if_neg (not_not_intro rfl),
    List.append_nil]

theorem landings_of_accepted {h h' : Hid}
    (haccepted : acceptedMouse h'.calls = acceptedMouse h.calls) (button : Int8) :
    h'.landings button = h.landings button := by
  unfold Hid.landings
  rw [haccepted]

theorem ShownInv.movement {width height : UInt16} {h h' : Hid} (hinv : ShownInv width height h)
    (hstep : h.movementStep = some h') :
    ShownInv width height h' ∧ h'.processed = h.processed ∧
      ∀ button, h'.landings button = h.landings button := by
  have hstep' : hidStep h .movement = some h' := hstep
  have hsame := movementStep_sameTarget hstep
  have hlast := hidStep_lastSentInv h .movement h' hinv.last hstep'
  have hbits := hidStep_buttonBits h .movement h' hinv.bits hstep'
  have hkeeps : h'.act.lastSentButtons = h'.act.mouseButtons → ShownInv width height h' :=
    fun hshown =>
      ⟨hsame.width.trans hinv.width, hsame.height.trans hinv.height, hlast, hbits, hshown⟩
  rcases hidStep_spec hstep' with ⟨cmd, rest, hlabel, _⟩ | ⟨_, _, hsend⟩ |
      ⟨x, y, pending, queue, layout, rfl, _⟩
  · cases hlabel
  · have hprocessed : h'.processed = h.processed := (sendAbsMouseOnce_frame hsend).processed
    rcases sendMouse_accepted (Or.inl hsend) with ⟨hact, haccepted⟩ | ⟨hact, haccepted⟩
    · refine ⟨hkeeps ?_, hprocessed, landings_of_accepted haccepted⟩
      rw [hact]
      exact hinv.shown
    · refine ⟨hkeeps ?_, hprocessed, hinv.landings_same haccepted rfl⟩
      rw [hact]
      rfl
  · exact ⟨hkeeps hinv.shown, rfl, fun _ => rfl⟩

theorem ClickTurn.isClick {down : Finset Int8} {cmd : ActCmd} (hturn : ClickTurn down cmd) :
    cmd.isClick = true := by
  cases cmd with
  | mouseDown button | mouseUp button => rfl
  | _ => exact absurd hturn id

theorem processCommand_click (h : Hid) {cmd : ActCmd} (hclick : cmd.isClick = true) :
    h.processCommand cmd = Hid.sendAbsMouseRetry { h with act := { h.act with
      mouseButtons := buttonCommand h.act.mouseButtons cmd } } := by
  cases cmd with
  | mouseDown button | mouseUp button => rfl
  | _ => cases hclick

/-- A click that is taken lands at the target. -/
theorem ShownInv.command {width height : UInt16} {h h' : Hid} {cmd : ActCmd} {rest : List ActCmd}
    (hinv : ShownInv width height h) (hqueue : h.act.cmdQueue = cmd :: rest)
    (hturn : ClickTurn (buttonsDown h.processed) cmd) (hstep : h.commandStep = some h') :
    ShownInv width height h' ∧ h'.processed = h.processed ++ [cmd] ∧ h'.target = h.target ∧
      h'.act.cmdQueue = rest ∧
      ∀ button, barrierButtonToHid button ≠ 0 → h'.landings button = h.landings button ++
        if cmd.isClickOf button then [reported width height (some h.target)] else [] := by
  have hstep' : hidStep h .command = some h' := hstep
  have hp := commandStep_spec hinv.bits.mounted hqueue hstep
  rw [processCommand_click _ hturn.isClick] at hp
  have hsame := (sendAbsMouseRetry_frame hp).sameTarget
  have hshown := sendAbsMouseRetry_remembers hp
  have hbuttons : h'.act.mouseButtons = buttonCommand h.act.mouseButtons cmd :=
    (sendAbsMouseRetry_frame hp).mouseButtons
  have hprocessed : h'.processed = h.processed ++ [cmd] := (sendAbsMouseRetry_frame hp).processed
  have hbits := hinv.bits.bits
  refine ⟨⟨hsame.width.trans hinv.width, hsame.height.trans hinv.height,
    hidStep_lastSentInv h .command h' hinv.last hstep',
    hidStep_buttonBits h .command h' hinv.bits hstep', hshown⟩, hprocessed,
    Prod.ext hsame.targetX hsame.targetY, hsame.queue, fun button hbit => ?_⟩
  have hturned := bit_turned_iff hturn hbit
  rw [← hbits] at hturned
  rcases sendMouse_accepted (Or.inr hp) with ⟨hact, haccepted⟩ | ⟨hact, haccepted⟩
  · -- Only a report without news about the buttons may be rejected.
    have hold : h'.act.lastSentButtons = h.act.lastSentButtons := by
      rw [hact]
      rfl
    have hunchanged : buttonCommand h.act.mouseButtons cmd = h.act.mouseButtons :=
      calc buttonCommand h.act.mouseButtons cmd = h'.act.mouseButtons := hbuttons.symm
        _ = h'.act.lastSentButtons := hshown.symm
        _ = h.act.lastSentButtons := hold
        _ = h.act.mouseButtons := hinv.shown
    have hother : ¬ cmd.isClickOf button = true := by
      rw [← hturned, hunchanged]
      exact not_not_intro rfl
    rw [if_neg hother, List.append_nil]
    exact landings_of_accepted haccepted button
  · have haccepted' : acceptedMouse h'.calls = acceptedMouse h.calls ++ [{
        buttons := buttonCommand h.act.mouseButtons cmd
        x := toHid h.act.screenWidth h.act.targetX
        y := toHid h.act.screenHeight h.act.targetY
        wheel := h.act.mouseWheel }] := haccepted
    have hknown : (lastMouse h.calls).buttons = h.act.mouseButtons :=
      hinv.last.buttons.symm.trans hinv.shown
    rw [landings_concat button haccepted', hknown]
    by_cases hclick : cmd.isClickOf button = true
    · rw [if_pos hclick, if_pos (hturned.mpr hclick), hinv.width, hinv.height]
      rfl
    · rw [if_neg hclick, if_neg (mt hturned.mp hclick)]

/-! ## Packets -/

/-- A button packet that is not suppressed enters the queue, or empties it and fails. -/
theorem actuatorQueue_click {act : TusbActuator} {cmd : ActCmd} {now : UInt64}
    (hclick : cmd.isClick = true) (hsent : (enterCall act cmd now).2 ≠ .returns) :
    ∃ id type time err queue, actuatorQueue act cmd now = (err, { act with
        lastQueuedBtnId := id, lastQueuedBtnType := type, lastQueuedBtnTime := time,
        cmdQueue := queue }) ∧
      ((err = .ok ∧ queue = act.cmdQueue ++ [cmd]) ∨ (err ≠ .ok ∧ queue = [])) := by
  have hcall : ∃ id type time, enterCall act cmd now = ({ act with
      lastQueuedBtnId := id
      lastQueuedBtnType := type
      lastQueuedBtnTime := time }, .sends cmd) := by
    cases cmd with
    | mouseDown button | mouseUp button =>
        simp only [enterCall, actuatorQueueMouseDown, actuatorQueueMouseUp,
          TusbActuator.queueButton] at hsent ⊢
        split
        · next hsame =>
            rw [if_pos hsame] at hsent
            exact absurd rfl hsent
        · exact ⟨_, _, _, rfl⟩
    | _ => cases hclick
  obtain ⟨id, type, time, hcall⟩ := hcall
  refine ⟨id, type, time, ?_⟩
  simp only [actuatorQueue, hcall, TusbActuator.q, TusbActuator.xQueueSend]
  split
  · next hsend =>
      split at hsend
      · cases hsend
      · exact ⟨_, _, rfl, Or.inr ⟨nofun, rfl⟩⟩
  · next hsend =>
      split at hsend
      · cases hsend
        exact ⟨_, _, rfl, Or.inl ⟨rfl, rfl⟩⟩
      · cases hsend

/-- The presses and releases of every button alternate. -/
def Alternate (cmds : List ActCmd) : Prop :=
  ∀ before cmd after, cmds = before ++ cmd :: after → ClickTurn (buttonsDown before) cmd

theorem Alternate.concat {cmds : List ActCmd} {cmd : ActCmd} (h : Alternate cmds)
    (hturn : ClickTurn (buttonsDown cmds) cmd) : Alternate (cmds ++ [cmd]) := by
  intro before cmd' after hsplit
  rcases List.eq_nil_or_concat after with rfl | ⟨after', last, rfl⟩
  · obtain ⟨rfl, hlast⟩ := List.append_inj' hsplit rfl
    obtain ⟨rfl, -⟩ := List.cons.inj hlast
    exact hturn
  · rw [List.concat_eq_append, ← List.cons_append, ← List.append_assoc] at hsplit
    obtain ⟨hfront, -⟩ := List.append_inj' hsplit rfl
    exact h before cmd' after' hfront

/-! ## What holds in every state -/

/-- The clicks are processed in order, each at the position of its time. -/
structure ClickInv (width height : UInt16) (s : Clicking) : Prop where
  shown : ShownInv width height s.hid
  target : s.hid.target = s.position.getD (0, 0)
  /-- only the packet that ends the packet loop loses commands -/
  order : ∃ lost, s.clicks.map Prod.fst = s.hid.processed ++ (s.hid.act.cmdQueue ++ lost) ∧
    (s.ended = false → lost = [])
  taken : s.taken.map Prod.fst = s.hid.processed
  turns : Alternate (s.clicks.map Prod.fst)
  landings : ∀ button, barrierButtonToHid button ≠ 0 →
    s.hid.landings button = (clicksOf button s.taken).map (reported width height)

theorem clickInv_init (width height : UInt16) (layout : KeyboardLayout) (answers : List Bool) :
    ClickInv width height (Clicking.init width height layout answers) where
  shown := ⟨rfl, rfl, lastSentInv_init _ _ _ _ _, ⟨rfl, buttonBits_empty.symm⟩, rfl⟩
  target := rfl
  order := ⟨[], rfl, fun _ => rfl⟩
  taken := rfl
  turns := fun before _ _ hsplit => absurd hsplit.symm (List.append_ne_nil_of_right_ne_nil before
    (List.cons_ne_nil _ _))
  landings := fun _ _ => rfl

theorem clicksOf_cons (button : Int8) (c : ActCmd × Option Position)
    (clicks : List (ActCmd × Option Position)) :
    clicksOf button (c :: clicks) =
      if c.1.isClickOf button then c.2 :: clicksOf button clicks else clicksOf button clicks := by
  unfold clicksOf
  rw [List.filter_cons]
  cases c.1.isClickOf button <;> rfl

theorem clicksOf_concat (button : Int8) (clicks : List (ActCmd × Option Position)) (cmd : ActCmd)
    (pos : Option Position) :
    clicksOf button (clicks ++ [(cmd, pos)]) =
      clicksOf button clicks ++ if cmd.isClickOf button then [pos] else [] := by
  unfold clicksOf
  rw [List.filter_append, List.map_append, List.filter_singleton]
  cases cmd.isClickOf button <;> rfl

theorem ClickInv.dmmv {width height : UInt16} {s : Clicking} (hinv : ClickInv width height s)
    (x y : UInt16) : ClickInv width height { s with
      hid := { s.hid with act := actuatorSetMovement s.hid.act x y }
      position := some (x, y) } := by
  obtain ⟨pending, hact⟩ := notifyMovement_eq { s.hid.act with targetX := x, targetY := y }
  have hset : actuatorSetMovement s.hid.act x y =
      { s.hid.act with targetX := x, targetY := y, movementPending := pending } := hact
  rw [hset]
  obtain ⟨⟨hwidth, hheight, hlast, hbits, hshown⟩, _, horder, htaken, hturns, hlandings⟩ := hinv
  exact ⟨⟨hwidth, hheight, ⟨hlast.x, hlast.y, hlast.buttons⟩, ⟨hbits.mounted, hbits.bits⟩, hshown⟩,
    rfl, horder, htaken, hturns, hlandings⟩

/-- A packet that fails loses the commands that wait, and its own. -/
theorem ClickInv.click {width height : UInt16} {s t : Clicking} {cmd : ActCmd} {now : UInt64}
    (hinv : ClickInv width height s) (hclick : s.click cmd now = some t) :
    ClickInv width height t := by
  unfold Clicking.click at hclick
  split at hclick
  · next hgoes =>
      obtain ⟨hopen, hturn, hsent⟩ := hgoes
      obtain ⟨id, type, time, err, queue, hcall, hqueue⟩ := actuatorQueue_click hturn.isClick hsent
      obtain ⟨⟨hwidth, hheight, hlast, hbits, hshown⟩, htarget, ⟨lost, horder, hlost⟩, htaken,
        hturns, hlandings⟩ := hinv
      have hnone := hlost hopen
      rw [hcall] at hclick
      cases hclick
      refine ⟨⟨hwidth, hheight, ⟨hlast.x, hlast.y, hlast.buttons⟩, ⟨hbits.mounted, hbits.bits⟩,
        hshown⟩, htarget, ?_, htaken, ?_, hlandings⟩
      · rw [List.map_append, horder, hnone, List.append_nil]
        rcases hqueue with ⟨herr, hroom⟩ | ⟨herr, hfull⟩
        · refine ⟨[], ?_, fun _ => rfl⟩
          simp only [hroom, List.append_nil, List.append_assoc]
          rfl
        · refine ⟨s.hid.act.cmdQueue ++ [cmd], ?_, fun hgoes => ?_⟩
          · simp only [hfull, List.nil_append, List.append_assoc]
            rfl
          · exact absurd herr (of_decide_eq_false hgoes)
      · rw [List.map_append]
        exact hturns.concat hturn
  · cases hclick

/-- An iteration takes at most one command. -/
theorem ClickInv.iteration {width height : UInt16} {s : Clicking} {hid : Hid}
    (hinv : ClickInv width height s) (hstep : s.hid.iteration = some hid) :
    ClickInv width height { s with
      hid := hid
      taken := s.taken ++
        (s.hid.act.cmdQueue.head?.map fun cmd => (cmd, s.position)).toList } := by
  obtain ⟨m, hm, hcommand⟩ := Option.bind_eq_some_iff.mp hstep
  obtain ⟨hshown, hprocessed, hquiet⟩ := hinv.shown.movement hm
  have hsame := movementStep_sameTarget hm
  have htarget : m.target = s.hid.target := Prod.ext hsame.targetX hsame.targetY
  obtain ⟨lost, horder, hlost⟩ := hinv.order
  cases hqueue : s.hid.act.cmdQueue with
  | nil =>
      have hempty : m.act.cmdQueue = [] := hsame.queue.trans hqueue
      rw [commandStep_empty hempty] at hcommand
      cases hcommand
      refine ⟨hshown, htarget.trans hinv.target, ⟨lost, ?_, hlost⟩, ?_, hinv.turns, ?_⟩
      · rw [hprocessed, hsame.queue]
        exact horder
      · rw [hprocessed]
        exact (congrArg (List.map Prod.fst) (List.append_nil s.taken)).trans hinv.taken
      · intro button hbit
        rw [hquiet]
        exact (hinv.landings button hbit).trans (congrArg (fun taken =>
          (clicksOf button taken).map (reported width height)) (List.append_nil s.taken).symm)
  | cons cmd rest =>
      rw [hqueue, List.cons_append] at horder
      have hturn : ClickTurn (buttonsDown m.processed) cmd := by
        rw [hprocessed]
        exact hinv.turns _ _ _ horder
      obtain ⟨hshown', hprocessed', htarget', hqueue', hlands⟩ :=
        hshown.command (hsame.queue.trans hqueue) hturn hcommand
      refine ⟨hshown', htarget'.trans (htarget.trans hinv.target), ⟨lost, ?_, hlost⟩, ?_,
        hinv.turns, ?_⟩
      · rw [hprocessed', hqueue', hprocessed, List.append_assoc]
        exact horder
      · rw [hprocessed', hprocessed, List.map_append, hinv.taken]
        rfl
      · intro button hbit
        have hposition : reported width height (some m.target) =
            reported width height s.position := by
          rw [htarget, hinv.target]
          rfl
        have hconcat : clicksOf button (s.taken ++ [(cmd, s.position)]) = _ :=
          clicksOf_concat button s.taken cmd s.position
        rw [hlands button hbit, hquiet, hinv.landings button hbit, hposition]
        refine Eq.trans ?_ (congrArg (List.map (reported width height)) hconcat).symm
        rw [List.map_append]
        cases cmd.isClickOf button <;> rfl

theorem clickStep_inv {width height : UInt16} (s : Clicking) (label : ClickLabel) (t : Clicking)
    (hinv : ClickInv width height s) (hstep : clickStep s label = some t) :
    ClickInv width height t := by
  cases label with
  | dmmv x y =>
      simp only [clickStep] at hstep
      split at hstep
      · cases hstep
      · cases hstep
        exact hinv.dmmv x y
  | dmdn button now => exact hinv.click hstep
  | dmup button now => exact hinv.click hstep
  | iteration =>
      obtain ⟨hid, hiteration, rfl⟩ := Option.map_eq_some_iff.mp hstep
      exact hinv.iteration hiteration

/-! ## Clicks and moves that overtake them -/

/-- What is said of the clicks of a button, one after the other, is said of the packets of the
button. -/
theorem forall_clicksOf_iff {button : Int8} {clicks taken : List (ActCmd × Option Position)}
    {f : Option Position → UInt16 × UInt16} {P : UInt16 × UInt16 → Option Position → Prop}
    (h : taken.map Prod.fst <+: clicks.map Prod.fst) :
    (∀ landing ∈ ((clicksOf button taken).map f).zip (clicksOf button clicks),
      P landing.1 landing.2) ↔
    ∀ c ∈ clicks.zip taken, c.1.1.isClickOf button = true → P (f c.2.2) c.1.2 := by
  induction taken generalizing clicks with
  | nil =>
      rw [List.zip_nil_right]
      exact iff_of_true (fun _ hl => absurd hl List.not_mem_nil)
        fun _ hc => absurd hc List.not_mem_nil
  | cons t taken ih =>
      cases clicks with
      | nil => exact absurd (List.prefix_nil.mp h) (List.cons_ne_nil _ _)
      | cons c clicks =>
          obtain ⟨hcmd, hrest⟩ := List.cons_prefix_cons.mp h
          have htail := ih hrest
          rw [List.zip_cons_cons, List.forall_mem_cons, ← htail, clicksOf_cons, clicksOf_cons, hcmd]
          cases c.1.isClickOf button with
          | true =>
              rw [if_pos rfl, if_pos rfl, List.map_cons, List.zip_cons_cons, List.forall_mem_cons]
              exact and_congr_left fun _ => ⟨fun hhead _ => hhead, fun hhead => hhead rfl⟩
          | false =>
              rw [if_neg nofun, if_neg nofun]
              exact (and_iff_right nofun).symm

/-- Whenever the command of a button with a bit was taken, the last DMMV position had the report
values of the last one before its packet. -/
def NotOvertaken (width height : UInt16) (s : Clicking) : Prop :=
  ∀ button, barrierButtonToHid button ≠ 0 →
    ∀ c ∈ s.clicks.zip s.taken, c.1.1.isClickOf button = true → ∀ pos ∈ c.1.2,
      reported width height c.2.2 = reported width height (some pos)

/-- In every run of the packets and the HID task, with the device mounted and whatever reports are
rejected: the commands are taken in the order of the packets; the `n`-th change of a button's bit is
reported at the last DMMV position handled when the `n`-th command of the button was taken; and this
is where the server clicked exactly if no move to another report value has overtaken the click. -/
theorem clicksLand_run {width height : UInt16} {layout : KeyboardLayout} {answers : List Bool}
    {labels : List ClickLabel} {s : Clicking}
    (hrun : run clickStep (Clicking.init width height layout answers) labels = some s) :
    s.taken.map Prod.fst <+: s.clicks.map Prod.fst ∧
    (∀ button, barrierButtonToHid button ≠ 0 →
      s.hid.landings button = (clicksOf button s.taken).map (reported width height)) ∧
    (LandsWhereClicked width height s ↔ NotOvertaken width height s) := by
  have hinv : ClickInv width height s := run_invariant clickStep_inv (clickInv_init _ _ _ _) hrun
  obtain ⟨lost, horder, _⟩ := hinv.order
  have horder' : s.taken.map Prod.fst <+: s.clicks.map Prod.fst := by
    rw [hinv.taken, horder]
    exact List.prefix_append _ _
  refine ⟨horder', hinv.landings, forall₂_congr fun button hbit => ?_⟩
  rw [hinv.landings button hbit]
  exact forall_clicksOf_iff (P := fun landing click =>
    ∀ pos ∈ click, landing = reported width height (some pos)) horder'

/-- A click between two moves, each of them taken up before the next packet. -/
def moveClickMoveLabels : List ClickLabel :=
  [.dmmv 100 100, .dmdn 1 1000, .iteration, .dmmv 200 200, .iteration, .dmup 1 1100, .iteration]

theorem clicksLand_run_moveClickMove :
    ∃ s, run clickStep (Clicking.init 1920 1080 .us (List.replicate 4 true)) moveClickMoveLabels =
        some s ∧
      s.hid.landings 1 =
        [reported 1920 1080 (some (100, 100)), reported 1920 1080 (some (200, 200))] ∧
      (LandsWhereClicked 1920 1080 s ↔ NotOvertaken 1920 1080 s) := by
  have hview : (run clickStep (Clicking.init 1920 1080 .us (List.replicate 4 true))
      moveClickMoveLabels).map (fun s => s.hid.landings 1) =
      some [reported 1920 1080 (some (100, 100)), reported 1920 1080 (some (200, 200))] := by
    decide +kernel
  obtain ⟨s, hrun, hlandings⟩ := Option.map_eq_some_iff.mp hview
  exact ⟨s, hrun, hlandings, (clicksLand_run hrun).2.2⟩

/-- The left button is pressed at (100, 100), and the pointer moves on before the HID task runs: the
press is reported at (200, 200). -/
theorem not_landsWhereClicked :
    ∃ s, run clickStep (Clicking.init 1920 1080 .us [true, true])
        [.dmmv 100 100, .dmdn 1 1000, .dmmv 200 200, .iteration] = some s ∧
      s.clicks = [(.mouseDown 1, some (100, 100))] ∧
      s.hid.landings 1 = [reported 1920 1080 (some (200, 200))] ∧
      reported 1920 1080 (some (200, 200)) ≠ reported 1920 1080 (some (100, 100)) ∧
      ¬ LandsWhereClicked 1920 1080 s := by
  have hview : (run clickStep (Clicking.init 1920 1080 .us [true, true])
      [.dmmv 100 100, .dmdn 1 1000, .dmmv 200 200, .iteration]).map (fun s =>
        (s.clicks, s.hid.landings 1)) =
      some ([(.mouseDown 1, some (100, 100))], [reported 1920 1080 (some (200, 200))]) := by
    decide +kernel
  obtain ⟨s, hrun, hends⟩ := Option.map_eq_some_iff.mp hview
  simp only [Prod.mk.injEq] at hends
  obtain ⟨hclicks, hlandings⟩ := hends
  have hother : reported 1920 1080 (some (200, 200)) ≠ reported 1920 1080 (some (100, 100)) := by
    decide
  refine ⟨s, hrun, hclicks, hlandings, hother, fun hlands => ?_⟩
  have hzip : (reported 1920 1080 (some (200, 200)), some (100, 100)) ∈
      (s.hid.landings 1).zip (clicksOf 1 s.clicks) := by
    rw [hlandings, hclicks]
    exact List.mem_cons_self
  exact hother (hlands 1 (by decide) _ hzip (100, 100) rfl)

end Esp32Deskflow.Tusb
