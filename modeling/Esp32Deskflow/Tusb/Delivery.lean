/-
  Tusb/Delivery.lean --- the command queue between the network task and the HID task.

  The network task's calls are taken apart into their accesses to the queue, so that
  the HID task may receive between any two of them.  The history records which
  commands were accepted and who took each of them.

  A command is lost only in `_dump_queue`: the order is kept in every run, and every
  accepted command is kept exactly in the runs where that loop never finds one.
-/
import Esp32Deskflow.Foundation.Transition
import Esp32Deskflow.Tusb.Actuator

set_option autoImplicit false

namespace Esp32Deskflow.Tusb

open Esp32Deskflow.Foundation Esp32Deskflow.Foundation.Transition

/-! ## The two tasks at the queue -/

/-- Where the network task stands in an `actuator_queue_*` call. -/
inductive NetPc where
  | idle
  /-- in `_q`, before `xQueueSend` -/
  | sending (cmd : ActCmd)
  /-- in the `while` loop of `actuator_queue_disconnected` -/
  | flushing (cmd : ActCmd)
  /-- in `_dump_queue`, before the number of waiting commands is read -/
  | dumpEntry
  /-- in the `for` loop of `_dump_queue`, with the iterations left -/
  | dumping (left : Nat)
  deriving DecidableEq, Repr

/-- Who received a command from the queue. -/
inductive Taker where
  | hid
  | flush
  | dump
  deriving DecidableEq, Repr

/-- The queue, the network task at it, and the history. -/
structure Delivery where
  act : TusbActuator
  pc : NetPc
  /-- the result of the last finished call -/
  result : EspErr
  /-- the commands put into the queue, in the order of the calls -/
  accepted : List ActCmd
  /-- the commands received from the queue, in order, and by whom -/
  taken : List (ActCmd × Taker)
  deriving Repr

/-- An access of one of the tasks to the queue. -/
inductive DeliveryLabel where
  /-- the network task calls the entry point for `cmd` at time `now` -/
  | call (cmd : ActCmd) (now : UInt64)
  /-- `xQueueSend` succeeds -/
  | send
  /-- `xQueueSend` gives up on a full queue -/
  | sendTimeout
  /-- `xQueueReceive` in the flush loop -/
  | flush
  /-- `uxQueueMessagesWaiting` -/
  | readDepth
  /-- an iteration of the `for` loop of `_dump_queue` -/
  | dump
  /-- `xQueueReceive` in `hid_task` -/
  | hidReceive
  deriving DecidableEq, Repr

/-- The state after a command was received by `taker`. -/
def Delivery.take (d : Delivery) (taker : Taker) (cmd : ActCmd) (act : TusbActuator) : Delivery :=
  { d with act := act, taken := d.taken ++ [(cmd, taker)] }

/-- One access to the queue. -/
def deliveryStep (d : Delivery) : DeliveryLabel → Option Delivery
  | .call cmd now =>
      if d.pc = .idle then
        match enterCall d.act cmd now with
        | (act, .returns) => some { d with act := act, result := .ok }
        | (act, .sends cmd') => some { d with act := act, pc := .sending cmd' }
        | (act, .flushes cmd') => some { d with act := act, pc := .flushing cmd' }
      else none
  | .send =>
      match d.pc with
      | .sending cmd =>
          (d.act.xQueueSend cmd).map fun act =>
            { d with act := act, pc := .idle, result := .ok, accepted := d.accepted ++ [cmd] }
      | _ => none
  | .sendTimeout =>
      match d.pc with
      | .sending cmd =>
          if (d.act.xQueueSend cmd).isNone then some { d with pc := .dumpEntry } else none
      | _ => none
  | .flush =>
      match d.pc with
      | .flushing cmd =>
          match d.act.xQueueReceive with
          | none => some { d with pc := .sending cmd }
          | some (cmd', act) => some (d.take .flush cmd' act)
      | _ => none
  | .readDepth =>
      match d.pc with
      | .dumpEntry => some { d with pc := .dumping d.act.cmdQueue.length }
      | _ => none
  | .dump =>
      match d.pc with
      | .dumping 0 => some { d with pc := .idle, result := .timeout }
      | .dumping (left + 1) =>
          match d.act.xQueueReceive with
          | none => some { d with pc := .dumping left }
          | some (cmd, act) => some { d.take .dump cmd act with pc := .dumping left }
      | _ => none
  | .hidReceive =>
      match d.act.xQueueReceive with
      | none => some d
      | some (cmd, act) => some (d.take .hid cmd act)

/-- The state after `tusb_actuator_init`. -/
def Delivery.init (screenWidth screenHeight : UInt16) : Delivery where
  act := tusbActuatorInit screenWidth screenHeight
  pc := .idle
  result := .ok
  accepted := []
  taken := []

/-! ## What an access does -/

/-- The loop of `_dump_queue` does not find a command. -/
def DumpFindsNone (d : Delivery) (label : DeliveryLabel) : Prop :=
  label = .dump → d.act.cmdQueue = [] ∨ d.pc = .dumping 0

/-- An access leaves the queue alone, appends an accepted command, or takes the first one,
which is lost exactly in the loop of `_dump_queue`. -/
theorem deliveryStep_cases {d d' : Delivery} {label : DeliveryLabel}
    (hstep : deliveryStep d label = some d') :
    (d'.act.cmdQueue = d.act.cmdQueue ∧ d'.accepted = d.accepted ∧ d'.taken = d.taken ∧
      DumpFindsNone d label) ∨
    (∃ cmd, d'.act.cmdQueue = d.act.cmdQueue ++ [cmd] ∧ d'.accepted = d.accepted ++ [cmd] ∧
      d'.taken = d.taken ∧ DumpFindsNone d label) ∨
    (∃ cmd taker, d.act.cmdQueue = cmd :: d'.act.cmdQueue ∧ d'.accepted = d.accepted ∧
      d'.taken = d.taken ++ [(cmd, taker)] ∧ (taker = .dump ↔ ¬ DumpFindsNone d label)) := by
  have hother : ∀ {l : DeliveryLabel}, l ≠ .dump → DumpFindsNone d l := by
    intro l hne heq
    exact absurd heq hne
  cases label with
  | call cmd now =>
      have hqueue := enterCall_cmdQueue d.act cmd now
      simp only [deliveryStep] at hstep
      split at hstep
      · split at hstep
        all_goals
          rename_i heq
          rw [heq] at hqueue
          cases hstep
          exact .inl ⟨hqueue, rfl, rfl, hother (by simp)⟩
      · cases hstep
  | send =>
      simp only [deliveryStep] at hstep
      split at hstep
      · rename_i cmd hpc
        obtain ⟨act, hsend, rfl⟩ := Option.map_eq_some_iff.mp hstep
        obtain ⟨-, rfl⟩ := xQueueSend_spec hsend
        exact .inr (.inl ⟨cmd, rfl, rfl, rfl, hother (by decide)⟩)
      · cases hstep
  | sendTimeout =>
      simp only [deliveryStep] at hstep
      split at hstep
      · split at hstep
        · cases hstep
          exact .inl ⟨rfl, rfl, rfl, hother (by decide)⟩
        · cases hstep
      · cases hstep
  | flush =>
      simp only [deliveryStep] at hstep
      split at hstep
      · split at hstep
        · cases hstep
          exact .inl ⟨rfl, rfl, rfl, hother (by decide)⟩
        · rename_i cmd act hreceive
          obtain ⟨rest, hqueue, rfl⟩ := xQueueReceive_spec hreceive
          cases hstep
          have hgood : DumpFindsNone d .flush := hother (by decide)
          exact .inr (.inr ⟨cmd, .flush, hqueue, rfl, rfl,
            iff_of_false (by decide) (not_not_intro hgood)⟩)
      · cases hstep
  | readDepth =>
      simp only [deliveryStep] at hstep
      split at hstep
      · cases hstep
        exact .inl ⟨rfl, rfl, rfl, hother (by decide)⟩
      · cases hstep
  | dump =>
      simp only [deliveryStep] at hstep
      split at hstep
      · rename_i hpc
        cases hstep
        exact .inl ⟨rfl, rfl, rfl, fun _ => Or.inr hpc⟩
      · rename_i left hpc
        split at hstep
        · rename_i hreceive
          cases hstep
          exact .inl ⟨rfl, rfl, rfl, fun _ => Or.inl (xQueueReceive_none hreceive)⟩
        · rename_i cmd act hreceive
          obtain ⟨rest, hqueue, rfl⟩ := xQueueReceive_spec hreceive
          cases hstep
          refine .inr (.inr ⟨cmd, .dump, hqueue, rfl, rfl, iff_of_true rfl ?_⟩)
          intro hnone
          rcases hnone rfl with hempty | hzero
          · rw [hqueue] at hempty
            cases hempty
          · rw [hpc] at hzero
            cases hzero
      · cases hstep
  | hidReceive =>
      simp only [deliveryStep] at hstep
      split at hstep
      · cases hstep
        exact .inl ⟨rfl, rfl, rfl, hother (by decide)⟩
      · rename_i cmd act hreceive
        obtain ⟨rest, hqueue, rfl⟩ := xQueueReceive_spec hreceive
        cases hstep
        have hgood : DumpFindsNone d .hidReceive := hother (by decide)
        exact .inr (.inr ⟨cmd, .hid, hqueue, rfl, rfl,
          iff_of_false (by decide) (not_not_intro hgood)⟩)

/-! ## Order -/

/-- The accepted commands are those taken, then those waiting. -/
def InOrder (d : Delivery) : Prop := d.accepted = d.taken.map Prod.fst ++ d.act.cmdQueue

theorem deliveryStep_inOrder (d : Delivery) (label : DeliveryLabel) (d' : Delivery)
    (hinv : InOrder d) (hstep : deliveryStep d label = some d') : InOrder d' := by
  unfold InOrder at hinv ⊢
  rcases deliveryStep_cases hstep with ⟨hqueue, haccepted, htaken, -⟩ |
      ⟨cmd, hqueue, haccepted, htaken, -⟩ | ⟨cmd, taker, hqueue, haccepted, htaken, -⟩
  · rw [haccepted, htaken, hqueue]
    exact hinv
  · rw [haccepted, htaken, hqueue, hinv, List.append_assoc]
  · rw [haccepted, htaken, List.map_append, List.append_assoc, hinv, hqueue]
    rfl

/-! ## Losses -/

/-- No accepted command was taken by `_dump_queue`. -/
def Kept (d : Delivery) : Prop := ∀ t ∈ d.taken, t.2 = .hid ∨ t.2 = .flush

theorem not_dump_iff (taker : Taker) : taker = .hid ∨ taker = .flush ↔ ¬ taker = .dump := by
  cases taker <;> decide

/-- A command is lost in a step exactly if the loop of `_dump_queue` finds one. -/
theorem deliveryStep_kept_iff {d d' : Delivery} {label : DeliveryLabel}
    (hstep : deliveryStep d label = some d') : Kept d' ↔ Kept d ∧ DumpFindsNone d label := by
  unfold Kept
  rcases deliveryStep_cases hstep with ⟨-, -, htaken, hgood⟩ | ⟨cmd, -, -, htaken, hgood⟩ |
      ⟨cmd, taker, -, -, htaken, hlost⟩
  · rw [htaken]
    exact (and_iff_left hgood).symm
  · rw [htaken]
    exact (and_iff_left hgood).symm
  · rw [htaken, List.forall_mem_append, List.forall_mem_singleton, not_dump_iff, hlost, not_not]

/-- Nothing is lost over a run exactly if no loop of `_dump_queue` finds a command. -/
theorem run_kept_iff {labels : List DeliveryLabel} {d d' : Delivery}
    (hrun : run deliveryStep d labels = some d') :
    Kept d' ↔ Kept d ∧ AllSteps deliveryStep DumpFindsNone d labels :=
  run_iff_allSteps (fun _ _ _ _ _ => trivial) (fun _ _ _ _ hstep => deliveryStep_kept_iff hstep)
    trivial hrun

/-! ## Delivery -/

/-- The HID task takes what waits, in order, once it runs. -/
theorem run_hidReceive (d : Delivery) :
    ∃ d', run deliveryStep d (List.replicate d.act.cmdQueue.length .hidReceive) = some d' ∧
      d'.act.cmdQueue = [] ∧
      d'.taken = d.taken ++ d.act.cmdQueue.map fun cmd => (cmd, .hid) := by
  generalize hqueue : d.act.cmdQueue = queue
  induction queue generalizing d with
  | nil => exact ⟨d, rfl, hqueue, (List.append_nil _).symm⟩
  | cons cmd queue ih =>
      have hreceive : d.act.xQueueReceive = some (cmd, { d.act with cmdQueue := queue }) := by
        unfold TusbActuator.xQueueReceive
        rw [hqueue]
      have hstep : deliveryStep d .hidReceive =
          some (d.take .hid cmd { d.act with cmdQueue := queue }) := by
        simp only [deliveryStep, hreceive]
      obtain ⟨d', hrun, hempty, htaken⟩ :=
        ih (d.take .hid cmd { d.act with cmdQueue := queue }) rfl
      refine ⟨d', run_cons_iff.mpr ⟨_, hstep, hrun⟩, hempty, ?_⟩
      rw [htaken]
      simp [Delivery.take]

/-- Every accepted command was received by the HID task, in the order of the calls, was
flushed by a later disconnect, or waits for the HID task, which receives it when it runs. -/
structure Delivered (d : Delivery) : Prop where
  inOrder : d.accepted = d.taken.map Prod.fst ++ d.act.cmdQueue
  kept : ∀ t ∈ d.taken, t.2 = .hid ∨ t.2 = .flush
  receives : ∃ d', run deliveryStep d (List.replicate d.act.cmdQueue.length .hidReceive) = some d' ∧
    d'.act.cmdQueue = [] ∧ d'.taken = d.taken ++ d.act.cmdQueue.map fun cmd => (cmd, .hid)

/-- In every run of the two tasks, all accepted commands are delivered exactly if no loop of
`_dump_queue` finds a command. -/
theorem delivered_run_iff {screenWidth screenHeight : UInt16} {labels : List DeliveryLabel}
    {d : Delivery}
    (hrun : run deliveryStep (Delivery.init screenWidth screenHeight) labels = some d) :
    Delivered d ↔
      AllSteps deliveryStep DumpFindsNone (Delivery.init screenWidth screenHeight) labels := by
  have hinit : InOrder (Delivery.init screenWidth screenHeight) := rfl
  have horder : InOrder d := run_invariant deliveryStep_inOrder hinit hrun
  have hnothing : Kept (Delivery.init screenWidth screenHeight) := by
    intro t ht
    cases ht
  have hkept := run_kept_iff hrun
  constructor
  · intro hdelivered
    exact (hkept.mp hdelivered.kept).2
  · intro hall
    exact ⟨horder, hkept.mpr ⟨hnothing, hall⟩, run_hidReceive d⟩

/-- A key goes down and the HID task receives it. -/
def keyDownLabels : List DeliveryLabel := [.call (.keyDown 0x61 0 0) 1000, .send, .hidReceive]

theorem delivered_run_iff_keyDown :
    ∃ d, run deliveryStep (Delivery.init 1920 1080) keyDownLabels = some d ∧
      d.taken = [(.keyDown 0x61 0 0, .hid)] ∧
      (Delivered d ↔
        AllSteps deliveryStep DumpFindsNone (Delivery.init 1920 1080) keyDownLabels) := by
  have htaken : (run deliveryStep (Delivery.init 1920 1080) keyDownLabels).map Delivery.taken =
      some [(.keyDown 0x61 0 0, .hid)] := by decide
  obtain ⟨d, hrun, htaken⟩ := Option.map_eq_some_iff.mp htaken
  exact ⟨d, hrun, htaken, delivered_run_iff hrun⟩

/-- A key goes up, 31 more commands fill the queue, and a jiggle finds it full. -/
def fullQueueLabels : List DeliveryLabel :=
  [.call (.keyUp 0x61 0 0) 1000, .send] ++
    (List.replicate 31 [DeliveryLabel.call .leave 1000, .send]).flatten ++
    [.call .jiggle 1000, .sendTimeout, .readDepth] ++ List.replicate 33 .dump

/-- The jiggle returns `ESP_ERR_TIMEOUT`, and the accepted KEY_UP is gone. -/
theorem accepted_keyUp_dumped :
    ∃ d, run deliveryStep (Delivery.init 1920 1080) fullQueueLabels = some d ∧
      d.result = .timeout ∧ d.accepted.head? = some (.keyUp 0x61 0 0) ∧
      d.taken.head? = some (.keyUp 0x61 0 0, .dump) ∧ d.act.cmdQueue = [] ∧ ¬ Delivered d := by
  have hend : (run deliveryStep (Delivery.init 1920 1080) fullQueueLabels).map
      (fun d => (d.result, d.accepted.head?, d.taken.head?, d.act.cmdQueue)) =
      some (.timeout, some (.keyUp 0x61 0 0), some (.keyUp 0x61 0 0, .dump), []) := by
    decide +kernel
  obtain ⟨d, hrun, hends⟩ := Option.map_eq_some_iff.mp hend
  simp only [Prod.mk.injEq] at hends
  obtain ⟨hresult, haccepted, htaken, hqueue⟩ := hends
  refine ⟨d, hrun, hresult, haccepted, htaken, hqueue, ?_⟩
  intro hdelivered
  have hdumped := hdelivered.kept _ (List.mem_of_mem_head? htaken)
  rcases hdumped with hhid | hflush
  · cases hhid
  · cases hflush

/-! ## A call as one step -/

/-- The loop of `_dump_queue`, undisturbed, empties the queue and returns. -/
theorem run_dump (d : Delivery) (hpc : d.pc = .dumping d.act.cmdQueue.length) :
    ∃ d', run deliveryStep d (List.replicate (d.act.cmdQueue.length + 1) .dump) = some d' ∧
      d'.pc = .idle ∧ d'.result = .timeout ∧ d'.act = d.act.dumpQueue := by
  generalize hqueue : d.act.cmdQueue = queue at hpc
  induction queue generalizing d with
  | nil =>
      have hstep : deliveryStep d .dump = some { d with pc := .idle, result := .timeout } := by
        simp only [deliveryStep, hpc, List.length_nil]
      refine ⟨_, run_cons_iff.mpr ⟨_, hstep, rfl⟩, rfl, rfl, ?_⟩
      unfold TusbActuator.dumpQueue
      rw [← hqueue]
  | cons cmd queue ih =>
      have hreceive : d.act.xQueueReceive = some (cmd, { d.act with cmdQueue := queue }) := by
        unfold TusbActuator.xQueueReceive
        rw [hqueue]
      have hstep : deliveryStep d .dump =
          some { d.take .dump cmd { d.act with cmdQueue := queue } with
            pc := .dumping queue.length } := by
        simp only [deliveryStep, hpc, List.length_cons, hreceive]
      obtain ⟨d', hrun, hrest⟩ := ih { d.take .dump cmd { d.act with cmdQueue := queue } with
        pc := .dumping queue.length } rfl rfl
      exact ⟨d', run_cons_iff.mpr ⟨_, hstep, hrun⟩, hrest⟩

/-- The flush loop, undisturbed, empties the queue. -/
theorem run_flush (d : Delivery) (cmd : ActCmd) (hpc : d.pc = .flushing cmd) :
    ∃ d', run deliveryStep d (List.replicate (d.act.cmdQueue.length + 1) .flush) = some d' ∧
      d'.pc = .sending cmd ∧ d'.act = { d.act with cmdQueue := [] } := by
  generalize hqueue : d.act.cmdQueue = queue
  induction queue generalizing d with
  | nil =>
      have hreceive : d.act.xQueueReceive = none := by
        unfold TusbActuator.xQueueReceive
        rw [hqueue]
      have hstep : deliveryStep d .flush = some { d with pc := .sending cmd } := by
        simp only [deliveryStep, hpc, hreceive]
      refine ⟨_, run_cons_iff.mpr ⟨_, hstep, rfl⟩, rfl, ?_⟩
      rw [← hqueue]
  | cons cmd' queue ih =>
      have hreceive : d.act.xQueueReceive = some (cmd', { d.act with cmdQueue := queue }) := by
        unfold TusbActuator.xQueueReceive
        rw [hqueue]
      have hstep : deliveryStep d .flush =
          some (d.take .flush cmd' { d.act with cmdQueue := queue }) := by
        simp only [deliveryStep, hpc, hreceive]
      obtain ⟨d', hrun, hrest⟩ := ih (d.take .flush cmd' { d.act with cmdQueue := queue }) hpc rfl
      exact ⟨d', run_cons_iff.mpr ⟨_, hstep, hrun⟩, hrest⟩

/-- `_q`, undisturbed, is the single step `q`. -/
theorem run_q (d : Delivery) (cmd : ActCmd) (hpc : d.pc = .sending cmd) :
    ∃ labels d', .hidReceive ∉ labels ∧ run deliveryStep d labels = some d' ∧ d'.pc = .idle ∧
      (d'.result, d'.act) = d.act.q cmd := by
  unfold TusbActuator.q
  cases hsend : d.act.xQueueSend cmd with
  | some act =>
      have hstep : deliveryStep d .send = some { d with
          act := act, pc := .idle, result := .ok, accepted := d.accepted ++ [cmd] } := by
        simp only [deliveryStep, hpc, hsend, Option.map_some]
      exact ⟨[.send], _, by simp, run_cons_iff.mpr ⟨_, hstep, rfl⟩, rfl, rfl⟩
  | none =>
      have htimeout : deliveryStep d .sendTimeout = some { d with pc := .dumpEntry } := by
        simp only [deliveryStep, hpc, hsend, Option.isNone_none, if_true]
      have hdepth : deliveryStep { d with pc := .dumpEntry } .readDepth =
          some { d with pc := .dumping d.act.cmdQueue.length } := rfl
      obtain ⟨d', hrun, hidle, hresult, hact⟩ :=
        run_dump { d with pc := .dumping d.act.cmdQueue.length } rfl
      refine ⟨.sendTimeout :: .readDepth :: List.replicate (d.act.cmdQueue.length + 1) .dump, d',
        ?_, run_cons_iff.mpr ⟨_, htimeout, run_cons_iff.mpr ⟨_, hdepth, hrun⟩⟩, hidle, ?_⟩
      · simp [List.mem_replicate]
      · rw [hresult, hact]

/-- A call of the network task that the HID task does not interrupt is the single step
`actuatorQueue`. -/
theorem run_actuatorQueue (d : Delivery) (cmd : ActCmd) (now : UInt64) (hidle : d.pc = .idle) :
    ∃ labels d', .hidReceive ∉ labels ∧ run deliveryStep d labels = some d' ∧ d'.pc = .idle ∧
      (d'.result, d'.act) = actuatorQueue d.act cmd now := by
  unfold actuatorQueue
  rcases hcall : enterCall d.act cmd now with ⟨act, call⟩
  cases call with
  | returns =>
      have hstep : deliveryStep d (.call cmd now) = some { d with act := act, result := .ok } := by
        simp only [deliveryStep, hidle, if_true, hcall]
      exact ⟨[.call cmd now], _, by simp, run_cons_iff.mpr ⟨_, hstep, rfl⟩, hidle, rfl⟩
  | sends cmd' =>
      have hstep : deliveryStep d (.call cmd now) =
          some { d with act := act, pc := .sending cmd' } := by
        simp only [deliveryStep, hidle, if_true, hcall]
      obtain ⟨labels, d', hno, hrun, hend⟩ :=
        run_q { d with act := act, pc := .sending cmd' } cmd' rfl
      refine ⟨.call cmd now :: labels, d', ?_, run_cons_iff.mpr ⟨_, hstep, hrun⟩, hend⟩
      simpa using hno
  | flushes cmd' =>
      have hstep : deliveryStep d (.call cmd now) =
          some { d with act := act, pc := .flushing cmd' } := by
        simp only [deliveryStep, hidle, if_true, hcall]
      obtain ⟨m, hflush, hsending, hact⟩ :=
        run_flush { d with act := act, pc := .flushing cmd' } cmd' rfl
      obtain ⟨labels, d', hno, hrun, hend⟩ := run_q m cmd' hsending
      rw [hact] at hend
      refine ⟨.call cmd now :: (List.replicate (act.cmdQueue.length + 1) .flush ++ labels), d', ?_,
        run_cons_iff.mpr ⟨_, hstep, run_append_iff.mpr ⟨m, hflush, hrun⟩⟩, hend⟩
      simpa [List.mem_replicate] using hno

end Esp32Deskflow.Tusb
