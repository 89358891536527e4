/-
  Web/LogTasks.lean --- `web_log_push` and `web_log_drain` of `web_server.c` in several tasks.

  Every task that logs pushes, and drains when the ring is more than 60 % full; the main task
  drains every 100 ms.  Nothing keeps them apart: a step here is one access to the ring, to
  its head or to its tail, and the steps of different tasks come in any order.
-/
import Mathlib.Data.List.Flatten
import Esp32Deskflow.Foundation.RingWindow
import Esp32Deskflow.Web.LogRing

set_option autoImplicit false

namespace Esp32Deskflow.Web

open Esp32Deskflow.Foundation Esp32Deskflow.Foundation.Transition

/-! ## State -/

/-- Where a task is between two accesses, with its local variables. -/
inductive LogTaskPc where
  | idle
  /-- `web_log_push`, at the top of the loop with the bytes that are left -/
  | push (rest : Bytes)
  /-- before `next == s_log_ring_tail` -/
  | test (next : Nat) (byte : UInt8) (rest : Bytes)
  /-- before the head is read for the store, before the store, and before the new head -/
  | locate (next : Nat) (byte : UInt8) (rest : Bytes)
  | store (head next : Nat) (byte : UInt8) (rest : Bytes)
  | advance (next : Nat) (byte : UInt8) (rest : Bytes)
  /-- `s_log_ring_head >= s_log_ring_tail`, before the head and before the tail is read -/
  | compare
  | compareTail (head : Nat)
  /-- `used`, before the first and before the second of its two is read -/
  | measure (wrapped : Bool)
  | measureRest (wrapped : Bool) (x : Nat)
  /-- `web_log_drain`, before the tail and before the head is read -/
  | drain
  | drainHead (tail : Nat)
  /-- `httpd_ws_send_frame_async` on the first or the second frame, which has copied `payload` -/
  | send (tail head : Nat) (second : Bool) (payload : Bytes)
  /-- before `s_log_ring_tail = head` -/
  | finish (head : Nat)
  deriving DecidableEq, Repr

/-- The ring with its head and tail and the tasks, and the history of the connection. -/
structure LogTasks where
  ring : Bytes
  head : Nat
  tail : Nat
  tasks : List LogTaskPc
  /-- the payloads delivered on the connection -/
  delivered : List Bytes
  /-- the bytes that the head has gone over -/
  stored : Bytes
  deriving DecidableEq, Repr

/-- A task goes on at another place. -/
def LogTasks.setTask (s : LogTasks) (i : Nat) (pc : LogTaskPc) : LogTasks :=
  { s with tasks := s.tasks.set i pc }

/-! ## Steps -/

/-- The first cell of a frame. -/
def frameStart (tail : Nat) (second : Bool) : Nat := if second then 0 else tail

/-- `ws_pkt.len`. -/
def frameLen (tail head : Nat) (second : Bool) : Nat :=
  if second then head else if tail ≤ head then head - tail else logRingBufSize - tail

/-- `used` in `web_log_push`, from the value read first and the one read second.  In a ring that
has not gone around, the tail may have passed the head that was read. -/
def usedOf (wrapped : Bool) (x y : Nat) : Nat :=
  if wrapped then logRingBufSize - x + y else (x + 4294967296 - y) % 4294967296

/-- The next access of the task `i`, which is at `pc`.  `r` is the result of the frame, if the
access is the last one of a frame. -/
def logAccess (s : LogTasks) (i : Nat) (r : EspErr) : LogTaskPc → Option LogTasks
  | .idle => none
  | .push [] => some (s.setTask i .compare)
  | .push (byte :: rest) => some (s.setTask i (.test ((s.head + 1) % logRingBufSize) byte rest))
  | .test next byte rest =>
      some (s.setTask i (if next = s.tail then .compare else .locate next byte rest))
  | .locate next byte rest => some (s.setTask i (.store s.head next byte rest))
  | .store head next byte rest =>
      if head < s.ring.length then
        some ({ s with ring := s.ring.set head byte }.setTask i (.advance next byte rest))
      else none
  | .advance next byte rest =>
      some ({ s with head := next, stored := s.stored ++ [byte] }.setTask i (.push rest))
  | .compare => some (s.setTask i (.compareTail s.head))
  | .compareTail head => some (s.setTask i (.measure (decide (head < s.tail))))
  | .measure wrapped =>
      some (s.setTask i (.measureRest wrapped (if wrapped then s.tail else s.head)))
  | .measureRest wrapped x =>
      let used := usedOf wrapped x (if wrapped then s.head else s.tail)
      some (s.setTask i (if logRingBufSize * 3 / 5 < used then .drain else .idle))
  | .drain => some (s.setTask i (.drainHead s.tail))
  | .drainHead tail =>
      some (s.setTask i (if tail = s.head then .idle else .send tail s.head false []))
  | .send tail head second payload =>
      if payload.length < frameLen tail head second then
        (s.ring[frameStart tail second + payload.length]?).map fun byte =>
          s.setTask i (.send tail head second (payload ++ [byte]))
      else if r = .ok then
        some ({ s with delivered := s.delivered ++ [payload] }.setTask i
          (if second = true ∨ tail ≤ head then .finish head else .send tail head true []))
      else some (s.setTask i .idle)
  | .finish head => some ({ s with tail := head }.setTask i .idle)

/-- A task calls `web_log_push` or `web_log_drain`, or makes its next access. -/
inductive LogTaskLabel where
  | push (i : Nat) (data : Bytes)
  | drain (i : Nat)
  | access (i : Nat) (r : EspErr)
  deriving DecidableEq, Repr

/-- One step of a task. -/
def logTaskStep (s : LogTasks) : LogTaskLabel → Option LogTasks
  | .push i data => if s.tasks[i]? = some .idle then some (s.setTask i (.push data)) else none
  | .drain i => if s.tasks[i]? = some .idle then some (s.setTask i .drain) else none
  | .access i r => (s.tasks[i]?).bind (logAccess s i r)

/-- A new connection, with the stale bytes discarded: no task is in the two functions. -/
structure LogTasks.Fresh (s : LogTasks) : Prop where
  length_ring : s.ring.length = logRingBufSize
  head_lt : s.head < logRingBufSize
  tail_eq : s.tail = s.head
  idle : ∀ pc ∈ s.tasks, pc = .idle
  delivered_eq : s.delivered = []
  stored_eq : s.stored = []

/-! ## What one step does -/

variable {s t : LogTasks} {l : LogTaskLabel}

/-- A step moves one task, and is a call of an idle task or an access. -/
theorem logTaskStep_cases (hstep : logTaskStep s l = some t) :
    (∃ i, s.tasks[i]? = some .idle ∧
      ((∃ data, l = .push i data ∧ t = s.setTask i (.push data)) ∨
        (l = .drain i ∧ t = s.setTask i .drain))) ∨
    ∃ i r pc, l = .access i r ∧ s.tasks[i]? = some pc ∧ logAccess s i r pc = some t := by
  cases l with
  | push i data =>
      unfold logTaskStep at hstep
      simp only [Option.ite_none_right_eq_some, Option.some.injEq] at hstep
      exact Or.inl ⟨i, hstep.1, Or.inl ⟨data, rfl, hstep.2.symm⟩⟩
  | drain i =>
      unfold logTaskStep at hstep
      simp only [Option.ite_none_right_eq_some, Option.some.injEq] at hstep
      exact Or.inl ⟨i, hstep.1, Or.inr ⟨rfl, hstep.2.symm⟩⟩
  | access i r =>
      obtain ⟨pc, hpc, haccess⟩ := Option.bind_eq_some_iff.mp hstep
      exact Or.inr ⟨i, r, pc, rfl, hpc, haccess⟩

theorem setTask_cases {i j : Nat} {pc pc' : LogTaskPc}
    (hj : (s.setTask i pc').tasks[j]? = some pc) :
    j = i ∧ pc = pc' ∨ j ≠ i ∧ s.tasks[j]? = some pc := by
  unfold LogTasks.setTask at hj
  by_cases hij : i = j
  · subst hij
    obtain ⟨hlt, hget⟩ := List.getElem?_eq_some_iff.mp hj
    rw [List.getElem_set_self] at hget
    exact Or.inl ⟨rfl, hget.symm⟩
  · rw [List.getElem?_set_ne hij] at hj
    exact Or.inr ⟨Ne.symm hij, hj⟩

/-! ## No task leaves the ring -/

/-- The places a task has noted are in the ring. -/
def LogTaskPc.Bounded : LogTaskPc → Prop
  | .test next _ _ | .locate next _ _ | .advance next _ _ => next < logRingBufSize
  | .store head next _ _ => head < logRingBufSize ∧ next < logRingBufSize
  | .drainHead tail => tail < logRingBufSize
  | .send tail head _ _ => tail < logRingBufSize ∧ head < logRingBufSize
  | .finish head => head < logRingBufSize
  | _ => True

theorem LogTaskPc.Bounded.ite {c : Prop} [Decidable c] {pc pc' : LogTaskPc} (h : pc.Bounded)
    (h' : pc'.Bounded) : (if c then pc else pc').Bounded := by
  split
  · exact h
  · exact h'

/-- The indices, and those that the tasks have read, are inside of the ring. -/
structure LogTasks.InBounds (s : LogTasks) : Prop where
  length_ring : s.ring.length = logRingBufSize
  head_lt : s.head < logRingBufSize
  tail_lt : s.tail < logRingBufSize
  tasks : ∀ (i : Nat) (pc : LogTaskPc), s.tasks[i]? = some pc → pc.Bounded

namespace LogTasks.InBounds

theorem setTask (h : s.InBounds) {i : Nat} {pc : LogTaskPc} (hpc : pc.Bounded) :
    (s.setTask i pc).InBounds where
  length_ring := h.length_ring
  head_lt := h.head_lt
  tail_lt := h.tail_lt
  tasks := by
    intro j pc' hj
    rcases setTask_cases hj with ⟨_, rfl⟩ | ⟨_, hj⟩
    · exact hpc
    · exact h.tasks j pc' hj

theorem frame_lt (h : s.InBounds) {tail head n : Nat} {second : Bool}
    (hbounds : tail < logRingBufSize ∧ head < logRingBufSize)
    (hn : n < frameLen tail head second) : frameStart tail second + n < s.ring.length := by
  rw [h.length_ring]
  unfold frameLen at hn
  unfold frameStart
  cases second with
  | true =>
      simp only [if_true] at hn ⊢
      omega
  | false =>
      simp only [Bool.false_eq_true, if_false] at hn ⊢
      split at hn <;> omega

end LogTasks.InBounds

theorem logRingBufSize_pos : 0 < logRingBufSize := by decide

/-- In a ring with good bounds every task that is in one of the functions can go on. -/
theorem logAccess_inBounds (h : s.InBounds) {i : Nat} {pc : LogTaskPc} (hpc : pc.Bounded)
    (hbusy : pc ≠ .idle) (r : EspErr) : ∃ t, logAccess s i r pc = some t ∧ t.InBounds := by
  have hnext : (s.head + 1) % logRingBufSize < logRingBufSize := Nat.mod_lt _ logRingBufSize_pos
  cases pc with
  | idle => exact absurd rfl hbusy
  | push rest =>
      cases rest with
      | nil => exact ⟨_, rfl, h.setTask trivial⟩
      | cons byte rest => exact ⟨_, rfl, h.setTask hnext⟩
  | test next byte rest => exact ⟨_, rfl, h.setTask (.ite trivial hpc)⟩
  | locate next byte rest => exact ⟨_, rfl, h.setTask ⟨h.head_lt, hpc⟩⟩
  | store head next byte rest =>
      have hlt : head < s.ring.length := by
        rw [h.length_ring]
        exact hpc.1
      have hring : LogTasks.InBounds { s with ring := s.ring.set head byte } :=
        { h with length_ring := List.length_set.trans h.length_ring }
      exact ⟨_, if_pos hlt, hring.setTask hpc.2⟩
  | advance next byte rest =>
      have hhead : LogTasks.InBounds { s with head := next, stored := s.stored ++ [byte] } :=
        { h with head_lt := hpc }
      exact ⟨_, rfl, hhead.setTask trivial⟩
  | compare => exact ⟨_, rfl, h.setTask trivial⟩
  | compareTail head => exact ⟨_, rfl, h.setTask trivial⟩
  | measure wrapped => exact ⟨_, rfl, h.setTask trivial⟩
  | measureRest wrapped x => exact ⟨_, rfl, h.setTask (.ite trivial trivial)⟩
  | drain => exact ⟨_, rfl, h.setTask h.tail_lt⟩
  | drainHead tail => exact ⟨_, rfl, h.setTask (.ite trivial ⟨hpc, h.head_lt⟩)⟩
  | send tail head second payload =>
      simp only [logAccess]
      split
      · next hmore =>
          rw [List.getElem?_eq_getElem (h.frame_lt hpc hmore)]
          exact ⟨_, rfl, h.setTask hpc⟩
      · split
        · have hsent : LogTasks.InBounds { s with delivered := s.delivered ++ [payload] } :=
            { h with }
          exact ⟨_, rfl, hsent.setTask (.ite hpc.2 hpc)⟩
        · exact ⟨_, rfl, h.setTask trivial⟩
  | finish head =>
      have htail : LogTasks.InBounds { s with tail := head } := { h with tail_lt := hpc }
      exact ⟨_, rfl, htail.setTask trivial⟩

theorem logTaskStep_inBounds (h : s.InBounds) (hstep : logTaskStep s l = some t) :
    t.InBounds := by
  rcases logTaskStep_cases hstep with
    ⟨i, _, ⟨data, _, rfl⟩ | ⟨_, rfl⟩⟩ | ⟨i, r, pc, _, hpc, haccess⟩
  · exact h.setTask trivial
  · exact h.setTask trivial
  · have hbusy : pc ≠ .idle := by
      rintro rfl
      cases haccess
    obtain ⟨t', ht', hinv⟩ := logAccess_inBounds h (h.tasks i pc hpc) hbusy r
    obtain rfl : t' = t := Option.some.inj (ht'.symm.trans haccess)
    exact hinv

theorem LogTasks.Fresh.inBounds (h : s.Fresh) : s.InBounds where
  length_ring := h.length_ring
  head_lt := h.head_lt
  tail_lt := by
    rw [h.tail_eq]
    exact h.head_lt
  tasks := by
    intro i pc hpc
    rw [h.idle pc (List.mem_of_getElem? hpc)]
    trivial

/-- However the tasks take turns, the head and the tail stay in the ring, and every access of
every task is inside it. -/
theorem log_tasks_inBounds (hfresh : s.Fresh) {labels : List LogTaskLabel}
    (hrun : run logTaskStep s labels = some t) :
    t.head < logRingBufSize ∧ t.tail < logRingBufSize ∧
      ∀ i pc, t.tasks[i]? = some pc → pc ≠ .idle →
        ∀ r, ∃ u, logTaskStep t (.access i r) = some u := by
  have h : t.InBounds := run_invariant (fun _ _ _ => logTaskStep_inBounds) hfresh.inBounds hrun
  refine ⟨h.head_lt, h.tail_lt, fun i pc hpc hbusy r => ?_⟩
  obtain ⟨u, hu, _⟩ := logAccess_inBounds h (h.tasks i pc hpc) hbusy r
  refine ⟨u, ?_⟩
  change (t.tasks[i]?).bind _ = _
  rw [hpc]
  exact hu

/-- Two tasks, before the first byte. -/
def twoLogTasks : LogTasks where
  ring := List.replicate logRingBufSize 0
  head := 0
  tail := 0
  tasks := [.idle, .idle]
  delivered := []
  stored := []

theorem twoLogTasks_fresh : twoLogTasks.Fresh where
  length_ring := List.length_replicate
  head_lt := logRingBufSize_pos
  tail_eq := rfl
  idle := by decide
  delivered_eq := rfl
  stored_eq := rfl

/-- A task starts to drain while the other one stores a byte. -/
def drainBesideStore : List LogTaskLabel :=
  [.push 0 [65], .access 0 .ok, .access 0 .ok, .drain 1, .access 0 .ok, .access 1 .ok,
    .access 0 .ok, .access 0 .ok, .access 1 .ok, .access 1 .ok, .access 1 .ok, .access 1 .ok]

theorem log_tasks_inBounds_drainBesideStore :
    ∃ t, run logTaskStep twoLogTasks drainBesideStore = some t ∧ t.head < logRingBufSize := by
  have hrun : (run logTaskStep twoLogTasks drainBesideStore).isSome = true := by decide +kernel
  obtain ⟨t, ht⟩ := Option.isSome_iff_exists.mp hrun
  exact ⟨t, ht, (log_tasks_inBounds twoLogTasks_fresh ht).1⟩

end Esp32Deskflow.Web
