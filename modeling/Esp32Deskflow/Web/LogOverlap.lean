/-
  Web/LogOverlap.lean --- calls of the log stream that run alone, and calls that overlap.

  A task that nobody interrupts does to the ring what the call as a whole does, so every run of
  whole calls is a run of the tasks.  The tasks have more runs: two drains that read the same
  tail deliver the waiting bytes twice, and two stores that read the same head put two bytes
  into one cell.
-/
import Esp32Deskflow.Web.LogTurns

set_option autoImplicit false

namespace Esp32Deskflow.Web

open Esp32Deskflow.Foundation Esp32Deskflow.Foundation.Transition

/-! ## A task that goes on alone -/

/-- The task `i`, going on alone, takes `s` to `t`. -/
def Alone (i : Nat) (s t : LogTasks) : Prop :=
  ∃ results : List EspErr, run logTaskStep s (results.map (.access i)) = some t

variable {s t u : LogTasks} {i : Nat} {pc pc' : LogTaskPc}

theorem Alone.refl (i : Nat) (s : LogTasks) : Alone i s s := ⟨[], rfl⟩

theorem Alone.trans (h : Alone i s t) (h' : Alone i t u) : Alone i s u := by
  obtain ⟨results, hrun⟩ := h
  obtain ⟨results', hrun'⟩ := h'
  refine ⟨results ++ results', ?_⟩
  rw [List.map_append]
  exact run_append_iff.mpr ⟨t, hrun, hrun'⟩

theorem Alone.access (r : EspErr) (hpc : s.tasks[i]? = some pc)
    (haccess : logAccess s i r pc = some t) : Alone i s t := by
  refine ⟨[r], run_cons_iff.mpr ⟨t, ?_, rfl⟩⟩
  change (s.tasks[i]?).bind _ = _
  rw [hpc]
  exact haccess

@[simp] theorem setTask_setTask (s : LogTasks) (i : Nat) (pc pc' : LogTaskPc) :
    (s.setTask i pc).setTask i pc' = s.setTask i pc' := by
  unfold LogTasks.setTask
  rw [List.set_set]

theorem setTask_self (hpc : s.tasks[i]? = some pc) : s.setTask i pc = s := by
  obtain ⟨hlt, rfl⟩ := List.getElem?_eq_some_iff.mp hpc
  unfold LogTasks.setTask
  rw [List.set_getElem_self]

theorem LogTasks.InBounds.withTasks {ring : Bytes} {head tail : Nat} {tasks : List LogTaskPc}
    {delivered : List Bytes} {stored : Bytes} (hring : ring.length = logRingBufSize)
    (hhead : head < logRingBufSize) (htail : tail < logRingBufSize)
    (htasks : ∀ pc ∈ tasks, pc.Bounded) :
    LogTasks.InBounds ⟨ring, head, tail, tasks, delivered, stored⟩ :=
  ⟨hring, hhead, htail, fun _ pc hpc => htasks pc (List.mem_of_getElem? hpc)⟩

theorem LogTasks.InBounds.of_alone (h : s.InBounds) (halone : Alone i s t) : t.InBounds := by
  obtain ⟨results, hrun⟩ := halone
  exact run_invariant (fun _ _ _ => logTaskStep_inBounds) h hrun

/-! ## A drain -/

/-- Any number of bytes of a frame is copied. -/
theorem alone_copy (h : s.InBounds) {tail head n : Nat} {second : Bool}
    (hpc : s.tasks[i]? = some (.send tail head second [])) (hn : n ≤ frameLen tail head second) :
    Alone i s (s.setTask i
      (.send tail head second ((s.ring.drop (frameStart tail second)).take n))) := by
  induction n with
  | zero =>
      rw [List.take_zero, setTask_self hpc]
      exact .refl i s
  | succ n ih =>
      refine (ih (Nat.le_of_succ_le hn)).trans ?_
      have hcell := h.frame_lt (h.tasks i _ hpc) (Nat.lt_of_succ_le hn)
      have hlength : ((s.ring.drop (frameStart tail second)).take n).length = n := by
        rw [List.length_take, List.length_drop]
        omega
      refine Alone.access .ok (getElem?_setTask hpc) ?_
      simp only [logAccess]
      rw [if_pos (by rwa [hlength]), hlength]
      change Option.map _ s.ring[frameStart tail second + n]? = _
      rw [List.getElem?_eq_getElem hcell, Option.map_some, setTask_setTask, List.take_add_one,
        List.getElem?_drop, List.getElem?_eq_getElem hcell]
      rfl

/-- The payloads that a drain delivers, and whether it goes on to move the tail. -/
def frames (ring : Bytes) (tail head : Nat) (first second : EspErr) : List Bytes × Bool :=
  if tail ≤ head then
    if first = .ok then ([(ring.drop tail).take (head - tail)], true) else ([], false)
  else if first = .ok then
    if second = .ok then
      ([(ring.drop tail).take (logRingBufSize - tail), ring.take head], true)
    else ([(ring.drop tail).take (logRingBufSize - tail)], false)
  else ([], false)

/-- The state after these frames. -/
def LogTasks.sentFrames (s : LogTasks) (head : Nat) (sent : List Bytes × Bool) : LogTasks :=
  { s with
    delivered := s.delivered ++ sent.1
    tail := if sent.2 then head else s.tail }

theorem sentFrames_setTask (head : Nat) (sent : List Bytes × Bool) :
    (s.setTask i pc).sentFrames head sent = (s.sentFrames head sent).setTask i pc := rfl

theorem webLogDrain_eq_frames {s : LogStream} (hne : s.tail ≠ s.head) (first second : EspErr) :
    webLogDrain s first second =
      { s with
        delivered := s.delivered ++ (frames s.ring s.tail s.head first second).1
        tail := if (frames s.ring s.tail s.head first second).2 then s.head else s.tail } := by
  unfold webLogDrain frames LogStream.sendFrame
  rw [if_neg hne]
  by_cases hle : s.tail ≤ s.head <;> by_cases hfirst : first = .ok <;>
    by_cases hsecond : second = .ok <;> simp [hle, hfirst, hsecond]

/-- The payload of a frame. -/
def framePayload (ring : Bytes) (tail head : Nat) (second : Bool) : Bytes :=
  (ring.drop (frameStart tail second)).take (frameLen tail head second)

theorem length_framePayload (h : s.InBounds) {tail head : Nat} {second : Bool}
    (hbounds : tail < logRingBufSize ∧ head < logRingBufSize) :
    (framePayload s.ring tail head second).length = frameLen tail head second := by
  have hring := h.length_ring
  rw [framePayload, List.length_take, List.length_drop]
  rcases Nat.eq_zero_or_pos (frameLen tail head second) with hzero | hpos
  · omega
  · have hcell := h.frame_lt hbounds (Nat.sub_lt hpos Nat.one_pos)
    omega

theorem alone_delivered (h : s.InBounds) {tail head : Nat} {second : Bool}
    (hpc : s.tasks[i]? = some (.send tail head second [])) :
    Alone i s ({ s with delivered :=
        s.delivered ++ [framePayload s.ring tail head second] }.setTask i
      (if second = true ∨ tail ≤ head then .finish head else .send tail head true [])) := by
  refine (alone_copy h hpc (Nat.le_refl _)).trans (Alone.access .ok (getElem?_setTask hpc) ?_)
  change (if (framePayload s.ring tail head second).length < _ then _
    else if _ = EspErr.ok then _ else _) = _
  rw [if_neg (Nat.not_lt_of_le (Nat.le_of_eq (length_framePayload h (h.tasks i _ hpc)).symm)),
    if_pos rfl]
  exact congrArg some (setTask_setTask
    { s with delivered := s.delivered ++ [framePayload s.ring tail head second] } i
    (.send tail head second (framePayload s.ring tail head second)) _)

theorem alone_failed (h : s.InBounds) {tail head : Nat} {second : Bool} {r : EspErr}
    (hr : r ≠ .ok) (hpc : s.tasks[i]? = some (.send tail head second [])) :
    Alone i s (s.setTask i .idle) := by
  refine (alone_copy h hpc (Nat.le_refl _)).trans (Alone.access r (getElem?_setTask hpc) ?_)
  change (if (framePayload s.ring tail head second).length < _ then _
    else if _ = EspErr.ok then _ else _) = _
  rw [if_neg (Nat.not_lt_of_le (Nat.le_of_eq (length_framePayload h (h.tasks i _ hpc)).symm)),
    if_neg hr, setTask_setTask]

theorem alone_finish {head : Nat} (hpc : s.tasks[i]? = some (.finish head)) :
    Alone i s ({ s with tail := head }.setTask i .idle) := .access .ok hpc rfl

/-- A drain that has noted tail and head goes on to its end. -/
theorem alone_sends (h : s.InBounds) {tail head : Nat} (first second : EspErr)
    (hpc : s.tasks[i]? = some (.send tail head false [])) :
    Alone i s ((s.sentFrames head (frames s.ring tail head first second)).setTask i .idle) := by
  unfold frames
  by_cases hfirst : first = .ok
  · have hsent := alone_delivered h hpc
    by_cases hle : tail ≤ head
    · rw [if_pos (Or.inr hle)] at hsent
      have hfinish := hsent.trans (alone_finish (getElem?_setTask hpc))
      simpa [LogTasks.sentFrames, LogTasks.setTask, framePayload, frameStart, frameLen, hle,
        hfirst] using hfinish
    · -- the bytes go around the end
      have hmore : ¬ (false = true ∨ tail ≤ head) := by simpa using hle
      rw [if_neg hmore] at hsent
      have hbounds : LogTasks.InBounds { s with delivered :=
          s.delivered ++ [framePayload s.ring tail head false] } := { h with }
      have hpair : tail < logRingBufSize ∧ head < logRingBufSize := h.tasks i _ hpc
      have hmid := @LogTasks.InBounds.setTask _ hbounds i (.send tail head true []) hpair
      have hpc' := @getElem?_setTask s i _ (.send tail head true []) hpc
      by_cases hsecond : second = .ok
      · have hfinish := (hsent.trans (alone_delivered hmid hpc')).trans
          (alone_finish (getElem?_setTask hpc'))
        simpa [LogTasks.sentFrames, LogTasks.setTask, framePayload, frameStart, frameLen, hle,
          hfirst, hsecond] using hfinish
      · have hfailed := hsent.trans (alone_failed hmid hsecond hpc')
        simpa [LogTasks.sentFrames, LogTasks.setTask, framePayload, frameStart, frameLen, hle,
          hfirst, hsecond] using hfailed
  · have hfailed := alone_failed h hfirst hpc
    simpa [LogTasks.sentFrames, LogTasks.setTask, hfirst] using hfailed

/-! ## A call that nobody interrupts -/

/-- The ring and the connection, without the tasks. -/
def LogTasks.stream (s : LogTasks) : LogStream where
  ring := s.ring
  head := s.head
  tail := s.tail
  connected := true
  delivered := s.delivered
  stored := s.stored

/-- The state with another ring. -/
def LogTasks.withStream (s : LogTasks) (stream : LogStream) : LogTasks :=
  { s with
    ring := stream.ring
    head := stream.head
    tail := stream.tail
    delivered := stream.delivered
    stored := stream.stored }

theorem withStream_setTask (stream : LogStream) :
    (s.setTask i pc).withStream stream = (s.withStream stream).setTask i pc := rfl

theorem stream_withStream (s : LogTasks) {stream : LogStream} (hconn : stream.connected = true) :
    (s.withStream stream).stream = stream := by
  obtain ⟨ring, head, tail, connected, delivered, stored⟩ := stream
  obtain rfl : connected = true := hconn
  rfl

/-- A drain notes tail and head. -/
theorem alone_note (hpc : s.tasks[i]? = some .drain) :
    Alone i s (s.setTask i (if s.tail = s.head then .idle else .send s.tail s.head false [])) := by
  have htail : Alone i s (s.setTask i (.drainHead s.tail)) := .access .ok hpc rfl
  have hhead := htail.trans (.access .ok (getElem?_setTask hpc) rfl)
  rw [setTask_setTask] at hhead
  exact hhead

theorem alone_drain (h : s.InBounds) (first second : EspErr)
    (hpc : s.tasks[i]? = some .drain) :
    Alone i s ((s.withStream (webLogDrain s.stream first second)).setTask i .idle) := by
  have hnoted := alone_note hpc
  by_cases heq : s.tail = s.head
  · rw [if_pos heq] at hnoted
    have hsame : webLogDrain s.stream first second = s.stream := if_pos heq
    rw [hsame]
    exact hnoted
  · rw [if_neg heq] at hnoted
    have hdone := hnoted.trans
      (alone_sends (h.of_alone hnoted) first second (getElem?_setTask hpc))
    rw [sentFrames_setTask, setTask_setTask] at hdone
    rw [webLogDrain_eq_frames heq]
    exact hdone

/-- A push has found room for a byte, and noted the head. -/
theorem alone_found {byte : UInt8} {rest : Bytes}
    (hpc : s.tasks[i]? = some (.push (byte :: rest)))
    (hroom : (s.head + 1) % logRingBufSize ≠ s.tail) :
    Alone i s
      (s.setTask i (.store s.head ((s.head + 1) % logRingBufSize) byte rest)) := by
  have htest : Alone i s (s.setTask i (.test ((s.head + 1) % logRingBufSize) byte rest)) :=
    .access .ok hpc rfl
  have hlocate := htest.trans (.access .ok (getElem?_setTask hpc) rfl)
  rw [setTask_setTask] at hlocate
  change Alone i s (s.setTask i (if _ = s.tail then _ else _)) at hlocate
  rw [if_neg hroom] at hlocate
  have hfound := hlocate.trans (.access .ok (getElem?_setTask hpc) rfl)
  rw [setTask_setTask] at hfound
  exact hfound

/-- The byte is stored at the noted head, and the head moves to the noted next place. -/
theorem alone_put {head next : Nat} {byte : UInt8} {rest : Bytes}
    (hpc : s.tasks[i]? = some (.store head next byte rest)) (hcell : head < s.ring.length) :
    Alone i s ({ s with
      ring := s.ring.set head byte
      head := next
      stored := s.stored ++ [byte] }.setTask i (.push rest)) := by
  have hstored : Alone i s
      ({ s with ring := s.ring.set head byte }.setTask i (.advance next byte rest)) :=
    .access .ok hpc (if_pos hcell)
  have hdone := hstored.trans (.access .ok (getElem?_setTask hpc) rfl)
  simpa [LogTasks.setTask] using hdone

theorem alone_byte (h : s.InBounds) {byte : UInt8} {rest : Bytes}
    (hpc : s.tasks[i]? = some (.push (byte :: rest)))
    (hroom : (s.head + 1) % logRingBufSize ≠ s.tail) :
    Alone i s ((s.withStream (s.stream.storeByte byte)).setTask i (.push rest)) := by
  have hcell : s.head < s.ring.length := by
    rw [h.length_ring]
    exact h.head_lt
  have hdone := (alone_found hpc hroom).trans (alone_put (getElem?_setTask hpc) hcell)
  simpa [LogTasks.withStream, LogTasks.stream, LogStream.storeByte, LogTasks.setTask] using hdone

/-- The loop of `web_log_push`. -/
theorem alone_loop (h : s.InBounds) {data : Bytes} (hpc : s.tasks[i]? = some (.push data)) :
    Alone i s ((s.withStream (s.stream.storeBytes data)).setTask i .compare) := by
  induction data generalizing s with
  | nil => exact .access .ok hpc rfl
  | cons byte rest ih =>
      rw [LogStream.storeBytes]
      change Alone i s ((s.withStream (if (s.head + 1) % logRingBufSize = s.tail then _ else
        _)).setTask i .compare)
      split
      · next hfull =>
          have htest : Alone i s
              (s.setTask i (.test ((s.head + 1) % logRingBufSize) byte rest)) :=
            .access .ok hpc rfl
          have hbreak := htest.trans (.access .ok (getElem?_setTask hpc) rfl)
          rw [setTask_setTask] at hbreak
          change Alone i s (s.setTask i (if _ = s.tail then _ else _)) at hbreak
          rwa [if_pos hfull] at hbreak
      · next hroom =>
          have hbyte := alone_byte h hpc hroom
          have hrest := hbyte.trans (ih (h.of_alone hbyte) (getElem?_setTask hpc))
          rw [withStream_setTask, setTask_setTask] at hrest
          exact hrest

theorem usedOf_eq_used (h : s.InBounds) (hwrapped : Bool)
    (heq : hwrapped = decide (s.head < s.tail)) :
    usedOf hwrapped (if hwrapped then s.tail else s.head) (if hwrapped then s.head else s.tail) =
      s.stream.used := by
  have hhead := h.head_lt
  have htail := h.tail_lt
  subst heq
  unfold usedOf LogStream.used LogTasks.stream
  rcases Nat.lt_or_ge s.head s.tail with hlt | hge
  · simp [hlt, Nat.not_le_of_lt hlt]
  · have hsize : logRingBufSize = 2048 := rfl
    simp only [Nat.not_lt_of_le hge, decide_false, Bool.false_eq_true, if_false, if_pos hge]
    omega

/-- `used` is read while nobody else runs. -/
theorem alone_used (h : s.InBounds) (hpc : s.tasks[i]? = some .compare) :
    Alone i s (s.setTask i
      (if logRingBufSize * 3 / 5 < s.stream.used then .drain else .idle)) := by
  have hhead : Alone i s (s.setTask i (.compareTail s.head)) := .access .ok hpc rfl
  have htail := hhead.trans (.access .ok (getElem?_setTask hpc) rfl)
  rw [setTask_setTask] at htail
  have hfirst := htail.trans (.access .ok (getElem?_setTask hpc) rfl)
  rw [setTask_setTask] at hfirst
  have hsecond := hfirst.trans (.access .ok (getElem?_setTask hpc) rfl)
  rw [setTask_setTask] at hsecond
  rw [← usedOf_eq_used h _ rfl]
  exact hsecond

theorem alone_push (h : s.InBounds) {data : Bytes} (first second : EspErr)
    (hpc : s.tasks[i]? = some (.push data)) :
    Alone i s ((s.withStream (webLogPush s.stream data first second)).setTask i .idle) := by
  have hloop := alone_loop h hpc
  have hbounds := h.of_alone hloop
  have hused := hloop.trans (alone_used hbounds (getElem?_setTask hpc))
  have hstream : ((s.withStream (s.stream.storeBytes data)).setTask i .compare).stream =
      s.stream.storeBytes data := stream_withStream s (storeBytes_frame s.stream data).1
  rw [setTask_setTask, hstream] at hused
  have hpush : webLogPush s.stream data first second =
      if logRingBufSize * 3 / 5 < (s.stream.storeBytes data).used then
        webLogDrain (s.stream.storeBytes data) first second
      else s.stream.storeBytes data := rfl
  rw [hpush]
  split
  · next hmany =>
      rw [if_pos hmany] at hused
      have hdrain := hused.trans
        (alone_drain (h.of_alone hused) first second (getElem?_setTask hpc))
      have hstream' : ((s.withStream (s.stream.storeBytes data)).setTask i .drain).stream =
          s.stream.storeBytes data := hstream
      rw [hstream', withStream_setTask, setTask_setTask] at hdrain
      exact hdrain
  · next hfew => rwa [if_neg hfew] at hused

theorem webLogDrain_connected (stream : LogStream) (first second : EspErr) :
    (webLogDrain stream first second).connected = stream.connected := by
  by_cases heq : stream.tail = stream.head
  · rw [webLogDrain, if_pos heq]
  · rw [webLogDrain_eq_frames heq]

theorem webLogPush_connected (stream : LogStream) (data : Bytes) (first second : EspErr) :
    (webLogPush stream data first second).connected = stream.connected := by
  unfold webLogPush
  split
  · simp only []
    split
    · rw [webLogDrain_connected]
      exact (storeBytes_frame stream data).1
    · exact (storeBytes_frame stream data).1
  · rfl

/-- A call, as a step of an idle task. -/
def callLabel (i : Nat) : LogCall → LogTaskLabel
  | .push data _ _ => .push i data
  | .drain _ _ => .drain i

/-- A call that nobody interrupts. -/
theorem logCall_alone (h : s.InBounds) (hpc : s.tasks[i]? = some .idle) (c : LogCall) :
    ∃ (stream : LogStream) (results : List EspErr), logCall s.stream c = some stream ∧
      stream.connected = true ∧
      run logTaskStep s (callLabel i c :: results.map (.access i)) =
        some (s.withStream stream) := by
  have hidle : ∀ stream : LogStream, (s.withStream stream).setTask i .idle =
      s.withStream stream := fun stream => setTask_self (s := s.withStream stream) hpc
  cases c with
  | push data first second =>
      obtain ⟨results, hrun⟩ := alone_push (@LogTasks.InBounds.setTask s h i (.push data) trivial)
        first second (getElem?_setTask hpc)
      rw [withStream_setTask, setTask_setTask, hidle] at hrun
      refine ⟨_, results, rfl, ?_, run_cons_iff.mpr ⟨_, if_pos hpc, hrun⟩⟩
      exact webLogPush_connected s.stream data first second
  | drain first second =>
      obtain ⟨results, hrun⟩ := alone_drain (@LogTasks.InBounds.setTask s h i .drain trivial)
        first second (getElem?_setTask hpc)
      rw [withStream_setTask, setTask_setTask, hidle] at hrun
      refine ⟨_, results, rfl, ?_, run_cons_iff.mpr ⟨_, if_pos hpc, hrun⟩⟩
      exact webLogDrain_connected s.stream first second

/-- Every run of whole calls, each by any task, is a run of the tasks. -/
theorem log_calls_alone (h : s.InBounds) (calls : List (Nat × LogCall))
    (hidle : ∀ c ∈ calls, s.tasks[c.1]? = some .idle) :
    ∃ labels t, run logTaskStep s labels = some t ∧ t.tasks = s.tasks ∧
      run logCall s.stream (calls.map Prod.snd) = some t.stream := by
  induction calls generalizing s with
  | nil => exact ⟨[], s, rfl, rfl, rfl⟩
  | cons c calls ih =>
      obtain ⟨hc, hcalls⟩ := List.forall_mem_cons.mp hidle
      obtain ⟨stream, results, hcall, hconn, hrun⟩ := logCall_alone h hc c.2
      have hnext := run_invariant (fun _ _ _ => logTaskStep_inBounds) h hrun
      obtain ⟨labels, t, hrest, htasks, hstreams⟩ := ih hnext hcalls
      rw [stream_withStream s hconn] at hstreams
      exact ⟨_, t, run_append_iff.mpr ⟨_, hrun, hrest⟩, htasks,
        run_cons_iff.mpr ⟨stream, hcall, hstreams⟩⟩

/-- One task pushes a byte, and the other one drains it. -/
def pushThenDrain : List (Nat × LogCall) := [(0, .push [65] .ok .ok), (1, .drain .ok .ok)]

theorem log_calls_alone_pushThenDrain :
    ∃ labels t, run logTaskStep twoLogTasks labels = some t ∧ t.delivered = [[65]] := by
  obtain ⟨labels, t, hrun, _, hstream⟩ :=
    log_calls_alone twoLogTasks_fresh.inBounds pushThenDrain (by decide)
  have hdelivered : ∀ u ∈ run logCall twoLogTasks.stream (pushThenDrain.map Prod.snd),
      u.delivered = [[65]] := by decide +kernel
  exact ⟨labels, t, hrun, hdelivered t.stream hstream⟩

/-! ## Calls that overlap -/

theorem Alone.canReach {goal : LogTasks → Prop} (halone : Alone i s t)
    (h : CanReach logTaskStep goal t) : CanReach logTaskStep goal s := by
  obtain ⟨results, hrun⟩ := halone
  exact h.after_run hrun

theorem getElem?_setTask_both {j : Nat} {p q : LogTaskPc} (hij : i ≠ j)
    (hpc : s.tasks[i]? = some pc) : ((s.setTask i p).setTask j q).tasks[i]? = some p :=
  (getElem?_setTask_ne hij).trans (getElem?_setTask hpc)

theorem frames_ok (h : s.InBounds) :
    (frames s.ring s.tail s.head .ok .ok).2 = true ∧
      (frames s.ring s.tail s.head .ok .ok).1.flatten = s.pending := by
  unfold frames LogTasks.pending
  by_cases hle : s.tail ≤ s.head
  · simp [hle]
  · have hrest : (s.ring.drop s.tail).take (logRingBufSize - s.tail) = s.ring.drop s.tail := by
      refine List.take_of_length_le (Nat.le_of_eq ?_)
      rw [List.length_drop, h.length_ring]
    simp [hle, hrest]

/-- Two tasks that drain at the same time can deliver everything that is waiting twice. -/
theorem drains_twice (h : s.InBounds) {j : Nat} (hij : i ≠ j)
    (hi : s.tasks[i]? = some .drain) (hj : s.tasks[j]? = some .drain) (hne : s.tail ≠ s.head) :
    CanReach logTaskStep (fun t => t.stored = s.stored ∧ t.head = s.head ∧ t.tail = s.head ∧
      t.delivered.flatten = s.delivered.flatten ++ s.pending ++ s.pending) s := by
  obtain ⟨hdone, hpending⟩ := frames_ok h
  -- both note the same tail and head
  have hnote := alone_note hi
  rw [if_neg hne] at hnote
  have hj' : (s.setTask i (.send s.tail s.head false [])).tasks[j]? = some .drain :=
    (getElem?_setTask_ne hij.symm).trans hj
  have hnote' := alone_note hj'
  change Alone j _ (LogTasks.setTask _ j (if s.tail = s.head then _ else .send s.tail s.head _ _))
    at hnote'
  rw [if_neg hne] at hnote'
  have hbounds := (h.of_alone hnote).of_alone hnote'
  -- both send what is between them
  have hsends := alone_sends hbounds .ok .ok (getElem?_setTask_both hij hi)
  have hsends' := alone_sends (hbounds.of_alone hsends) .ok .ok
    ((getElem?_setTask_ne hij.symm).trans (getElem?_setTask hj'))
  refine hnote.canReach (hnote'.canReach (hsends.canReach (hsends'.canReach (.here ?_))))
  refine ⟨rfl, rfl, if_pos hdone, ?_⟩
  change ((s.delivered ++ (frames s.ring s.tail s.head .ok .ok).1) ++
    (frames s.ring s.tail s.head .ok .ok).1).flatten = _
  rw [List.flatten_append, List.flatten_append, hpending]

/-- Two tasks are about to drain one byte. -/
def twoDrains : LogTasks :=
  { twoLogTasks with head := 1, tasks := [.drain, .drain], stored := [0] }

theorem twoDrains_inBounds : twoDrains.InBounds :=
  LogTasks.InBounds.withTasks List.length_replicate (by decide) logRingBufSize_pos
    (by simp [LogTaskPc.Bounded])

theorem drains_twice_twoDrains :
    CanReach logTaskStep (fun t => t.stored = [0] ∧ t.delivered.flatten = [0, 0]) twoDrains := by
  obtain ⟨labels, t, hrun, hstored, _, _, hdelivered⟩ :=
    drains_twice twoDrains_inBounds Nat.zero_ne_one rfl rfl Nat.zero_ne_one
  exact ⟨labels, t, hrun, hstored, hdelivered⟩

theorem LogTasks.InBounds.shows (h : s.InBounds) : ∃ r, s.stream.Shows r :=
  ⟨{ cells := s.ring
     head := s.head
     tail := s.tail
     length_cells := h.length_ring
     head_lt := h.head_lt
     tail_lt := h.tail_lt }, rfl, rfl, rfl⟩

/-- Two tasks that push at the same time can put their bytes into one cell: the head goes over
it once, and the byte of the first one is lost. -/
theorem stores_overwrite (h : s.InBounds) {j : Nat} (hij : i ≠ j) {byte byte' : UInt8}
    {rest rest' : Bytes} (hi : s.tasks[i]? = some (.push (byte :: rest)))
    (hj : s.tasks[j]? = some (.push (byte' :: rest')))
    (hroom : (s.head + 1) % logRingBufSize ≠ s.tail) :
    CanReach logTaskStep (fun t => t.tasks[i]? = some (.push rest) ∧
      t.tasks[j]? = some (.push rest') ∧ t.delivered = s.delivered ∧
      t.stored = s.stored ++ [byte, byte'] ∧ t.pending = s.pending ++ [byte']) s := by
  have hcell : s.head < s.ring.length := by
    rw [h.length_ring]
    exact h.head_lt
  -- both note the same head
  have hfound := alone_found hi hroom
  have hj' : (s.setTask i (.store s.head ((s.head + 1) % logRingBufSize) byte rest)).tasks[j]? =
      some (.push (byte' :: rest')) := (getElem?_setTask_ne hij.symm).trans hj
  have hfound' := alone_found hj' hroom
  refine hfound.canReach (hfound'.canReach ?_)
  -- both store there
  refine Alone.canReach (alone_put (getElem?_setTask_both hij hi) hcell) ?_
  have hcell' : s.head < (s.ring.set s.head byte).length := by rwa [List.length_set]
  refine Alone.canReach (alone_put ((getElem?_setTask_ne hij.symm).trans (getElem?_setTask hj'))
    hcell') (.here ⟨?_, ?_, rfl, ?_, ?_⟩)
  · exact getElem?_setTask_both hij (getElem?_setTask_both hij hi)
  · exact getElem?_setTask ((getElem?_setTask_ne hij.symm).trans (getElem?_setTask hj'))
  · exact List.append_assoc _ _ _
  · obtain ⟨r, hr⟩ := h.shows
    have hstored := (hr.storeByte byte').pending_eq
    rw [Ring.contents_put (mt hr.full_iff.mpr hroom), ← hr.pending_eq] at hstored
    unfold LogStream.storeByte LogStream.pending LogTasks.stream at hstored
    rw [← List.set_set] at hstored
    exact hstored

/-- Two tasks are about to push one byte each. -/
def twoPushes : LogTasks := { twoLogTasks with tasks := [.push [65], .push [66]] }

theorem twoPushes_inBounds : twoPushes.InBounds :=
  LogTasks.InBounds.withTasks List.length_replicate logRingBufSize_pos logRingBufSize_pos
    (by simp [LogTaskPc.Bounded])

theorem stores_overwrite_twoPushes :
    CanReach logTaskStep (fun t => t.stored = [65, 66] ∧ t.pending = [66]) twoPushes := by
  obtain ⟨labels, t, hrun, _, _, _, hstored, hpending⟩ :=
    stores_overwrite twoPushes_inBounds Nat.zero_ne_one rfl rfl (by decide)
  exact ⟨labels, t, hrun, hstored, hpending⟩

end Esp32Deskflow.Web
