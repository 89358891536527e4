/-
  Web/LogRing.lean --- the log stream of `web_server.c`: `web_log_push` and
  `web_log_drain` on the ring of log bytes.

  A drain sends the bytes in one frame, or in two when they go around the end of the
  ring.  The tail moves only after the last frame was sent, so the stream is exact in
  the runs where no drain sends its first frame and then fails to send its second one.
-/
import Esp32Deskflow.Foundation.Bytes
import Esp32Deskflow.Foundation.EspErr
import Esp32Deskflow.Foundation.Ring
import Esp32Deskflow.Foundation.Transition

set_option autoImplicit false

namespace Esp32Deskflow.Web

open Esp32Deskflow.Foundation Esp32Deskflow.Foundation.Transition

/-! ## The ring and the connection -/

/-- `LOG_RING_BUF_SIZE`. -/
def logRingBufSize : Nat := 2 * 1024

/-- `s_log_ring` with its head and tail, `g_log_ws_ctx.connected`, and the history of the
connection. -/
structure LogStream where
  ring : Bytes
  head : Nat
  tail : Nat
  connected : Bool
  /-- the payloads delivered on the connection -/
  delivered : List Bytes
  /-- the bytes the pushes of the connection put into the ring -/
  stored : Bytes
  deriving DecidableEq, Repr

/-- The static variables at boot. -/
def logBoot : LogStream where
  ring := List.replicate logRingBufSize 0
  head := 0
  tail := 0
  connected := false
  delivered := []
  stored := []

/-- `log_ws_handler` for a new client: stale bytes are discarded.  The test line that the
handler then pushes is the first push of the connection. -/
def logWsNewClient (s : LogStream) : LogStream :=
  { s with connected := true, tail := s.head, delivered := [], stored := [] }

/-- `log_ws_handler` when the connection is gone. -/
def logWsClosed (s : LogStream) : LogStream := { s with connected := false }

/-- `httpd_ws_send_frame_async` with the result `r`. -/
def LogStream.sendFrame (s : LogStream) (r : EspErr) (payload : Bytes) : LogStream :=
  if r = .ok then { s with delivered := s.delivered ++ [payload] } else s

/-- `web_log_drain`, with the results of its first and its second frame. -/
def webLogDrain (s : LogStream) (first second : EspErr) : LogStream :=
  if s.tail = s.head then s
  else if s.tail ≤ s.head then
    let s' := s.sendFrame first ((s.ring.drop s.tail).take (s.head - s.tail))
    if first = .ok then { s' with tail := s.head } else s'
  else
    let s' := s.sendFrame first ((s.ring.drop s.tail).take (logRingBufSize - s.tail))
    if first = .ok then
      let s'' := s'.sendFrame second (s.ring.take s.head)
      if second = .ok then { s'' with tail := s.head } else s''
    else s'

/-- One byte is written at the head. -/
def LogStream.storeByte (s : LogStream) (byte : UInt8) : LogStream :=
  { s with
    ring := s.ring.set s.head byte
    head := (s.head + 1) % logRingBufSize
    stored := s.stored ++ [byte] }

/-- The `for` loop of `web_log_push`. -/
def LogStream.storeBytes (s : LogStream) : Bytes → LogStream
  | [] => s
  | byte :: rest =>
      if (s.head + 1) % logRingBufSize = s.tail then s else (s.storeByte byte).storeBytes rest

/-- `used` in `web_log_push`. -/
def LogStream.used (s : LogStream) : Nat :=
  if s.tail ≤ s.head then s.head - s.tail else logRingBufSize - s.tail + s.head

/-- `web_log_push`, with the results of the frames of its drain. -/
def webLogPush (s : LogStream) (data : Bytes) (first second : EspErr) : LogStream :=
  if s.connected then
    let s' := s.storeBytes data
    if logRingBufSize * 3 / 5 < s'.used then webLogDrain s' first second else s'
  else s

/-- A call on a connection, with the results of the frames it may send. -/
inductive LogCall where
  | push (data : Bytes) (first second : EspErr)
  | drain (first second : EspErr)
  deriving DecidableEq, Repr

/-- The stream after a call. -/
def logCall (s : LogStream) : LogCall → Option LogStream
  | .push data first second => some (webLogPush s data first second)
  | .drain first second => some (webLogDrain s first second)

/-- What can happen to the log stream. -/
inductive LogEvent where
  | call (c : LogCall)
  | newClient
  | closed
  deriving DecidableEq, Repr

/-- The stream after an event. -/
def logStep (s : LogStream) : LogEvent → Option LogStream
  | .call c => logCall s c
  | .newClient => some (logWsNewClient s)
  | .closed => some (logWsClosed s)

/-- The bytes between tail and head. -/
def LogStream.pending (s : LogStream) : Bytes :=
  if s.tail ≤ s.head then (s.ring.drop s.tail).take (s.head - s.tail)
  else s.ring.drop s.tail ++ s.ring.take s.head

/-- What was delivered, and behind it what is waiting. -/
def LogStream.streamed (s : LogStream) : Bytes := s.delivered.flatten ++ s.pending

/-- What was delivered and what is waiting are together what was stored. -/
def LogStream.Exact (s : LogStream) : Prop := s.streamed = s.stored

instance (s : LogStream) : Decidable s.Exact := inferInstanceAs (Decidable (_ = _))

/-- A drain that sends the bytes up to the end of the ring, but not the others. -/
def TornDrain (s : LogStream) (first second : EspErr) : Prop :=
  s.head < s.tail ∧ first = .ok ∧ second ≠ .ok

/-- A call that makes such a drain. -/
def Torn (s : LogStream) : LogCall → Prop
  | .push data first second =>
      s.connected = true ∧ logRingBufSize * 3 / 5 < (s.storeBytes data).used ∧
        TornDrain (s.storeBytes data) first second
  | .drain first second => TornDrain s first second

/-- The bytes a call hands over. -/
def LogCall.data : LogCall → Bytes
  | .push data _ _ => data
  | .drain _ _ => []

/-- Head and tail are places in the ring, and one cell of it is empty. -/
def LogStream.InRange (s : LogStream) : Prop :=
  s.head < logRingBufSize ∧ s.tail < logRingBufSize ∧ s.pending.length < logRingBufSize

/-- The indices are in range, and a call stores the longest prefix of its bytes that fits. -/
def StoresPrefix (s : LogStream) (c : LogCall) : Prop :=
  s.InRange ∧ ∀ t, logCall s c = some t →
    t.stored = s.stored ++ c.data.take (logRingBufSize - 1 - s.pending.length)

/-! ## The stream keeps a ring -/

/-- The stream's ring is the ring `r`. -/
def LogStream.Shows (s : LogStream) (r : Ring UInt8 logRingBufSize) : Prop :=
  s.ring = r.cells ∧ s.head = r.head ∧ s.tail = r.tail

variable {s : LogStream} {r : Ring UInt8 logRingBufSize}

theorem LogStream.Shows.pending_eq (h : s.Shows r) : s.pending = r.contents := by
  obtain ⟨hring, hhead, htail⟩ := h
  unfold LogStream.pending Ring.contents Ring.front Ring.back
  rw [hring, hhead, htail]
  split
  · rw [List.append_nil]
  · rfl

theorem LogStream.Shows.inRange (h : s.Shows r) : s.InRange := by
  refine ⟨?_, ?_, ?_⟩
  · rw [h.2.1]
    exact r.head_lt
  · rw [h.2.2]
    exact r.tail_lt
  · rw [h.pending_eq]
    exact r.length_contents_lt

theorem LogStream.Shows.used_eq (h : s.Shows r) : s.used = s.pending.length := by
  rw [h.pending_eq, Ring.length_contents]
  unfold LogStream.used
  rw [h.2.1, h.2.2]

theorem logBoot_shows : ∃ r, logBoot.Shows r :=
  ⟨{ cells := List.replicate logRingBufSize 0
     head := 0
     tail := 0
     length_cells := List.length_replicate
     head_lt := by unfold logRingBufSize; omega
     tail_lt := by unfold logRingBufSize; omega }, rfl, rfl, rfl⟩

theorem LogStream.Shows.newClient (h : s.Shows r) : (logWsNewClient s).Shows r.clear :=
  ⟨h.1, h.2.1, h.2.1⟩

/-! ## Storing -/

theorem LogStream.Shows.full_iff (h : s.Shows r) :
    (s.head + 1) % logRingBufSize = s.tail ↔ r.Full := by
  rw [h.2.1, h.2.2]
  rfl

theorem LogStream.Shows.storeByte (h : s.Shows r) (byte : UInt8) :
    (s.storeByte byte).Shows (r.put byte) := by
  refine ⟨?_, ?_, h.2.2⟩
  · unfold LogStream.storeByte
    rw [h.1, h.2.1]
    rfl
  · unfold LogStream.storeByte
    rw [h.2.1]
    rfl

theorem LogStream.Shows.storeBytes (h : s.Shows r) (data : Bytes) :
    (s.storeBytes data).Shows (r.fill data) := by
  induction data generalizing s r with
  | nil => exact h
  | cons byte rest ih =>
      unfold LogStream.storeBytes Ring.fill
      simp only [h.full_iff]
      split
      · exact h
      · exact ih (h.storeByte byte)

theorem storeBytes_frame (s : LogStream) (data : Bytes) :
    (s.storeBytes data).connected = s.connected ∧
      (s.storeBytes data).delivered = s.delivered := by
  induction data generalizing s with
  | nil => exact ⟨rfl, rfl⟩
  | cons byte rest ih =>
      unfold LogStream.storeBytes
      split
      · exact ⟨rfl, rfl⟩
      · exact ih (s.storeByte byte)

/-- What the loop puts into the ring is what it records as stored. -/
theorem storeBytes_stored (h : s.Shows r) (data : Bytes) :
    ∃ new, (s.storeBytes data).stored = s.stored ++ new ∧
      (s.storeBytes data).pending = s.pending ++ new := by
  induction data generalizing s r with
  | nil => exact ⟨[], (List.append_nil _).symm, (List.append_nil _).symm⟩
  | cons byte rest ih =>
      unfold LogStream.storeBytes
      split
      · exact ⟨[], (List.append_nil _).symm, (List.append_nil _).symm⟩
      · next hroom =>
          obtain ⟨new, hstored, hpending⟩ := ih (h.storeByte byte)
          refine ⟨byte :: new, ?_, ?_⟩
          · rw [hstored, LogStream.storeByte, List.append_assoc, List.singleton_append]
          · rw [hpending, (h.storeByte byte).pending_eq,
              Ring.contents_put (mt h.full_iff.mpr hroom), h.pending_eq, List.append_assoc,
              List.singleton_append]

/-- A push stores the longest prefix that fits, behind what is waiting. -/
theorem storeBytes_longest (h : s.Shows r) (data : Bytes) :
    (s.storeBytes data).stored =
        s.stored ++ data.take (logRingBufSize - 1 - s.pending.length) ∧
      (s.storeBytes data).pending =
        s.pending ++ data.take (logRingBufSize - 1 - s.pending.length) := by
  obtain ⟨new, hstored, hpending⟩ := storeBytes_stored h data
  have hfill := r.contents_fill data
  rw [← (h.storeBytes data).pending_eq, ← h.pending_eq] at hfill
  refine ⟨?_, hfill⟩
  rw [hpending] at hfill
  rw [hstored, List.append_cancel_left hfill]

/-! ## Draining -/

theorem webLogDrain_of_not_ok {first : EspErr} (hfirst : first ≠ .ok) (second : EspErr) :
    webLogDrain s first second = s := by
  unfold webLogDrain LogStream.sendFrame
  simp only [if_neg hfirst]
  split
  · rfl
  · split <;> rfl

theorem webLogDrain_flat (hle : s.tail ≤ s.head) (second : EspErr) :
    ∃ payloads, webLogDrain s .ok second =
        { s with tail := s.head, delivered := s.delivered ++ payloads } ∧
      payloads.flatten = s.pending := by
  by_cases heq : s.tail = s.head
  · obtain ⟨ring, head, tail, connected, delivered, stored⟩ := s
    obtain rfl : tail = head := heq
    exact ⟨[], by simp [webLogDrain], by simp [LogStream.pending]⟩
  · unfold webLogDrain LogStream.sendFrame LogStream.pending
    simp only [if_pos hle, if_true]
    refine ⟨[(s.ring.drop s.tail).take (s.head - s.tail)], ?_, ?_⟩
    · rw [if_neg heq]
    · rw [List.flatten_cons, List.flatten_nil, List.append_nil]

/-- The first frame of a drain that goes around the end is the rest of the ring. -/
theorem firstFrame_eq (h : s.Shows r) (hwrap : s.head < s.tail) :
    (s.ring.drop s.tail).take (logRingBufSize - s.tail) = r.front ∧
      s.ring.drop s.tail = r.front := by
  have hback : ¬ r.tail ≤ r.head := by
    rw [← h.2.1, ← h.2.2]
    exact Nat.not_le_of_lt hwrap
  have hfront : s.ring.drop s.tail = r.front := by
    rw [Ring.front, if_neg hback, h.1, h.2.2]
  have hlen : r.front.length = logRingBufSize - s.tail := by
    rw [Ring.length_front, if_neg hback, h.2.2]
  refine ⟨?_, hfront⟩
  rw [hfront, List.take_of_length_le (Nat.le_of_eq hlen)]

theorem webLogDrain_wrapped (h : s.Shows r) (hwrap : s.head < s.tail) :
    ∃ payloads, webLogDrain s .ok .ok =
        { s with tail := s.head, delivered := s.delivered ++ payloads } ∧
      payloads.flatten = s.pending := by
  obtain ⟨hpart, hfront⟩ := firstFrame_eq h hwrap
  have hback : ¬ s.tail ≤ s.head := Nat.not_le_of_lt hwrap
  refine ⟨[r.front, s.ring.take s.head], ?_, ?_⟩
  · unfold webLogDrain LogStream.sendFrame
    simp only [if_neg (Nat.ne_of_gt hwrap), if_neg hback, if_true, hpart, List.append_assoc]
    rfl
  · rw [LogStream.pending, if_neg hback, hfront]
    simp

theorem webLogDrain_torn (h : s.Shows r) {first second : EspErr}
    (htorn : TornDrain s first second) :
    webLogDrain s first second = { s with delivered := s.delivered ++ [r.front] } := by
  obtain ⟨hwrap, rfl, hsecond⟩ := htorn
  have hback : ¬ s.tail ≤ s.head := Nat.not_le_of_lt hwrap
  unfold webLogDrain LogStream.sendFrame
  simp only [if_neg (Nat.ne_of_gt hwrap), if_neg hback, if_neg hsecond, if_true,
    (firstFrame_eq h hwrap).1]

/-- A drain that is not torn does nothing or delivers all that is waiting. -/
theorem webLogDrain_cases (h : s.Shows r) {first second : EspErr}
    (hnot : ¬ TornDrain s first second) :
    webLogDrain s first second = s ∨
      ∃ payloads, webLogDrain s first second =
          { s with tail := s.head, delivered := s.delivered ++ payloads } ∧
        payloads.flatten = s.pending := by
  by_cases hfirst : first = .ok
  · subst hfirst
    refine Or.inr ?_
    rcases Nat.lt_or_ge s.head s.tail with hwrap | hle
    · have hsecond : second = .ok := Decidable.byContradiction fun hne => hnot ⟨hwrap, rfl, hne⟩
      subst hsecond
      exact webLogDrain_wrapped h hwrap
    · exact webLogDrain_flat hle second
  · exact Or.inl (webLogDrain_of_not_ok hfirst second)

theorem LogStream.Shows.drained (h : s.Shows r) (payloads : List Bytes) :
    LogStream.Shows { s with tail := s.head, delivered := s.delivered ++ payloads } r.clear :=
  ⟨h.1, h.2.1, h.2.1⟩

/-- A drain keeps the ring; it keeps the stream exactly if it is not torn. -/
theorem webLogDrain_spec (h : s.Shows r) (first second : EspErr) :
    (∃ r', (webLogDrain s first second).Shows r') ∧
      (webLogDrain s first second).connected = s.connected ∧
      (webLogDrain s first second).stored = s.stored ∧
      (¬ TornDrain s first second → (webLogDrain s first second).streamed = s.streamed) ∧
      (TornDrain s first second →
        s.streamed.length < (webLogDrain s first second).streamed.length) := by
  by_cases htorn : TornDrain s first second
  · have hne : r.front ≠ [] := Ring.front_ne_nil (by rw [← h.2.1, ← h.2.2]; exact htorn.1)
    have hpos := List.length_pos_of_ne_nil hne
    rw [webLogDrain_torn h htorn]
    refine ⟨⟨r, h⟩, rfl, rfl, absurd htorn, fun _ => ?_⟩
    have hstreamed : LogStream.streamed { s with delivered := s.delivered ++ [r.front] } =
        s.delivered.flatten ++ r.front ++ s.pending := by
      rw [LogStream.streamed, List.flatten_append, List.flatten_cons, List.flatten_nil,
        List.append_nil]
      rfl
    rw [hstreamed, LogStream.streamed, List.length_append, List.length_append,
      List.length_append]
    omega
  · rcases webLogDrain_cases h htorn with hsame | ⟨payloads, hall, hpayloads⟩
    · rw [hsame]
      exact ⟨⟨r, h⟩, rfl, rfl, fun _ => rfl, fun ht => absurd ht htorn⟩
    · have hshows := h.drained payloads
      rw [hall]
      refine ⟨⟨_, hshows⟩, rfl, rfl, fun _ => ?_, fun ht => absurd ht htorn⟩
      rw [LogStream.streamed, hshows.pending_eq, Ring.contents_clear, List.flatten_append,
        hpayloads, List.append_nil]
      rfl

/-! ## One call -/

/-- A call on the connection stores a prefix of its bytes, and puts it behind the stream
exactly if it is not torn. -/
theorem logCall_spec (h : s.Shows r) (hconn : s.connected = true) (c : LogCall) :
    ∃ t, logCall s c = some t ∧ (∃ r', t.Shows r') ∧ t.connected = true ∧
      t.stored = s.stored ++ c.data.take (logRingBufSize - 1 - s.pending.length) ∧
      (¬ Torn s c →
        t.streamed = s.streamed ++ c.data.take (logRingBufSize - 1 - s.pending.length)) ∧
      (Torn s c → s.streamed.length + t.stored.length < t.streamed.length + s.stored.length) := by
  cases c with
  | push data first second =>
      obtain ⟨hstored, hpending⟩ := storeBytes_longest h data
      obtain ⟨hconn', hdelivered⟩ := storeBytes_frame s data
      have hshows := h.storeBytes data
      have hstreamed : (s.storeBytes data).streamed =
          s.streamed ++ data.take (logRingBufSize - 1 - s.pending.length) := by
        rw [LogStream.streamed, hdelivered, hpending, ← List.append_assoc]
        rfl
      refine ⟨_, rfl, ?_⟩
      unfold webLogPush Torn
      simp only [hconn, if_true, true_and]
      by_cases hmany : logRingBufSize * 3 / 5 < (s.storeBytes data).used
      · obtain ⟨hring, hc, hs, hkept, htorn⟩ := webLogDrain_spec hshows first second
        simp only [hmany, if_true, true_and]
        refine ⟨hring, hc.trans (hconn'.trans hconn), hs.trans hstored, ?_, ?_⟩
        · intro hnot
          rw [hkept hnot, hstreamed]
          rfl
        · intro ht
          have hlt := htorn ht
          rw [hstreamed, List.length_append] at hlt
          rw [hs, hstored, List.length_append]
          omega
      · simp only [hmany, if_false, false_and]
        exact ⟨⟨_, hshows⟩, hconn'.trans hconn, hstored, fun _ => hstreamed, False.elim⟩
  | drain first second =>
      obtain ⟨hring, hc, hs, hkept, htorn⟩ := webLogDrain_spec h first second
      refine ⟨_, rfl, hring, hc.trans hconn, ?_, ?_, ?_⟩
      · rw [hs, LogCall.data, List.take_nil, List.append_nil]
      · intro hnot
        rw [hkept hnot, LogCall.data, List.take_nil, List.append_nil]
      · intro ht
        have hlt := htorn ht
        rw [hs]
        omega

/-! ## Runs -/

/-- More was delivered and is waiting than was stored. -/
def LogStream.Repeats (s : LogStream) : Prop := s.stored.length < s.streamed.length

theorem LogStream.Repeats.not_exact (h : s.Repeats) : ¬ s.Exact := by
  intro hexact
  unfold LogStream.Repeats at h
  rw [hexact] at h
  exact Nat.lt_irrefl _ h

theorem logCall_repeats (h : s.Shows r) (hconn : s.connected = true) {c : LogCall}
    {t : LogStream} (hstep : logCall s c = some t) (hs : s.Repeats) : t.Repeats := by
  obtain ⟨t', ht', _, _, hstored, hkept, htorn⟩ := logCall_spec h hconn c
  obtain rfl : t' = t := Option.some.inj (ht'.symm.trans hstep)
  unfold LogStream.Repeats at hs ⊢
  by_cases hc : Torn s c
  · have hlt := htorn hc
    omega
  · rw [hstored, hkept hc, List.length_append, List.length_append]
    omega

/-- On a connection the ring stays in range and every push stores the longest prefix that
fits; a run keeps an exact stream exactly if none of its calls is torn. -/
theorem run_logCall (h : s.Shows r) (hconn : s.connected = true) (calls : List LogCall) :
    AllSteps logCall StoresPrefix s calls ∧
      ∃ t, run logCall s calls = some t ∧ t.InRange ∧ (s.Repeats → t.Repeats) ∧
        (s.Exact → AllSteps logCall (fun s c => ¬ Torn s c) s calls → t.Exact) ∧
        (s.Exact → ¬ AllSteps logCall (fun s c => ¬ Torn s c) s calls → t.Repeats) := by
  induction calls generalizing s r with
  | nil =>
      exact ⟨trivial, s, rfl, h.inRange, fun hs => hs, fun hs _ => hs,
        fun _ hnot => absurd trivial hnot⟩
  | cons c calls ih =>
      obtain ⟨m, hm, ⟨r', hr'⟩, hconn', hstored, hkept, htorn⟩ := logCall_spec h hconn c
      obtain ⟨hstores, t, ht, hrange, hrepeats, hexact, hnotexact⟩ := ih hr' hconn'
      have hhead : StoresPrefix s c := by
        refine ⟨h.inRange, fun m' hm' => ?_⟩
        obtain rfl : m = m' := Option.some.inj (hm.symm.trans hm')
        exact hstored
      have hkeptExact : ¬ Torn s c → s.Exact → m.Exact := by
        intro hc hs
        unfold LogStream.Exact at hs ⊢
        rw [hkept hc, hstored, hs]
      refine ⟨(allSteps_cons_of_some hm).mpr ⟨hhead, hstores⟩, t, ?_, hrange, ?_, ?_, ?_⟩
      · exact run_cons_iff.mpr ⟨m, hm, ht⟩
      · exact fun hs => hrepeats (logCall_repeats h hconn hm hs)
      · intro hs hall
        obtain ⟨hc, hrest⟩ := (allSteps_cons_of_some hm).mp hall
        exact hexact (hkeptExact hc hs) hrest
      · intro hs hnot
        by_cases hc : Torn s c
        · -- the first part of the waiting bytes will be delivered again
          refine hrepeats ?_
          have hlt := htorn hc
          unfold LogStream.Exact at hs
          unfold LogStream.Repeats
          rw [hs] at hlt
          omega
        · refine hnotexact (hkeptExact hc hs) fun hrest => hnot ?_
          exact (allSteps_cons_of_some hm).mpr ⟨hc, hrest⟩

/-! ## From boot -/

theorem logCall_shows (h : s.Shows r) {c : LogCall} {t : LogStream}
    (hstep : logCall s c = some t) : ∃ r', t.Shows r' := by
  cases c with
  | push data first second =>
      obtain rfl := Option.some.inj hstep
      have hshows := h.storeBytes data
      unfold webLogPush
      simp only []
      split
      · split
        · exact (webLogDrain_spec hshows first second).1
        · exact ⟨_, hshows⟩
      · exact ⟨r, h⟩
  | drain first second =>
      obtain rfl := Option.some.inj hstep
      exact (webLogDrain_spec h first second).1

theorem logStep_shows {t : LogStream} {e : LogEvent} (h : ∃ r, s.Shows r)
    (hstep : logStep s e = some t) : ∃ r, t.Shows r := by
  obtain ⟨r, hr⟩ := h
  cases e with
  | call c => exact logCall_shows hr hstep
  | newClient =>
      obtain rfl := Option.some.inj hstep
      exact ⟨_, hr.newClient⟩
  | closed =>
      obtain rfl := Option.some.inj hstep
      exact ⟨r, hr⟩

theorem logStep_total (s : LogStream) (e : LogEvent) : ∃ t, logStep s e = some t := by
  cases e with
  | call c => cases c <;> exact ⟨_, rfl⟩
  | newClient => exact ⟨_, rfl⟩
  | closed => exact ⟨_, rfl⟩

theorem logWsNewClient_exact (h : s.Shows r) : (logWsNewClient s).Exact := by
  unfold LogStream.Exact LogStream.streamed
  rw [h.newClient.pending_eq, Ring.contents_clear]
  rfl

/-- After every past of the server, on every connection: the indices stay in range, every
push stores the longest prefix that fits, and the stream is exact if and only if no drain
sent its first frame and failed to send its second one. -/
theorem logStream_exact_iff (history : List LogEvent) (calls : List LogCall) :
    ∃ s t, run logStep logBoot history = some s ∧
      run logCall (logWsNewClient s) calls = some t ∧
      AllSteps logCall StoresPrefix (logWsNewClient s) calls ∧ t.InRange ∧
      (t.Exact ↔ AllSteps logCall (fun s c => ¬ Torn s c) (logWsNewClient s) calls) := by
  obtain ⟨s, hs⟩ := run_total logStep_total logBoot history
  obtain ⟨r, hr⟩ := run_invariant (fun _ _ _ => logStep_shows) logBoot_shows hs
  obtain ⟨hstores, t, ht, hrange, _, hexact, hrepeats⟩ := run_logCall hr.newClient rfl calls
  have hstart := logWsNewClient_exact hr
  refine ⟨s, t, hs, ht, hstores, hrange, fun h => ?_, hexact hstart⟩
  by_contra hnot
  exact (hrepeats hstart hnot).not_exact h

theorem webLogPush_of_fits (h : s.Shows r) (hconn : s.connected = true) (data : Bytes)
    (hfit : s.pending.length + data.length ≤ logRingBufSize * 3 / 5) (first second : EspErr) :
    webLogPush s data first second = s.storeBytes data ∧
      (s.storeBytes data).head = (s.head + data.length) % logRingBufSize ∧
      (s.storeBytes data).tail = s.tail := by
  have hlt : r.contents.length + data.length < logRingBufSize := by
    rw [← h.pending_eq]
    unfold logRingBufSize at hfit ⊢
    omega
  have hshows := h.storeBytes data
  obtain ⟨hhead, htail⟩ := Ring.fill_of_fits hlt
  refine ⟨?_, ?_, ?_⟩
  · have hused : (s.storeBytes data).used ≤ logRingBufSize * 3 / 5 := by
      rw [hshows.used_eq, (storeBytes_longest h data).2, List.length_append, List.length_take]
      omega
    simp [webLogPush, hconn, Nat.not_lt.mpr hused]
  · rw [hshows.2.1, hhead, h.2.1]
  · rw [hshows.2.2, htail, h.2.2]

/-- 1200 bytes, drained; 1200 more bytes, which go around the end of the ring; and a drain
whose second frame fails. -/
def tornCalls : List LogCall :=
  [.push (List.replicate 1200 65) .ok .ok, .drain .ok .ok,
    .push (List.replicate 1200 66) .ok .ok, .drain .ok .fail]

/-- The drain of 1200 bytes empties the ring; 1200 more move the head to 352, and the drain
of those is torn. -/
theorem torn_after_first_push (h : s.Shows r) (hconn : s.connected = true)
    (hhead : s.head = 1200) (htail : s.tail = 0) :
    ¬ AllSteps logCall (fun s c => ¬ Torn s c) s (tornCalls.drop 1) := by
  intro hall
  obtain ⟨payloads, hdrain, _⟩ := webLogDrain_flat (by rw [htail]; exact Nat.zero_le _) .ok
  have hdrained := h.drained payloads
  have hempty := hdrained.pending_eq.trans (Ring.contents_clear _)
  obtain ⟨hpush, hhead', htail'⟩ := webLogPush_of_fits hdrained hconn
    (List.replicate 1200 66) (by rw [hempty, List.length_replicate]; decide) .ok .ok
  have hall := ((allSteps_cons_of_some (congrArg some hdrain)).mp hall).2
  have hall := ((allSteps_cons_of_some (congrArg some hpush)).mp hall).2
  refine hall.1 ⟨?_, rfl, nofun⟩
  rw [hhead', htail', hhead, List.length_replicate]
  change (1200 + 1200) % logRingBufSize < 1200
  decide

theorem logStream_torn :
    ∃ t, run logCall (logWsNewClient logBoot) tornCalls = some t ∧ ¬ t.Exact := by
  obtain ⟨r, hr⟩ := logBoot_shows
  have hstart := hr.newClient
  have hempty := hstart.pending_eq.trans (Ring.contents_clear _)
  obtain ⟨_, t, ht, _, _, _, hrepeats⟩ := run_logCall hstart rfl tornCalls
  obtain ⟨hpush, hhead, htail⟩ := webLogPush_of_fits hstart rfl
    (List.replicate 1200 65) (by rw [hempty, List.length_replicate]; decide) .ok .ok
  refine ⟨t, ht, (hrepeats (logWsNewClient_exact hr) fun hall => ?_).not_exact⟩
  have hall := ((allSteps_cons_of_some (congrArg some hpush)).mp hall).2
  refine torn_after_first_push (hstart.storeBytes _) (storeBytes_frame _ _).1 ?_ htail hall
  rw [hhead, List.length_replicate]
  rfl

end Esp32Deskflow.Web
