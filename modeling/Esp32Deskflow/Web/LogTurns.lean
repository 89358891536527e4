/-
  Web/LogTurns.lean --- what the log stream delivers when several tasks push and drain.

  As long as at most one task at a time stores a byte and at most one sends frames, the ring is
  a window on the bytes stored so far: a push needs only the room behind the window, and a
  drain needs only the bytes that were in it when it read the head.  Two drains at a time
  deliver the waiting bytes twice, and two stores at a time lose a byte.
-/
import Esp32Deskflow.Web.LogTasks

set_option autoImplicit false

namespace Esp32Deskflow.Web

open Esp32Deskflow.Foundation Esp32Deskflow.Foundation.Transition

/-! ## Tasks that are kept apart -/

/-- The task has read the head for a byte, and has not moved the head over it. -/
def LogTaskPc.Storing : LogTaskPc → Prop
  | .test _ _ _ | .locate _ _ _ | .store _ _ _ _ | .advance _ _ _ => True
  | _ => False

/-- The task has read the tail to drain the ring. -/
def LogTaskPc.Draining : LogTaskPc → Prop
  | .drainHead _ | .send _ _ _ _ | .finish _ => True
  | _ => False

instance : DecidablePred LogTaskPc.Storing
  | .test _ _ _ | .locate _ _ _ | .store _ _ _ _ | .advance _ _ _ => isTrue trivial
  | .idle | .push _ | .compare | .compareTail _ | .measure _ | .measureRest _ _ | .drain
  | .drainHead _ | .send _ _ _ _ | .finish _ => isFalse id

instance : DecidablePred LogTaskPc.Draining
  | .drainHead _ | .send _ _ _ _ | .finish _ => isTrue trivial
  | .idle | .push _ | .test _ _ _ | .locate _ _ _ | .store _ _ _ _ | .advance _ _ _ | .compare
  | .compareTail _ | .measure _ | .measureRest _ _ | .drain => isFalse id

/-- At most one task stores a byte, and at most one drains. -/
def LogTasks.Apart (s : LogTasks) : Prop :=
  s.tasks.Pairwise fun pc pc' =>
    ¬ (pc.Storing ∧ pc'.Storing) ∧ ¬ (pc.Draining ∧ pc'.Draining)

instance : DecidablePred LogTasks.Apart := fun s =>
  inferInstanceAs (Decidable (s.tasks.Pairwise _))

/-- The task sends the bytes that have gone around the end of the ring. -/
def LogTaskPc.secondFrame : LogTaskPc → Bool
  | .send _ _ second _ => second
  | _ => false

/-- The second frame of a drain does not fail. -/
def SecondSent (s : LogTasks) : LogTaskLabel → Prop
  | .access i r => ∀ pc ∈ s.tasks[i]?, pc.secondFrame = true → r = .ok
  | _ => True

instance (s : LogTasks) : DecidablePred (SecondSent s)
  | .access i r =>
      inferInstanceAs (Decidable (∀ pc ∈ s.tasks[i]?, pc.secondFrame = true → r = .ok))
  | .push _ _ | .drain _ => isTrue trivial

/-- No task is in a drain. -/
def LogTasks.NoDrain (s : LogTasks) : Prop := ∀ pc ∈ s.tasks, ¬ pc.Draining

/-- The bytes between tail and head. -/
def LogTasks.pending (s : LogTasks) : Bytes :=
  if s.tail ≤ s.head then (s.ring.drop s.tail).take (s.head - s.tail)
  else s.ring.drop s.tail ++ s.ring.take s.head

/-! ## The invariant -/

/-- How many bytes a drain has sent before the frame. -/
def frameSkip (tail : Nat) (second : Bool) : Nat := if second then logRingBufSize - tail else 0

/-- What a task that stores a byte has noted, and the room it has found. -/
def StoreOk (s : LogTasks) (base first : Nat) : LogTaskPc → Prop
  | .test next _ _ => next = place logRingBufSize base (s.stored.length + 1)
  | .locate next _ _ =>
      next = place logRingBufSize base (s.stored.length + 1) ∧
        s.stored.length + 1 < first + logRingBufSize
  | .store head next _ _ =>
      next = place logRingBufSize base (s.stored.length + 1) ∧
        s.stored.length + 1 < first + logRingBufSize ∧
        head = place logRingBufSize base s.stored.length
  | .advance next byte _ =>
      next = place logRingBufSize base (s.stored.length + 1) ∧
        s.stored.length + 1 < first + logRingBufSize ∧
        s.ring[place logRingBufSize base s.stored.length]? = some byte
  | _ => True

/-- What a task that drains has noted and what it has sent: it goes up to the byte `last`. -/
def DrainOk (s : LogTasks) (base first : Nat) : LogTaskPc → Prop
  | .drainHead tail =>
      tail = place logRingBufSize base first ∧ s.delivered.flatten.length = first
  | .send tail head second payload => ∃ last, first ≤ last ∧ last ≤ s.stored.length ∧
      tail = place logRingBufSize base first ∧ head = place logRingBufSize base last ∧
      (second = true → head < tail) ∧
      s.delivered.flatten.length = first + frameSkip tail second ∧
      payload.length ≤ frameLen tail head second ∧ s.delivered.flatten ++ payload <+: s.stored
  | .finish head => ∃ last, first ≤ last ∧ last ≤ s.stored.length ∧
      head = place logRingBufSize base last ∧ s.delivered.flatten.length = last
  | _ => True

/-- The ring holds the stored bytes from `first` on, and those before it were delivered. -/
structure Streams (base first : Nat) (s : LogTasks) : Prop where
  window : Window logRingBufSize base s.ring s.stored first
  head_eq : s.head = place logRingBufSize base s.stored.length
  tail_eq : s.tail = place logRingBufSize base first
  delivered_prefix : s.delivered.flatten <+: s.stored
  delivered_length : s.NoDrain → s.delivered.flatten.length = first
  storeOk : ∀ (i : Nat) (pc : LogTaskPc), s.tasks[i]? = some pc → StoreOk s base first pc
  drainOk : ∀ (i : Nat) (pc : LogTaskPc), s.tasks[i]? = some pc → DrainOk s base first pc

variable {s t : LogTasks} {base first i : Nat} {pc pc' : LogTaskPc}

theorem StoreOk.of_not_storing (h : ¬ pc.Storing) : StoreOk s base first pc := by
  cases pc <;> first | trivial | exact absurd trivial h

theorem DrainOk.of_not_draining (h : ¬ pc.Draining) : DrainOk s base first pc := by
  cases pc <;> first | trivial | exact absurd trivial h

theorem not_storing_of_draining (h : pc.Draining) : ¬ pc.Storing := by
  cases pc <;> first | exact fun hstoring => hstoring | exact absurd h (fun hfalse => hfalse)

theorem LogTasks.NoDrain.of_setTask (hpc : s.tasks[i]? = some pc) (hnot : ¬ pc.Draining)
    (h : (s.setTask i pc').NoDrain) : s.NoDrain := by
  intro q hq
  obtain ⟨j, hj⟩ := List.mem_iff_getElem?.mp hq
  by_cases hij : i = j
  · subst hij
    obtain rfl : pc = q := Option.some.inj (hpc.symm.trans hj)
    exact hnot
  · refine h q (List.mem_iff_getElem?.mpr ⟨j, ?_⟩)
    unfold LogTasks.setTask
    rw [List.getElem?_set_ne hij, hj]

theorem prefix_concat_of_getElem? {α : Type} {xs ys : List α} {y : α} (h : xs <+: ys)
    (hy : ys[xs.length]? = some y) : xs ++ [y] <+: ys := by
  obtain ⟨rest, rfl⟩ := h
  rw [List.getElem?_append_right (Nat.le_refl _), Nat.sub_self, ← List.head?_eq_getElem?] at hy
  obtain ⟨rest', rfl⟩ := List.head?_eq_some_iff.mp hy
  exact ⟨rest', (List.append_cons xs y rest').symm⟩

/-! ## The frames of a drain -/

theorem frameSkip_add_frameLen {tail head : Nat} {second : Bool}
    (hwrap : second = true → head < tail) :
    frameSkip tail second + frameLen tail head second =
      if second = true ∨ tail ≤ head then
        if tail ≤ head then head - tail else logRingBufSize - tail + head
      else logRingBufSize - tail := by
  unfold frameSkip frameLen
  cases second with
  | true => simp [Nat.not_le_of_lt (hwrap rfl)]
  | false => by_cases hle : tail ≤ head <;> simp [hle]

/-- The cells of a frame are those of the bytes it is to send. -/
theorem frame_place {tail head n : Nat} {second : Bool}
    (htail : tail = place logRingBufSize base first) (hhead : head < logRingBufSize)
    (hwrap : second = true → head < tail) (hn : n < frameLen tail head second) :
    place logRingBufSize base (first + frameSkip tail second + n) = frameStart tail second + n ∧
      frameSkip tail second + n <
        if tail ≤ head then head - tail else logRingBufSize - tail + head := by
  have hlt : tail < logRingBufSize := htail ▸ place_lt logRingBufSize_pos
  rw [Nat.add_assoc, place_add, ← htail]
  unfold frameLen at hn
  unfold frameSkip frameStart
  cases second with
  | true =>
      have hwrap := hwrap rfl
      simp only [if_true, if_neg (Nat.not_le_of_lt hwrap)] at hn ⊢
      rw [← Nat.add_assoc, Nat.add_sub_cancel' (Nat.le_of_lt hlt), Nat.add_mod_left,
        Nat.mod_eq_of_lt (by omega)]
      omega
  | false =>
      simp only [Bool.false_eq_true, if_false] at hn ⊢
      rw [Nat.zero_add, Nat.mod_eq_of_lt (by split at hn <;> omega)]
      refine ⟨rfl, ?_⟩
      split at hn
      · next hle => rwa [if_pos hle]
      · next hle =>
          rw [if_neg hle]
          omega

namespace Streams

/-- A task goes on, and nothing else changes. -/
theorem move (h : Streams base first s) (hpc : s.tasks[i]? = some pc)
    (hstore : StoreOk s base first pc') (hdrain : DrainOk s base first pc')
    (hend : pc.Draining → ¬ pc'.Draining → s.delivered.flatten.length = first) :
    Streams base first (s.setTask i pc') where
  window := h.window
  head_eq := h.head_eq
  tail_eq := h.tail_eq
  delivered_prefix := h.delivered_prefix
  delivered_length := by
    intro hno
    by_cases hdraining : pc.Draining
    · have hlt : i < s.tasks.length := (List.getElem?_eq_some_iff.mp hpc).1
      exact hend hdraining (hno pc' (List.mem_of_getElem? (List.getElem?_set_self hlt)))
    · exact h.delivered_length (.of_setTask hpc hdraining hno)
  storeOk := by
    intro j q hj
    rcases setTask_cases hj with ⟨_, rfl⟩ | ⟨_, hj⟩
    · exact hstore
    · exact h.storeOk j q hj
  drainOk := by
    intro j q hj
    rcases setTask_cases hj with ⟨_, rfl⟩ | ⟨_, hj⟩
    · exact hdrain
    · exact h.drainOk j q hj

/-- A task goes on outside of the two critical stretches. -/
theorem moveOut (h : Streams base first s) (hpc : s.tasks[i]? = some pc)
    (hold : ¬ pc.Draining) (hstoring : ¬ pc'.Storing) (hdraining : ¬ pc'.Draining) :
    Streams base first (s.setTask i pc') :=
  h.move hpc (.of_not_storing hstoring) (.of_not_draining hdraining) fun hd => absurd hd hold

/-- A byte is stored behind the window. -/
theorem store (h : Streams base first s) {head next : Nat} {byte : UInt8} {rest : Bytes}
    (hpc : s.tasks[i]? = some (.store head next byte rest))
    (halone : ∀ j pc, j ≠ i → s.tasks[j]? = some pc → ¬ pc.Storing) :
    Streams base first
      ({ s with ring := s.ring.set head byte }.setTask i (.advance next byte rest)) := by
  obtain ⟨hnext, hroom, rfl⟩ := h.storeOk i _ hpc
  have hlt : place logRingBufSize base s.stored.length < s.ring.length := by
    rw [h.window.length_cells]
    exact place_lt logRingBufSize_pos
  refine
    { window := h.window.write byte
      head_eq := h.head_eq
      tail_eq := h.tail_eq
      delivered_prefix := h.delivered_prefix
      delivered_length := fun hno => h.delivered_length (.of_setTask hpc (fun hd => hd) hno)
      storeOk := ?_
      drainOk := ?_ }
  · intro j q hj
    rcases setTask_cases hj with ⟨_, rfl⟩ | ⟨hij, hj⟩
    · exact ⟨hnext, hroom, List.getElem?_set_self hlt⟩
    · exact .of_not_storing (halone j q hij hj)
  · intro j q hj
    rcases setTask_cases hj with ⟨_, rfl⟩ | ⟨_, hj⟩
    · trivial
    · have hdrain := h.drainOk j q hj
      cases q <;> exact hdrain

theorem drainOk_grow (byte : UInt8) (head : Nat) (h : DrainOk s base first pc) :
    DrainOk { s with head := head, stored := s.stored ++ [byte] } base first pc := by
  have hprefix : s.stored <+: s.stored ++ [byte] := List.prefix_append _ _
  have hle : s.stored.length ≤ (s.stored ++ [byte]).length := hprefix.length_le
  cases pc with
  | send tail head second payload =>
      obtain ⟨last, hfirst, hlast, htail, hhead, hwrap, hlen, hpart, hsent⟩ := h
      exact ⟨last, hfirst, Nat.le_trans hlast hle, htail, hhead, hwrap, hlen, hpart,
        hsent.trans hprefix⟩
  | finish head =>
      obtain ⟨last, hfirst, hlast, hhead, hlen⟩ := h
      exact ⟨last, hfirst, Nat.le_trans hlast hle, hhead, hlen⟩
  | _ => exact h

/-- The head goes over the byte. -/
theorem advance (h : Streams base first s) {next : Nat} {byte : UInt8} {rest : Bytes}
    (hpc : s.tasks[i]? = some (.advance next byte rest))
    (halone : ∀ j pc, j ≠ i → s.tasks[j]? = some pc → ¬ pc.Storing) :
    Streams base first
      ({ s with head := next, stored := s.stored ++ [byte] }.setTask i (.push rest)) := by
  obtain ⟨rfl, hroom, hcell⟩ := h.storeOk i _ hpc
  refine
    { window := h.window.grow hroom hcell
      head_eq := by rw [LogTasks.setTask, List.length_append, List.length_singleton]
      tail_eq := h.tail_eq
      delivered_prefix := h.delivered_prefix.trans (List.prefix_append _ _)
      delivered_length := fun hno => h.delivered_length (.of_setTask hpc (fun hd => hd) hno)
      storeOk := ?_
      drainOk := ?_ }
  · intro j q hj
    rcases setTask_cases hj with ⟨_, rfl⟩ | ⟨hij, hj⟩
    · trivial
    · exact .of_not_storing (halone j q hij hj)
  · intro j q hj
    rcases setTask_cases hj with ⟨_, rfl⟩ | ⟨_, hj⟩
    · trivial
    · have hdrain := drainOk_grow byte (place logRingBufSize base (s.stored.length + 1))
        (h.drainOk j q hj)
      cases q <;> exact hdrain

/-- A frame is delivered. -/
theorem deliver (h : Streams base first s) {payload : Bytes}
    (halone : ∀ j pc, j ≠ i → s.tasks[j]? = some pc → ¬ pc.Draining)
    (hsent : s.delivered.flatten ++ payload <+: s.stored) (hlt : i < s.tasks.length)
    (hdraining : pc'.Draining)
    (hdrain : DrainOk { s with delivered := s.delivered ++ [payload] } base first pc') :
    Streams base first ({ s with delivered := s.delivered ++ [payload] }.setTask i pc') where
  window := h.window
  head_eq := h.head_eq
  tail_eq := h.tail_eq
  delivered_prefix := by
    rwa [LogTasks.setTask, List.flatten_append, List.flatten_singleton]
  delivered_length := by
    intro hno
    exact absurd hdraining (hno pc' (List.mem_of_getElem? (List.getElem?_set_self hlt)))
  storeOk := by
    intro j q hj
    rcases setTask_cases hj with ⟨_, rfl⟩ | ⟨_, hj⟩
    · exact .of_not_storing (not_storing_of_draining hdraining)
    · have hstore := h.storeOk j q hj
      cases q <;> exact hstore
  drainOk := by
    intro j q hj
    rcases setTask_cases hj with ⟨_, rfl⟩ | ⟨hij, hj⟩
    · cases q <;> exact hdrain
    · exact .of_not_draining (halone j q hij hj)

theorem storeOk_forget (tail : Nat) {last : Nat} (hle : first ≤ last)
    (h : StoreOk s base first pc) : StoreOk { s with tail := tail } base last pc := by
  have hroom : first + logRingBufSize ≤ last + logRingBufSize := Nat.add_le_add_right hle _
  cases pc with
  | locate next byte rest => exact ⟨h.1, Nat.lt_of_lt_of_le h.2 hroom⟩
  | store head next byte rest => exact ⟨h.1, Nat.lt_of_lt_of_le h.2.1 hroom, h.2.2⟩
  | advance next byte rest => exact ⟨h.1, Nat.lt_of_lt_of_le h.2.1 hroom, h.2.2⟩
  | _ => exact h

/-- The tail goes over the bytes that were delivered. -/
theorem finish (h : Streams base first s) {head : Nat} (hpc : s.tasks[i]? = some (.finish head))
    (halone : ∀ j pc, j ≠ i → s.tasks[j]? = some pc → ¬ pc.Draining) :
    ∃ last, Streams base last ({ s with tail := head }.setTask i .idle) := by
  obtain ⟨last, hfirst, hlast, rfl, hlen⟩ := h.drainOk i _ hpc
  refine ⟨last,
    { window := h.window.forget hfirst hlast
      head_eq := h.head_eq
      tail_eq := rfl
      delivered_prefix := h.delivered_prefix
      delivered_length := fun _ => hlen
      storeOk := ?_
      drainOk := ?_ }⟩
  · intro j q hj
    rcases setTask_cases hj with ⟨_, rfl⟩ | ⟨_, hj⟩
    · trivial
    · have hstore := storeOk_forget (place logRingBufSize base last) hfirst
        (h.storeOk j q hj)
      cases q <;> exact hstore
  · intro j q hj
    rcases setTask_cases hj with ⟨_, rfl⟩ | ⟨hij, hj⟩
    · trivial
    · exact .of_not_draining (halone j q hij hj)

/-! ## One access of a drain -/

/-- The bytes from `first` to `last` are those that the drain has found in the ring. -/
theorem count_eq (h : Streams base first s) {tail head last : Nat} (hfirst : first ≤ last)
    (hlast : last ≤ s.stored.length) (htail : tail = place logRingBufSize base first)
    (hhead : head = place logRingBufSize base last) :
    last - first = if tail ≤ head then head - tail else logRingBufSize - tail + head := by
  have hfits := h.window.fits
  have hdistance := @place_distance logRingBufSize base first last hfirst (by omega)
  rwa [← htail, ← hhead] at hdistance

/-- A byte of the window is copied to the frame. -/
theorem copy (h : Streams base first s) {tail head : Nat} {second : Bool} {payload : Bytes}
    {byte : UInt8} (hpc : s.tasks[i]? = some (.send tail head second payload))
    (hmore : payload.length < frameLen tail head second)
    (hbyte : s.ring[frameStart tail second + payload.length]? = some byte) :
    Streams base first (s.setTask i (.send tail head second (payload ++ [byte]))) := by
  obtain ⟨last, hfirst, hlast, htail, hhead, hwrap, hlen, hpart, hsent⟩ := h.drainOk i _ hpc
  have hcount := h.count_eq hfirst hlast htail hhead
  obtain ⟨hplace, hlt⟩ := frame_place htail (hhead ▸ place_lt logRingBufSize_pos) hwrap hmore
  have hnext : s.stored[(s.delivered.flatten ++ payload).length]? = some byte := by
    rw [List.length_append, hlen, ← h.window.holds _ (by omega) (by omega), hplace, hbyte]
  have hgrown : s.delivered.flatten ++ (payload ++ [byte]) <+: s.stored := by
    rw [← List.append_assoc]
    exact prefix_concat_of_getElem? hsent hnext
  refine h.move hpc trivial ⟨last, hfirst, hlast, htail, hhead, hwrap, hlen, ?_, hgrown⟩
    fun _ hnot => absurd trivial hnot
  rw [List.length_append, List.length_singleton]
  exact hmore

/-- The last frame of a drain, or the one up to the end of the ring, is delivered. -/
theorem sent (h : Streams base first s) {tail head : Nat} {second : Bool} {payload : Bytes}
    (hpc : s.tasks[i]? = some (.send tail head second payload))
    (hfull : ¬ payload.length < frameLen tail head second)
    (halone : ∀ j pc, j ≠ i → s.tasks[j]? = some pc → ¬ pc.Draining) :
    Streams base first ({ s with delivered := s.delivered ++ [payload] }.setTask i
      (if second = true ∨ tail ≤ head then .finish head else .send tail head true [])) := by
  obtain ⟨last, hfirst, hlast, htail, hhead, hwrap, hlen, hpart, hsent⟩ := h.drainOk i _ hpc
  have hcount := h.count_eq hfirst hlast htail hhead
  have hlt : i < s.tasks.length := (List.getElem?_eq_some_iff.mp hpc).1
  have hend := frameSkip_add_frameLen hwrap
  have hdelivered : (s.delivered ++ [payload]).flatten = s.delivered.flatten ++ payload := by
    rw [List.flatten_append, List.flatten_singleton]
  have hlength : (s.delivered ++ [payload]).flatten.length =
      first + (frameSkip tail second + frameLen tail head second) := by
    rw [hdelivered, List.length_append, hlen, Nat.add_assoc,
      Nat.le_antisymm hpart (Nat.le_of_not_lt hfull)]
  rw [hend] at hlength
  split
  · next hdone =>
      refine h.deliver halone hsent hlt trivial ⟨last, hfirst, hlast, hhead, ?_⟩
      rw [if_pos hdone, ← hcount] at hlength
      rw [hlength, Nat.add_sub_cancel' hfirst]
  · next hmore =>
      rw [not_or] at hmore
      refine h.deliver halone hsent hlt trivial ⟨last, hfirst, hlast, htail, hhead,
        fun _ => Nat.lt_of_not_le hmore.2, ?_, Nat.zero_le _, ?_⟩
      · rw [hlength, if_neg (not_or.mpr hmore)]
        rfl
      · rwa [List.append_nil, hdelivered]

end Streams

/-! ## One step -/

theorem LogTasks.Apart.at (h : s.Apart) (hpc : s.tasks[i]? = some pc) {j : Nat} (hij : j ≠ i)
    (hj : s.tasks[j]? = some pc') :
    ¬ (pc.Storing ∧ pc'.Storing) ∧ ¬ (pc.Draining ∧ pc'.Draining) := by
  obtain ⟨hi, rfl⟩ := List.getElem?_eq_some_iff.mp hpc
  obtain ⟨hjlt, rfl⟩ := List.getElem?_eq_some_iff.mp hj
  rcases Nat.lt_or_gt_of_ne hij with hlt | hgt
  · obtain ⟨hstoring, hdraining⟩ := List.pairwise_iff_getElem.mp h j i hjlt hi hlt
    exact ⟨fun hboth => hstoring hboth.symm, fun hboth => hdraining hboth.symm⟩
  · exact List.pairwise_iff_getElem.mp h i j hi hjlt hgt

theorem LogTasks.Apart.alone_storing (h : s.Apart) (hpc : s.tasks[i]? = some pc)
    (hstoring : pc.Storing) : ∀ j q, j ≠ i → s.tasks[j]? = some q → ¬ q.Storing :=
  fun _ _ hij hj hq => (h.at hpc hij hj).1 ⟨hstoring, hq⟩

theorem LogTasks.Apart.alone_draining (h : s.Apart) (hpc : s.tasks[i]? = some pc)
    (hdraining : pc.Draining) : ∀ j q, j ≠ i → s.tasks[j]? = some q → ¬ q.Draining :=
  fun _ _ hij hj hq => (h.at hpc hij hj).2 ⟨hdraining, hq⟩

theorem getElem?_setTask (hpc : s.tasks[i]? = some pc) :
    (s.setTask i pc').tasks[i]? = some pc' :=
  List.getElem?_set_self (List.getElem?_eq_some_iff.mp hpc).1

theorem getElem?_setTask_ne {j : Nat} (hij : j ≠ i) :
    (s.setTask i pc').tasks[j]? = s.tasks[j]? := List.getElem?_set_ne hij.symm

/-- A task that starts to drain is the only one that does, so no bytes are on their way. -/
theorem Streams.startDrain (h : Streams base first s) (hpc : s.tasks[i]? = some .drain)
    (hapart : (s.setTask i (.drainHead s.tail)).Apart) :
    Streams base first (s.setTask i (.drainHead s.tail)) := by
  refine h.move hpc trivial ⟨h.tail_eq, h.delivered_length fun q hmem hq => ?_⟩
    fun hd => absurd hd fun hfalse => hfalse
  obtain ⟨j, hj⟩ := List.mem_iff_getElem?.mp hmem
  have hself : (s.setTask i (.drainHead s.tail)).tasks[i]? = some (.drainHead s.tail) :=
    getElem?_setTask hpc
  by_cases hij : j = i
  · subst hij
    rw [hpc] at hj
    cases hj
    exact hq
  · exact hapart.alone_draining hself trivial j q hij ((getElem?_setTask_ne hij).trans hj) hq

/-- A drain notes the head. -/
theorem Streams.noteHead (h : Streams base first s) {tail : Nat}
    (hpc : s.tasks[i]? = some (.drainHead tail)) :
    Streams base first
      (s.setTask i (if tail = s.head then .idle else .send tail s.head false [])) := by
  obtain ⟨htail, hlen⟩ := h.drainOk i _ hpc
  split
  · exact h.move hpc trivial trivial fun _ _ => hlen
  · refine h.move hpc trivial ⟨s.stored.length, h.window.first_le, Nat.le_refl _, htail,
      h.head_eq, fun hsecond => (by cases hsecond), hlen, Nat.zero_le _, ?_⟩
      fun _ hnot => absurd trivial hnot
    rw [List.append_nil]
    exact h.delivered_prefix

/-- A push looks for room. -/
theorem Streams.testRoom (h : Streams base first s) {next : Nat} {byte : UInt8} {rest : Bytes}
    (hpc : s.tasks[i]? = some (.test next byte rest)) :
    Streams base first
      (s.setTask i (if next = s.tail then .compare else .locate next byte rest)) := by
  have hnext : next = place logRingBufSize base (s.stored.length + 1) := h.storeOk i _ hpc
  have hnot : ¬ (LogTaskPc.test next byte rest).Draining := fun hfalse => hfalse
  split
  · exact h.moveOut hpc hnot (fun hfalse => hfalse) fun hfalse => hfalse
  · next hroom =>
      refine h.move hpc ⟨hnext, ?_⟩ trivial fun hd => absurd hd hnot
      have hfits := h.window.fits
      by_contra hfull
      have hlast : s.stored.length + 1 = first + logRingBufSize := by omega
      refine hroom ?_
      rw [hnext, hlast, h.tail_eq, place_add, Nat.add_mod_right]
      exact Nat.mod_eq_of_lt (place_lt logRingBufSize_pos)

/-- In turn, every access keeps the stream. -/
theorem logAccess_streams (h : Streams base first s) (hapart : s.Apart) {r : EspErr}
    (hpc : s.tasks[i]? = some pc) (haccess : logAccess s i r pc = some t) (hturn : t.Apart)
    (hsecond : pc.secondFrame = true → r = .ok) : ∃ first', Streams base first' t := by
  have hout : ¬ pc.Draining → ∀ pc' : LogTaskPc, ¬ pc'.Storing → ¬ pc'.Draining →
      ∃ first', Streams base first' (s.setTask i pc') :=
    fun hold pc' hs hd => ⟨first, h.moveOut hpc hold hs hd⟩
  cases pc with
  | idle => cases haccess
  | push rest =>
      cases rest with
      | nil =>
          obtain rfl := Option.some.inj haccess
          exact hout (fun hd => hd) _ (fun hs => hs) fun hd => hd
      | cons byte rest =>
          obtain rfl := Option.some.inj haccess
          refine ⟨first, h.move hpc ?_ trivial fun hd => absurd hd fun hfalse => hfalse⟩
          change (s.head + 1) % logRingBufSize = _
          rw [h.head_eq, ← place_add]
  | test next byte rest =>
      obtain rfl := Option.some.inj haccess
      exact ⟨first, h.testRoom hpc⟩
  | locate next byte rest =>
      obtain rfl := Option.some.inj haccess
      obtain ⟨hnext, hroom⟩ := h.storeOk i _ hpc
      exact ⟨first, h.move hpc ⟨hnext, hroom, h.head_eq⟩ trivial
        fun hd => absurd hd fun hfalse => hfalse⟩
  | store head next byte rest =>
      unfold logAccess at haccess
      rw [Option.ite_none_right_eq_some] at haccess
      obtain rfl := Option.some.inj haccess.2
      exact ⟨first, h.store hpc (hapart.alone_storing hpc trivial)⟩
  | advance next byte rest =>
      obtain rfl := Option.some.inj haccess
      exact ⟨first, h.advance hpc (hapart.alone_storing hpc trivial)⟩
  | compare =>
      obtain rfl := Option.some.inj haccess
      exact hout (fun hd => hd) _ (fun hs => hs) fun hd => hd
  | compareTail head =>
      obtain rfl := Option.some.inj haccess
      exact hout (fun hd => hd) _ (fun hs => hs) fun hd => hd
  | measure wrapped =>
      obtain rfl := Option.some.inj haccess
      exact hout (fun hd => hd) _ (fun hs => hs) fun hd => hd
  | measureRest wrapped x =>
      obtain rfl := Option.some.inj haccess
      by_cases hmany : logRingBufSize * 3 / 5 <
          usedOf wrapped x (if wrapped then s.head else s.tail)
      · rw [if_pos hmany]
        exact hout (fun hd => hd) _ (fun hs => hs) fun hd => hd
      · rw [if_neg hmany]
        exact hout (fun hd => hd) _ (fun hs => hs) fun hd => hd
  | drain =>
      obtain rfl := Option.some.inj haccess
      exact ⟨first, h.startDrain hpc hturn⟩
  | drainHead tail =>
      obtain rfl := Option.some.inj haccess
      exact ⟨first, h.noteHead hpc⟩
  | send tail head second payload =>
      simp only [logAccess] at haccess
      split at haccess
      · next hmore =>
          obtain ⟨byte, hbyte, rfl⟩ := Option.map_eq_some_iff.mp haccess
          exact ⟨first, h.copy hpc hmore hbyte⟩
      · next hfull =>
          split at haccess
          · obtain rfl := Option.some.inj haccess
            exact ⟨first, h.sent hpc hfull (hapart.alone_draining hpc trivial)⟩
          · next hfailed =>
              -- the first frame was not delivered
              obtain rfl := Option.some.inj haccess
              have hfirst : second = false := by
                cases second with
                | false => rfl
                | true => exact absurd (hsecond rfl) hfailed
              subst hfirst
              obtain ⟨_, _, _, _, _, _, hlen, _⟩ := h.drainOk i _ hpc
              exact ⟨first, h.move hpc trivial trivial fun _ _ => hlen⟩
  | finish head =>
      obtain rfl := Option.some.inj haccess
      exact h.finish hpc (hapart.alone_draining hpc trivial)

theorem logTaskStep_streams {l : LogTaskLabel} (h : Streams base first s) (hapart : s.Apart)
    (hstep : logTaskStep s l = some t) (hturn : t.Apart) (hsecond : SecondSent s l) :
    ∃ first', Streams base first' t := by
  rcases logTaskStep_cases hstep with
    ⟨i, hidle, ⟨data, _, rfl⟩ | ⟨_, rfl⟩⟩ | ⟨i, r, pc, rfl, hpc, haccess⟩
  · exact ⟨first, h.moveOut hidle (fun hd => hd) (fun hs => hs) fun hd => hd⟩
  · exact ⟨first, h.moveOut hidle (fun hd => hd) (fun hs => hs) fun hd => hd⟩
  · exact logAccess_streams h hapart hpc haccess hturn (hsecond pc hpc)

/-! ## Runs -/

theorem run_streams {labels : List LogTaskLabel} (h : Streams base first s)
    (hrun : run logTaskStep s labels = some t)
    (hapart : AllStates logTaskStep LogTasks.Apart s labels)
    (hsecond : AllSteps logTaskStep SecondSent s labels) : ∃ first', Streams base first' t := by
  induction labels generalizing s first with
  | nil =>
      cases hrun
      exact ⟨first, h⟩
  | cons l labels ih =>
      obtain ⟨m, hm, hrest⟩ := run_cons_iff.mp hrun
      have hnext := hapart.2 m hm
      obtain ⟨first', hstreams⟩ :=
        logTaskStep_streams h hapart.head hm hnext.head hsecond.1
      exact ih hstreams hrest hnext (hsecond.2 m hm)

theorem LogTasks.Fresh.streams (h : s.Fresh) : Streams s.head 0 s where
  window :=
    { length_cells := h.length_ring
      first_le := Nat.zero_le _
      fits := by
        rw [h.stored_eq]
        exact logRingBufSize_pos
      holds := by
        intro n _ hn
        rw [h.stored_eq] at hn
        exact absurd hn (Nat.not_lt_zero n) }
  head_eq := by
    rw [h.stored_eq]
    exact (Nat.mod_eq_of_lt h.head_lt).symm
  tail_eq := by
    rw [h.tail_eq]
    exact (Nat.mod_eq_of_lt h.head_lt).symm
  delivered_prefix := by
    rw [h.delivered_eq]
    exact List.nil_prefix
  delivered_length := by
    intro _
    rw [h.delivered_eq]
    rfl
  storeOk := by
    intro j q hj
    rw [h.idle q (List.mem_of_getElem? hj)]
    trivial
  drainOk := by
    intro j q hj
    rw [h.idle q (List.mem_of_getElem? hj)]
    trivial

theorem Streams.pending_eq (h : Streams base first s) : s.pending = s.stored.drop first := by
  rw [← h.window.contents, ← h.head_eq, ← h.tail_eq]
  rfl

/-- However the tasks take turns, as long as at most one at a time stores a byte and at most one
drains, and no drain fails at its second frame: what is delivered is a prefix of what was
stored, and between two drains the rest of it is in the ring.  Every byte is delivered once and
in its place. -/
theorem log_tasks_stream (hfresh : s.Fresh) {labels : List LogTaskLabel}
    (hrun : run logTaskStep s labels = some t)
    (hapart : AllStates logTaskStep LogTasks.Apart s labels)
    (hsecond : AllSteps logTaskStep SecondSent s labels) :
    t.delivered.flatten <+: t.stored ∧
      (t.NoDrain → t.delivered.flatten ++ t.pending = t.stored) := by
  obtain ⟨first, h⟩ := run_streams hfresh.streams hrun hapart hsecond
  refine ⟨h.delivered_prefix, fun hno => ?_⟩
  rw [h.pending_eq, List.prefix_iff_eq_take.mp h.delivered_prefix, h.delivered_length hno]
  exact List.take_append_drop first t.stored

theorem log_tasks_stream_drainBesideStore :
    ∃ t, run logTaskStep twoLogTasks drainBesideStore = some t ∧ t.delivered = [[65]] ∧
      t.delivered.flatten ++ t.pending = t.stored := by
  have hend : ∃ t ∈ run logTaskStep twoLogTasks drainBesideStore,
      t.tasks = [.push [], .idle] ∧ t.delivered = [[65]] := by decide +kernel
  obtain ⟨t, hrun, htasks, hdelivered⟩ := hend
  refine ⟨t, hrun, hdelivered,
    (log_tasks_stream twoLogTasks_fresh hrun (by decide +kernel) (by decide +kernel)).2 ?_⟩
  unfold LogTasks.NoDrain
  rw [htasks]
  decide

end Esp32Deskflow.Web
