/-
  Foundation/Ring.lean --- a bounded FIFO kept in a ring of cells.

  The contents run from the tail to the head, around the end of the cells if need be.
  One cell is always left empty, so that equal head and tail mean an empty ring.
-/
import Mathlib.Data.List.Basic

set_option autoImplicit false

namespace Esp32Deskflow.Foundation

/-- A ring of `size` cells with the place of the next write and of the next read. -/
structure Ring (α : Type) (size : Nat) where
  cells : List α
  head : Nat
  tail : Nat
  length_cells : cells.length = size
  head_lt : head < size
  tail_lt : tail < size

namespace Ring

variable {α : Type} {size : Nat}

/-- The first stretch of the contents: up to the head, or to the end of the cells. -/
def front (r : Ring α size) : List α :=
  if r.tail ≤ r.head then (r.cells.drop r.tail).take (r.head - r.tail)
  else r.cells.drop r.tail

/-- The stretch of the contents that has gone around the end. -/
def back (r : Ring α size) : List α := if r.tail ≤ r.head then [] else r.cells.take r.head

/-- What is in the ring, the oldest first. -/
def contents (r : Ring α size) : List α := r.front ++ r.back

/-- The place after the head. -/
def next (r : Ring α size) : Nat := (r.head + 1) % size

/-- There is no place for one more. -/
def Full (r : Ring α size) : Prop := r.next = r.tail

instance (r : Ring α size) : Decidable r.Full := inferInstanceAs (Decidable (_ = _))

/-- Write one cell, without looking whether the ring is full. -/
def put (r : Ring α size) (x : α) : Ring α size where
  cells := r.cells.set r.head x
  head := r.next
  tail := r.tail
  length_cells := by rw [List.length_set, r.length_cells]
  head_lt := Nat.mod_lt _ (Nat.zero_lt_of_lt r.head_lt)
  tail_lt := r.tail_lt

/-- Write until the ring is full. -/
def fill (r : Ring α size) : List α → Ring α size
  | [] => r
  | x :: xs => if r.Full then r else (r.put x).fill xs

/-- Read everything. -/
def clear (r : Ring α size) : Ring α size where
  cells := r.cells
  head := r.head
  tail := r.head
  length_cells := r.length_cells
  head_lt := r.head_lt
  tail_lt := r.head_lt

@[simp] theorem clear_head (r : Ring α size) : r.clear.head = r.head := rfl

@[simp] theorem clear_tail (r : Ring α size) : r.clear.tail = r.head := rfl

@[simp] theorem put_head (r : Ring α size) (x : α) : (r.put x).head = r.next := rfl

@[simp] theorem put_tail (r : Ring α size) (x : α) : (r.put x).tail = r.tail := rfl

theorem contents_clear (r : Ring α size) : r.clear.contents = [] := by
  simp [contents, front, back]

/-! ## How much is in the ring -/

theorem next_of_lt {r : Ring α size} (h : r.head + 1 < size) : r.next = r.head + 1 :=
  Nat.mod_eq_of_lt h

theorem next_of_last {r : Ring α size} (h : r.head + 1 = size) : r.next = 0 := by
  rw [next, h, Nat.mod_self]

theorem length_front (r : Ring α size) :
    r.front.length = if r.tail ≤ r.head then r.head - r.tail else size - r.tail := by
  have hhead := r.head_lt
  have hlen := r.length_cells
  unfold front
  split
  · rw [List.length_take, List.length_drop, hlen]
    omega
  · rw [List.length_drop, hlen]

theorem length_contents (r : Ring α size) :
    r.contents.length =
      if r.tail ≤ r.head then r.head - r.tail else size - r.tail + r.head := by
  have hhead := r.head_lt
  rw [contents, List.length_append, length_front, back]
  split
  · rfl
  · rw [List.length_take, r.length_cells, Nat.min_eq_left (Nat.le_of_lt hhead)]

theorem length_contents_lt (r : Ring α size) : r.contents.length < size := by
  have hhead := r.head_lt
  have htail := r.tail_lt
  rw [length_contents]
  split <;> omega

/-- The ring is full when only one cell is left. -/
theorem full_iff (r : Ring α size) : r.Full ↔ r.contents.length = size - 1 := by
  have hhead := r.head_lt
  have htail := r.tail_lt
  rw [length_contents, Full]
  rcases Nat.lt_or_ge (r.head + 1) size with hlt | hge
  · rw [next_of_lt hlt]
    split <;> omega
  · rw [next_of_last (Nat.le_antisymm hhead hge)]
    split <;> omega

theorem front_ne_nil {r : Ring α size} (h : r.head < r.tail) : r.front ≠ [] := by
  have htail := r.tail_lt
  have hlen := length_front r
  rw [if_neg (Nat.not_le_of_lt h)] at hlen
  intro hnil
  rw [hnil, List.length_nil] at hlen
  omega

/-! ## Writing -/

theorem take_succ_set (l : List α) (x : α) {n : Nat} (h : n < l.length) :
    (l.set n x).take (n + 1) = l.take n ++ [x] := by
  rw [List.take_succ_eq_append_getElem (by rwa [List.length_set]), List.getElem_set_self,
    List.take_set_of_le (Nat.le_refl n)]

/-- A write into a ring that is not full goes behind the contents. -/
theorem contents_put {r : Ring α size} (h : ¬ r.Full) (x : α) :
    (r.put x).contents = r.contents ++ [x] := by
  have hhead := r.head_lt
  have hlen := r.length_cells
  have hput : (r.put x).cells = r.cells.set r.head x := rfl
  have hhead' : (r.put x).head = r.next := rfl
  unfold Full at h
  rcases Nat.lt_or_ge r.head r.tail with hwrap | hflat
  · -- the contents go around the end, and the back grows
    have htail := r.tail_lt
    rw [next_of_lt (by omega)] at hhead' h
    have hwrap' : ¬ r.tail ≤ r.head + 1 := by omega
    simp only [contents, front, back, put_tail, hput, hhead', if_neg hwrap',
      if_neg (Nat.not_le_of_lt hwrap)]
    rw [List.drop_set_of_lt hwrap, take_succ_set _ _ (by omega), List.append_assoc]
  · have hdrop : (r.cells.set r.head x).drop r.tail =
        (r.cells.drop r.tail).set (r.head - r.tail) x := by
      rw [List.drop_set, if_neg (Nat.not_lt_of_le hflat)]
    have hroom : r.head - r.tail < (r.cells.drop r.tail).length := by
      rw [List.length_drop]
      omega
    have hgrow := take_succ_set (r.cells.drop r.tail) x hroom
    simp only [contents, front, back, put_tail, hput, hhead', if_pos hflat, List.append_nil,
      hdrop]
    rcases Nat.lt_or_ge (r.head + 1) size with hlt | hge
    · rw [next_of_lt hlt, if_pos (by omega), if_pos (by omega), List.append_nil, ← hgrow,
        Nat.succ_sub hflat]
    · -- the last cell is written, and the head goes around to the first one
      have hlast : r.head + 1 = size := Nat.le_antisymm hhead hge
      rw [next_of_last hlast] at h ⊢
      rw [if_neg (by omega), if_neg (by omega), List.take_zero, List.append_nil, ← hgrow,
        List.take_of_length_le]
      rw [List.length_set, List.length_drop]
      omega

/-- Filling stores the longest prefix that fits. -/
theorem contents_fill (r : Ring α size) (xs : List α) :
    (r.fill xs).contents = r.contents ++ xs.take (size - 1 - r.contents.length) := by
  induction xs generalizing r with
  | nil => simp [fill]
  | cons x xs ih =>
      rw [fill]
      split
      · next hfull => rw [(full_iff r).mp hfull, Nat.sub_self, List.take_zero, List.append_nil]
      · next hroom =>
          have hlt := length_contents_lt r
          have hne := mt (full_iff r).mpr hroom
          obtain ⟨n, hn⟩ : ∃ n, size - 1 - r.contents.length = n + 1 :=
            ⟨size - 1 - r.contents.length - 1, by omega⟩
          have hn' : size - 1 - (r.put x).contents.length = n := by
            rw [contents_put hroom, List.length_append, List.length_singleton]
            omega
          rw [ih, hn', contents_put hroom, hn, List.take_succ_cons, List.append_assoc,
            List.singleton_append]

theorem fill_of_fits {r : Ring α size} {xs : List α} (h : r.contents.length + xs.length < size) :
    (r.fill xs).head = (r.head + xs.length) % size ∧ (r.fill xs).tail = r.tail := by
  induction xs generalizing r with
  | nil => exact ⟨(Nat.mod_eq_of_lt r.head_lt).symm, rfl⟩
  | cons x xs ih =>
      rw [List.length_cons] at h
      have hroom : ¬ r.Full := by
        rw [full_iff]
        omega
      have hput : (r.put x).contents.length + xs.length < size := by
        rw [contents_put hroom, List.length_append, List.length_singleton]
        omega
      obtain ⟨hhead, htail⟩ := ih hput
      rw [fill, if_neg hroom]
      refine ⟨?_, htail⟩
      rw [hhead, put_head, next, Nat.mod_add_mod, List.length_cons, Nat.add_assoc, Nat.add_comm 1]

end Ring

end Esp32Deskflow.Foundation
