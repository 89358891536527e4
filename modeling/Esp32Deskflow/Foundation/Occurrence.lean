/-
  Foundation/Occurrence.lean --- the first occurrence of a list in a list.

  A search for a pattern that begins with a mark passes over everything without that
  mark.  At a mark the pattern is there or the search goes on behind it.
-/
import Mathlib.Data.List.Infix

set_option autoImplicit false

namespace Esp32Deskflow.Foundation

variable {α : Type}

/-- Up to the first mark two texts agree or not. -/
theorem prefix_mark_iff {mark : α} {key text a b : List α} (hkey : mark ∉ key)
    (htext : mark ∉ text) :
    key ++ mark :: a <+: text ++ mark :: b ↔ key = text ∧ a <+: b := by
  induction key generalizing text with
  | nil =>
      cases text with
      | nil => simp
      | cons t text =>
          have ht : mark ≠ t := fun heq => htext (heq ▸ List.mem_cons_self)
          simp [ht]
  | cons k key ih =>
      obtain ⟨hk, hkey'⟩ := not_or.mp (mt List.mem_cons.mpr hkey)
      cases text with
      | nil => simp [Ne.symm hk]
      | cons t text =>
          obtain ⟨_, htext'⟩ := not_or.mp (mt List.mem_cons.mpr htext)
          rw [List.cons_append, List.cons_append, List.cons_prefix_cons, ih hkey' htext',
            List.cons.injEq, and_assoc]

variable [DecidableEq α]

/-- Where the pattern occurs first. -/
def indexOf (pat : List α) : List α → Option Nat
  | [] => if pat = [] then some 0 else none
  | c :: s => if pat <+: c :: s then some 0 else (indexOf pat s).map (· + 1)

/-- What follows the first occurrence of the pattern. -/
def after (pat s : List α) : Option (List α) :=
  (indexOf pat s).map fun n => s.drop (n + pat.length)

/-! ## Occurrences -/

/-- A found pattern stands where it was found. -/
theorem indexOf_eq_some {pat s : List α} {n : Nat} (h : indexOf pat s = some n) :
    ∃ front rest, s = front ++ (pat ++ rest) ∧ front.length = n := by
  induction s generalizing n with
  | nil =>
      obtain ⟨rfl, hn⟩ := Option.ite_none_right_eq_some.mp h
      exact ⟨[], [], rfl, Option.some.inj hn⟩
  | cons c s ih =>
      unfold indexOf at h
      split at h
      · rename_i hprefix
        obtain ⟨rest, hrest⟩ := hprefix
        exact ⟨[], rest, hrest.symm, Option.some.inj h⟩
      · obtain ⟨k, hk, rfl⟩ := Option.map_eq_some_iff.mp h
        obtain ⟨front, rest, rfl, rfl⟩ := ih hk
        exact ⟨c :: front, rest, rfl, rfl⟩

theorem indexOf_le {pat s : List α} {n : Nat} (h : indexOf pat s = some n) :
    n + pat.length ≤ s.length := by
  obtain ⟨front, rest, rfl, rfl⟩ := indexOf_eq_some h
  simp only [List.length_append]
  omega

/-- What follows an occurrence begins inside the text. -/
theorem after_eq_some {pat s rest : List α} (h : after pat s = some rest) :
    ∃ n, indexOf pat s = some n ∧ n + pat.length ≤ s.length ∧ s.drop (n + pat.length) = rest := by
  obtain ⟨n, hn, hrest⟩ := Option.map_eq_some_iff.mp h
  exact ⟨n, hn, indexOf_le hn, hrest⟩

/-- The first mark stands behind what has no mark. -/
theorem idxOf_append_mark {mark : α} {front : List α} (h : mark ∉ front) (rest : List α) :
    (front ++ mark :: rest).idxOf? mark = some front.length := by
  induction front with
  | nil => simp [List.idxOf?_cons]
  | cons c front ih =>
      obtain ⟨hc, hfront⟩ := not_or.mp (mt List.mem_cons.mpr h)
      simp [List.idxOf?_cons, Ne.symm hc, ih hfront]

/-! ## Searching for a pattern that begins with a mark -/

variable {mark : α} {tail rest : List α}

theorem after_cons_of_not_prefix {pat : List α} {c : α} (h : ¬ pat <+: c :: rest) :
    after pat (c :: rest) = after pat rest := by
  rw [after, after, indexOf, if_neg h, Option.map_map]
  refine Option.map_congr fun n _ => ?_
  rw [Function.comp_apply, Nat.add_right_comm]
  rfl

/-- The search passes over what is not the mark. -/
theorem after_cons_of_ne {c : α} (h : c ≠ mark) :
    after (mark :: tail) (c :: rest) = after (mark :: tail) rest :=
  after_cons_of_not_prefix fun hprefix => h (List.cons_prefix_cons.mp hprefix).1.symm


theorem after_append_of_not_mem {front : List α} (h : mark ∉ front) :
    after (mark :: tail) (front ++ rest) = after (mark :: tail) rest := by
  induction front with
  | nil => rfl
  | cons c front ih =>
      obtain ⟨hc, hfront⟩ := not_or.mp (mt List.mem_cons.mpr h)
      rw [List.cons_append, after_cons_of_ne (Ne.symm hc), ih hfront]

/-- A mark that the rest of the pattern does not follow. -/
theorem after_mark_of_not_prefix (h : ¬ tail <+: rest) :
    after (mark :: tail) (mark :: rest) = after (mark :: tail) rest :=
  after_cons_of_not_prefix fun hprefix => h (List.cons_prefix_cons.mp hprefix).2

/-- A mark that the rest of the pattern follows. -/
theorem after_mark_append : after (mark :: tail) (mark :: (tail ++ rest)) = some rest := by
  have hprefix : mark :: tail <+: mark :: (tail ++ rest) := ⟨rest, rfl⟩
  rw [after, indexOf, if_pos hprefix, Option.map_some, Nat.zero_add]
  exact congrArg some (@List.drop_left _ (mark :: tail) rest)

/-- Behind what has no mark the pattern is found at its mark. -/
theorem indexOf_append_mark {front : List α} (h : mark ∉ front) :
    indexOf (mark :: tail) (front ++ mark :: (tail ++ rest)) = some front.length := by
  induction front with
  | nil => exact if_pos ⟨rest, rfl⟩
  | cons c front ih =>
      obtain ⟨hc, hfront⟩ := not_or.mp (mt List.mem_cons.mpr h)
      have hpass : ¬ mark :: tail <+: c :: (front ++ mark :: (tail ++ rest)) := fun hprefix =>
        hc (List.cons_prefix_cons.mp hprefix).1
      rw [List.cons_append, indexOf, if_neg hpass, ih hfront]
      rfl

end Esp32Deskflow.Foundation
