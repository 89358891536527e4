/-
  Foundation/Since.lean --- the part of a history since its last mark.

  Two histories that end in the same events have the same part since the last mark, as
  soon as a mark is among those events.  So a queue that hands on what was put in can lose
  what stands before a mark, and nobody who looks back to the mark only will notice.
-/
import Esp32Deskflow.Foundation.History
import Mathlib.Data.List.Induction

set_option autoImplicit false

namespace Esp32Deskflow.Foundation.History

variable {α : Type} {mark : α → Bool} {history history' es : List α} {e : α}

/-- What came after the last mark, everything if there is none. -/
def since (mark : α → Bool) (history : List α) : List α := (cut mark history).2

theorem since_concat_mark (h : mark e = true) : since mark (history ++ [e]) = [] := by
  rw [since, cut_concat, addToCut, if_pos h]

theorem since_concat (h : mark e = false) :
    since mark (history ++ [e]) = since mark history ++ [e] := by
  rw [since, cut_concat, addToCut, if_neg (by simp [h])]
  rfl

theorem since_append (h : ∀ e ∈ es, mark e = false) :
    since mark (history ++ es) = since mark history ++ es := by
  rw [since, cut_append_of_forall h]
  rfl

/-- What follows does not bring back a difference. -/
theorem since_append_congr (h : since mark history = since mark history') (es : List α) :
    since mark (history ++ es) = since mark (history' ++ es) := by
  induction es generalizing history history' with
  | nil => rwa [List.append_nil, List.append_nil]
  | cons e es ih =>
      rw [List.append_cons, List.append_cons history']
      apply ih
      cases he : mark e with
      | true => rw [since_concat_mark he, since_concat_mark he]
      | false => rw [since_concat he, since_concat he, h]

/-- A mark makes all histories before it the same. -/
theorem since_append_of_mem (h : ∃ e ∈ es, mark e = true) (history history' : List α) :
    since mark (history ++ es) = since mark (history' ++ es) := by
  obtain ⟨e, he, hmark⟩ := h
  obtain ⟨before, after, rfl⟩ := List.append_of_mem he
  have hsame : since mark (history ++ before ++ [e]) = since mark (history' ++ before ++ [e]) := by
    rw [since_concat_mark hmark, since_concat_mark hmark]
  simpa using since_append_congr hsame after

theorem mem_since (h : e ∈ since mark history) : mark e = false := by
  induction history using List.reverseRecOn with
  | nil => cases h
  | append_singleton history x ih =>
      cases hx : mark x with
      | true =>
          rw [since_concat_mark hx] at h
          cases h
      | false =>
          rw [since_concat hx, List.mem_append, List.mem_singleton] at h
          rcases h with h | rfl
          · exact ih h
          · exact hx

end Esp32Deskflow.Foundation.History
