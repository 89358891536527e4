/-
  Foundation/History.lean --- properties of histories that only grow at their end.

  A history is the list of the events so far.  A property of all its events is kept
  by an append if the new events have it; nothing has to be said again about the
  old ones.
-/
import Mathlib.Data.List.Basic

set_option autoImplicit false

namespace Esp32Deskflow.Foundation.History

variable {α : Type}

/-- A place in an appended list is a place in one of the two parts. -/
theorem append_eq_append_cons {l es before after : List α} {e : α}
    (h : l ++ es = before ++ e :: after) :
    (∃ mid, l = before ++ e :: mid ∧ after = mid ++ es) ∨
      (∃ mid, before = l ++ mid ∧ es = mid ++ e :: after) := by
  rcases List.append_eq_append_iff.mp h with ⟨mid, hbefore, hes⟩ | ⟨mid, hl, hafter⟩
  · exact Or.inr ⟨mid, hbefore, hes⟩
  · cases mid with
    | nil =>
        refine Or.inr ⟨[], ?_, ?_⟩
        · rw [List.append_nil, hl, List.append_nil]
        · exact hafter.symm
    | cons x mid =>
        rw [List.cons_append] at hafter
        obtain ⟨hx, hrest⟩ := List.cons.inj hafter
        subst hx
        exact Or.inl ⟨mid, hl, hrest⟩

/-! ## What holds before every event -/

/-- Every event stands in the relation `P` to what happened before it. -/
def Always (P : List α → α → Prop) (history : List α) : Prop :=
  ∀ before e after, history = before ++ e :: after → P before e

theorem always_nil (P : List α → α → Prop) : Always P [] := by
  intro before e after h
  simp at h

theorem Always.append {P : List α → α → Prop} {history es : List α} (h : Always P history)
    (hes : ∀ before e after, es = before ++ e :: after → P (history ++ before) e) :
    Always P (history ++ es) := by
  intro before e after hsplit
  rcases append_eq_append_cons hsplit with ⟨mid, hl, _⟩ | ⟨mid, rfl, hmid⟩
  · exact h before e mid hl
  · exact hes mid e after hmid

/-- Events that `P` says nothing about can be appended. -/
theorem Always.append_of_forall {P : List α → α → Prop} {history es : List α}
    (h : Always P history) (hes : ∀ e ∈ es, ∀ before, P before e) :
    Always P (history ++ es) := by
  refine h.append fun before e after hsplit => hes e ?_ _
  rw [hsplit]
  simp

theorem Always.concat {P : List α → α → Prop} {history : List α} {e : α}
    (h : Always P history) (he : P history e) : Always P (history ++ [e]) := by
  refine h.append fun before e' after hsplit => ?_
  rcases List.append_eq_singleton_iff.mp hsplit.symm with ⟨rfl, he'⟩ | ⟨_, hnil⟩
  · cases he'
    rwa [List.append_nil]
  · cases hnil

theorem Always.left {P : List α → α → Prop} {history es : List α}
    (h : Always P (history ++ es)) : Always P history := by
  intro before e after hsplit
  refine h before e (after ++ es) ?_
  rw [hsplit, List.append_assoc, List.cons_append]

theorem always_concat_iff {P : List α → α → Prop} {history : List α} {e : α} :
    Always P (history ++ [e]) ↔ Always P history ∧ P history e :=
  ⟨fun h => ⟨h.left, h history e [] rfl⟩, fun h => h.1.concat h.2⟩

theorem always_cons_iff {P : List α → α → Prop} {history : List α} {e : α} :
    Always P (e :: history) ↔ P [] e ∧ Always (fun before => P (e :: before)) history := by
  constructor
  · refine fun h => ⟨h [] e history rfl, fun before e' after hsplit => ?_⟩
    exact h (e :: before) e' after (congrArg (e :: ·) hsplit)
  · rintro ⟨hfirst, hrest⟩ before e' after hsplit
    cases before with
    | nil =>
        cases hsplit
        exact hfirst
    | cons x before =>
        obtain ⟨rfl, htail⟩ := List.cons.inj hsplit
        exact hrest before e' after htail

instance decidableAlways : {P : List α → α → Prop} → [∀ before e, Decidable (P before e)] →
    (history : List α) → Decidable (Always P history)
  | P, _, [] => isTrue (always_nil P)
  | P, _, e :: history =>
      have : Decidable (Always (fun before => P (e :: before)) history) := decidableAlways history
      decidable_of_iff _ always_cons_iff.symm

/-! ## What holds around every marked event -/

/-- For every `p` event, `Q` holds of what happened before and after it. -/
def AtEach (p : α → Prop) (Q : List α → List α → Prop) (history : List α) : Prop :=
  ∀ before e after, history = before ++ e :: after → p e → Q before after

variable {p : α → Prop} {Q : List α → List α → Prop}

theorem atEach_nil : AtEach p Q [] := by
  intro before e after h
  simp at h

/-- Appending to a history: the old marks keep `Q`, which does not mind later events, and
the new ones have it. -/
theorem AtEach.append {history es : List α}
    (hmono : ∀ before after es, Q before after → Q before (after ++ es))
    (h : AtEach p Q history)
    (hes : ∀ before e after, es = before ++ e :: after → p e → Q (history ++ before) after) :
    AtEach p Q (history ++ es) := by
  intro before e after hsplit he
  rcases append_eq_append_cons hsplit with ⟨mid, hl, rfl⟩ | ⟨mid, rfl, hmid⟩
  · exact hmono before mid es (h before e mid hl he)
  · exact hes mid e after hmid he

theorem AtEach.append_of_forall {history es : List α}
    (hmono : ∀ before after es, Q before after → Q before (after ++ es))
    (h : AtEach p Q history) (hes : ∀ e ∈ es, ¬ p e) : AtEach p Q (history ++ es) := by
  refine h.append hmono fun before e after hsplit he => absurd he (hes e ?_)
  rw [hsplit]
  simp

/-- One more mark, with what followed it. -/
theorem AtEach.append_cons {history es : List α} {e : α}
    (hmono : ∀ before after es, Q before after → Q before (after ++ es))
    (h : AtEach p Q history) (he : Q history es) (hes : ∀ a ∈ es, ¬ p a) :
    AtEach p Q (history ++ e :: es) := by
  refine h.append hmono fun before e' after hsplit he' => ?_
  cases before with
  | nil =>
      rw [List.nil_append] at hsplit
      cases hsplit
      rwa [List.append_nil]
  | cons x before =>
      obtain ⟨_, hrest⟩ := List.cons.inj hsplit
      refine absurd he' (hes e' ?_)
      rw [hrest]
      simp

/-! ## Cutting a history at marked events -/

/-- Append an event to the last segment, or end the segment at a mark. -/
def addToCut (mark : α → Bool) (cut : List (List α) × List α) (e : α) :
    List (List α) × List α :=
  if mark e then (cut.1 ++ [cut.2], []) else (cut.1, cut.2 ++ [e])

/-- The segments between the marks, and the segment after the last mark. -/
def cut (mark : α → Bool) (history : List α) : List (List α) × List α :=
  history.foldl (addToCut mark) ([], [])

variable {mark : α → Bool}

theorem cut_concat (history : List α) (e : α) :
    cut mark (history ++ [e]) = addToCut mark (cut mark history) e := by
  rw [cut, List.foldl_append]
  rfl

theorem cut_append_of_forall {history es : List α} (hes : ∀ e ∈ es, mark e = false) :
    cut mark (history ++ es) = ((cut mark history).1, (cut mark history).2 ++ es) := by
  induction es generalizing history with
  | nil => simp
  | cons e es ih =>
      have he := hes e List.mem_cons_self
      have hrest := @ih (history ++ [e]) fun a ha => hes a (List.mem_cons_of_mem e ha)
      rw [List.append_cons, hrest, cut_concat]
      simp [addToCut, he]

end Esp32Deskflow.Foundation.History
