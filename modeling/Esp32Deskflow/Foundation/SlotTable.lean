/-
  Foundation/SlotTable.lean --- a set kept in an array of fixed size.

  The first slots hold the members, the others a blank.  A member is added behind the
  last one, and removed by moving the last one into its slot.
-/
import Mathlib.Data.List.GetD
import Mathlib.Data.List.Nodup

set_option autoImplicit false

namespace Esp32Deskflow.Foundation.SlotTable

variable {α : Type}

/-- The slots hold `used` and then blanks. -/
def Holds (blank : α) (slots used : List α) : Prop :=
  slots = used ++ List.replicate (slots.length - used.length) blank

variable {blank : α} {slots used : List α}

theorem Holds.length_le (h : Holds blank slots used) : used.length ≤ slots.length := by
  have hlen := congrArg List.length h
  rw [List.length_append] at hlen
  omega

theorem holds_of_append {n : Nat} (h : slots = used ++ List.replicate n blank) :
    Holds blank slots used := by
  unfold Holds
  rw [h, List.length_append, List.length_replicate, Nat.add_sub_cancel_left]

theorem Holds.take (h : Holds blank slots used) : slots.take used.length = used := by
  rw [h, List.take_left]

theorem Holds.drop (h : Holds blank slots used) :
    slots.drop used.length = List.replicate (slots.length - used.length) blank := by
  conv_lhs => rw [h, List.drop_left]

theorem set_at_length (xs : List α) (a b : α) (ys : List α) :
    (xs ++ a :: ys).set xs.length b = xs ++ b :: ys := by
  rw [List.set_append_right xs.length b (Nat.le_refl _), Nat.sub_self, List.set_cons_zero]

/-- Adding a member behind the last one. -/
theorem Holds.add (h : Holds blank slots used) (hroom : used.length < slots.length) (x : α) :
    Holds blank (slots.set used.length x) (used ++ [x]) := by
  obtain ⟨n, hn⟩ : ∃ n, slots.length - used.length = n + 1 :=
    ⟨slots.length - used.length - 1, by omega⟩
  have hslots : slots = used ++ blank :: List.replicate n blank := by
    rw [← List.replicate_succ, ← hn]
    exact h
  have hset : slots.set used.length x = used ++ [x] ++ List.replicate n blank := by
    rw [hslots, set_at_length, List.append_assoc, List.singleton_append]
  exact holds_of_append hset

/-- What is left when the last member moves into slot `i`. -/
def moveLast (blank : α) (used : List α) (i : Nat) : List α :=
  (used.set i (used.getD (used.length - 1) blank)).dropLast

/-- Removing a member by moving the last one into its slot. -/
theorem Holds.remove (h : Holds blank slots used) {i : Nat} (hi : i < used.length) :
    Holds blank
      ((slots.set i (slots.getD (used.length - 1) blank)).set (used.length - 1) blank)
      (moveLast blank used i) := by
  have hlast : slots.getD (used.length - 1) blank = used.getD (used.length - 1) blank := by
    conv_lhs => rw [h]
    rw [List.getD_append _ _ _ _ (by omega)]
  have hset : ∀ x, slots.set i x =
      used.set i x ++ List.replicate (slots.length - used.length) blank := by
    intro x
    conv_lhs => rw [h]
    exact List.set_append_left i x hi
  have hne : used.set i (used.getD (used.length - 1) blank) ≠ [] := by
    intro hnil
    have hlen := congrArg List.length hnil
    rw [List.length_set] at hlen
    rw [hlen] at hi
    exact Nat.not_lt_zero _ hi
  have hlen : (moveLast blank used i).length = used.length - 1 := by
    rw [moveLast, List.length_dropLast, List.length_set]
  have hsplit : ∃ l,
      used.set i (used.getD (used.length - 1) blank) = moveLast blank used i ++ [l] :=
    ⟨_, (List.dropLast_append_getLast hne).symm⟩
  obtain ⟨l, hl⟩ := hsplit
  rw [hlast, hset, hl, List.append_assoc, List.singleton_append, ← hlen, set_at_length,
    ← List.replicate_succ]
  exact holds_of_append rfl

/-- Of distinct members, moving the last one into the slot of `x` removes `x` alone. -/
theorem moveLast_middle (blank : α) {xs ys : List α} {x : α} (hnodup : (xs ++ x :: ys).Nodup) :
    (moveLast blank (xs ++ x :: ys) xs.length).Nodup ∧
      ∀ k, k ∈ moveLast blank (xs ++ x :: ys) xs.length ↔ k ∈ xs ++ x :: ys ∧ k ≠ x := by
  obtain ⟨hx, hrest⟩ := List.nodup_middle.mp hnodup |> List.nodup_cons.mp
  have hmem : ∀ k, k ∈ xs ++ x :: ys ∧ k ≠ x ↔ k ∈ xs ++ ys := by
    intro k
    constructor
    · rintro ⟨hk, hne⟩
      rcases List.mem_append.mp hk with hk | hk
      · exact List.mem_append_left _ hk
      · exact List.mem_append_right _ ((List.mem_cons.mp hk).resolve_left hne)
    · intro hk
      refine ⟨?_, fun hkx => hx (hkx ▸ hk)⟩
      rcases List.mem_append.mp hk with hk | hk
      · exact List.mem_append_left _ hk
      · exact List.mem_append_right _ (List.mem_cons_of_mem _ hk)
  have hperm : (moveLast blank (xs ++ x :: ys) xs.length).Perm (xs ++ ys) := by
    unfold moveLast
    rw [set_at_length]
    rcases List.eq_nil_or_concat ys with rfl | ⟨zs, z, rfl⟩
    · simp
    · have hz : (xs ++ x :: (zs ++ [z])).getD ((xs ++ x :: (zs ++ [z])).length - 1) blank = z := by
        rw [← List.cons_append, ← List.append_assoc, List.length_append, List.length_singleton,
          Nat.add_sub_cancel]
        simp
      rw [List.concat_eq_append, hz, ← List.cons_append, ← List.append_assoc,
        List.dropLast_concat, ← List.append_assoc]
      exact List.perm_middle.trans (List.perm_append_singleton z (xs ++ zs)).symm
  refine ⟨hperm.nodup_iff.mpr hrest, ?_⟩
  intro k
  rw [hmem, hperm.mem_iff]

/-- Of distinct members, moving the last one into slot `i` removes the member of that slot. -/
theorem moveLast_of_nodup (blank : α) (hnodup : used.Nodup) {i : Nat} (hi : i < used.length) :
    (moveLast blank used i).Nodup ∧ ∀ k, k ∈ moveLast blank used i ↔ k ∈ used ∧ k ≠ used[i] := by
  have hsplit : used = used.take i ++ used[i] :: used.drop (i + 1) := by
    conv_lhs => rw [← List.take_append_drop i used, List.drop_eq_getElem_cons hi]
  have htake : (used.take i).length = i := by
    rw [List.length_take]
    exact Nat.min_eq_left (Nat.le_of_lt hi)
  have hmiddle := moveLast_middle blank (hsplit ▸ hnodup)
  rwa [← hsplit, htake] at hmiddle

end Esp32Deskflow.Foundation.SlotTable
