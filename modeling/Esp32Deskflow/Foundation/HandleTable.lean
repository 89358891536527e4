/-
  Foundation/HandleTable.lean --- slots that account for what somebody else has handed out.

  A provider hands out records, each known by its handle, and takes a handle back once.
  The user keeps them in an array of slots and frees a slot when it returns its record.
-/
import Mathlib.Data.Finset.Basic

set_option autoImplicit false

namespace Esp32Deskflow.Foundation.HandleTable

variable {α κ η : Type}

/-! ## The provider -/

/-- Taking a handle back; `none`: no record with this handle is out. -/
def release [DecidableEq η] (handle : κ → η) (live : Finset κ) (h : η) : Option (Finset κ) :=
  if ∃ k ∈ live, handle k = h then some (live.filter fun k => handle k ≠ h) else none

/-- The handle is not the one of a record that is out. -/
def Fresh (handle : κ → η) (live : Finset κ) (h : η) : Prop := ∀ k ∈ live, handle k ≠ h

instance [DecidableEq η] (handle : κ → η) (live : Finset κ) (h : η) :
    Decidable (Fresh handle live h) :=
  inferInstanceAs (Decidable (∀ k ∈ live, handle k ≠ h))

theorem release_of_mem [DecidableEq η] {handle : κ → η} {live : Finset κ} {k : κ} (hk : k ∈ live) :
    release handle live (handle k) = some (live.filter fun l => handle l ≠ handle k) :=
  if_pos ⟨k, hk, rfl⟩

/-- A record that was handed out last and is returned at once leaves the others. -/
theorem release_insert [DecidableEq κ] [DecidableEq η] {handle : κ → η} {live : Finset κ} {k : κ}
    (hfresh : Fresh handle live (handle k)) :
    release handle (insert k live) (handle k) = some live := by
  rw [release_of_mem (Finset.mem_insert_self k live), Finset.filter_insert,
    if_neg (not_not.mpr rfl), Finset.filter_true_of_mem hfresh]

/-! ## The slots -/

/-- The slot holds an entry. -/
def HasEntry (slots : List (Option α)) (i : Nat) (a : α) : Prop := slots[i]? = some (some a)

/-- The records that are out are those of the entries, and no two entries have one handle. -/
structure Accounts (key : Nat → α → κ) (handle : κ → η) (slots : List (Option α))
    (live : Finset κ) : Prop where
  mem_iff : ∀ k, k ∈ live ↔ ∃ i a, HasEntry slots i a ∧ key i a = k
  unique : ∀ {i j a b}, HasEntry slots i a → HasEntry slots j b →
    handle (key i a) = handle (key j b) → i = j

variable {slots : List (Option α)} {i j : Nat} {a b : α}

theorem HasEntry.lt_length (h : HasEntry slots i a) : i < slots.length :=
  (List.getElem?_eq_some_iff.mp h).1

theorem HasEntry.unique (ha : HasEntry slots i a) (hb : HasEntry slots i b) : a = b :=
  Option.some.inj (Option.some.inj (ha.symm.trans hb))

theorem not_hasEntry_of_free (hfree : slots[i]? = some none) : ¬ HasEntry slots i a := by
  intro h
  cases hfree.symm.trans h

theorem hasEntry_set_some_iff (hi : i < slots.length) :
    HasEntry (slots.set i (some b)) j a ↔ j = i ∧ a = b ∨ j ≠ i ∧ HasEntry slots j a := by
  unfold HasEntry
  by_cases hji : j = i
  · subst hji
    rw [List.getElem?_set_self hi]
    simp only [Option.some.injEq, true_and, ne_eq, not_true_eq_false, false_and, or_false]
    exact eq_comm
  · rw [List.getElem?_set_ne (Ne.symm hji)]
    simp only [hji, false_and, ne_eq, not_false_eq_true, true_and, false_or]

theorem hasEntry_set_none_iff : HasEntry (slots.set i none) j a ↔ j ≠ i ∧ HasEntry slots j a := by
  unfold HasEntry
  by_cases hji : j = i
  · subst hji
    refine iff_of_false ?_ fun h => h.1 rfl
    rw [List.getElem?_set_self']
    cases slots[j]? with
    | none => nofun
    | some slot => nofun
  · rw [List.getElem?_set_ne (Ne.symm hji)]
    exact (and_iff_right hji).symm

variable {key : Nat → α → κ} {handle : κ → η} {live : Finset κ}

theorem accounts_replicate (n : Nat) : Accounts key handle (List.replicate n none) ∅ where
  mem_iff k := by
    refine iff_of_false (Finset.notMem_empty k) ?_
    rintro ⟨i, a, hheld, _⟩
    rw [HasEntry, List.getElem?_replicate] at hheld
    split at hheld
    · cases hheld
    · cases hheld
  unique hi := by
    rw [HasEntry, List.getElem?_replicate] at hi
    split at hi
    · cases hi
    · cases hi

/-- Putting a record with a fresh handle into an empty slot. -/
theorem Accounts.fill [DecidableEq κ] (h : Accounts key handle slots live)
    (hfree : slots[i]? = some none) (hfresh : Fresh handle live (handle (key i a))) :
    Accounts key handle (slots.set i (some a)) (insert (key i a) live) := by
  have hi : i < slots.length := (List.getElem?_eq_some_iff.mp hfree).1
  have hother : ∀ {j b}, HasEntry slots j b → handle (key j b) ≠ handle (key i a) :=
    fun {j b} hb => hfresh _ ((h.mem_iff _).mpr ⟨j, b, hb, rfl⟩)
  constructor
  · intro k
    rw [Finset.mem_insert, h.mem_iff]
    constructor
    · rintro (rfl | ⟨j, b, hb, rfl⟩)
      · exact ⟨i, a, (hasEntry_set_some_iff hi).mpr (Or.inl ⟨rfl, rfl⟩), rfl⟩
      · have hji : j ≠ i := fun hji => not_hasEntry_of_free hfree (hji ▸ hb)
        exact ⟨j, b, (hasEntry_set_some_iff hi).mpr (Or.inr ⟨hji, hb⟩), rfl⟩
    · rintro ⟨j, b, hb, rfl⟩
      rcases (hasEntry_set_some_iff hi).mp hb with ⟨rfl, rfl⟩ | ⟨_, hb⟩
      · exact Or.inl rfl
      · exact Or.inr ⟨j, b, hb, rfl⟩
  · intro j l b c hb hc heq
    rcases (hasEntry_set_some_iff hi).mp hb with ⟨hj, hbj⟩ | ⟨_, hbj⟩
    · rcases (hasEntry_set_some_iff hi).mp hc with ⟨hl, _⟩ | ⟨_, hcl⟩
      · exact hj.trans hl.symm
      · rw [hj, hbj] at heq
        exact absurd heq.symm (hother hcl)
    · rcases (hasEntry_set_some_iff hi).mp hc with ⟨hl, hcl⟩ | ⟨_, hcl⟩
      · rw [hl, hcl] at heq
        exact absurd heq (hother hbj)
      · exact h.unique hbj hcl heq

/-- Returning the record of a slot. -/
theorem Accounts.clear [DecidableEq η] (h : Accounts key handle slots live)
    (hheld : HasEntry slots i a) :
    Accounts key handle (slots.set i none)
      (live.filter fun k => handle k ≠ handle (key i a)) := by
  constructor
  · intro k
    rw [Finset.mem_filter, h.mem_iff]
    constructor
    · rintro ⟨⟨j, b, hb, rfl⟩, hne⟩
      have hji : j ≠ i := by
        rintro rfl
        exact hne (by rw [hb.unique hheld])
      exact ⟨j, b, hasEntry_set_none_iff.mpr ⟨hji, hb⟩, rfl⟩
    · rintro ⟨j, b, hb, rfl⟩
      obtain ⟨hji, hb⟩ := hasEntry_set_none_iff.mp hb
      exact ⟨⟨j, b, hb, rfl⟩, fun heq => hji (h.unique hb hheld heq)⟩
  · intro j l b c hb hc
    exact h.unique (hasEntry_set_none_iff.mp hb).2 (hasEntry_set_none_iff.mp hc).2

theorem Accounts.mem (h : Accounts key handle slots live) (hheld : HasEntry slots i a) :
    key i a ∈ live :=
  (h.mem_iff _).mpr ⟨i, a, hheld, rfl⟩

/-- The record of a slot can be returned. -/
theorem Accounts.release [DecidableEq η] (h : Accounts key handle slots live)
    (hheld : HasEntry slots i a) :
    release handle live (handle (key i a)) =
      some (live.filter fun k => handle k ≠ handle (key i a)) :=
  release_of_mem (h.mem hheld)

/-- Nothing is out if all slots are empty. -/
theorem Accounts.eq_empty (h : Accounts key handle slots live)
    (hempty : ∀ i a, ¬ HasEntry slots i a) : live = ∅ := by
  refine Finset.eq_empty_of_forall_notMem ?_
  intro k hk
  obtain ⟨i, a, hheld, _⟩ := (h.mem_iff k).mp hk
  exact hempty i a hheld

end Esp32Deskflow.Foundation.HandleTable
