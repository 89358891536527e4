/-
  Foundation/HandleLog.lean --- what a user does with the handles of a provider.

  The user acquires a handle, uses it, and releases it.  A log of these calls is served by a
  provider that refuses a handle which is not out, so a log that is served uses and releases
  nothing it does not hold.
-/
import Esp32Deskflow.Foundation.Transition
import Mathlib.Data.Finset.Basic

set_option autoImplicit false

namespace Esp32Deskflow.Foundation.HandleLog

open Esp32Deskflow.Foundation.Transition

/-- A call about a handle. -/
inductive HandleCall (η : Type) where
  | acquire (h : η)
  | use (h : η)
  | release (h : η)
  deriving DecidableEq, Repr

variable {η : Type} [DecidableEq η]

/-- The handles that are out after a call; `none`: one is handed out that is out, or used or
released that is not. -/
def serve (live : Finset η) : HandleCall η → Option (Finset η)
  | .acquire h => if h ∈ live then none else some (insert h live)
  | .use h => if h ∈ live then some live else none
  | .release h => if h ∈ live then some (live.erase h) else none

variable {live live' : Finset η} {h : η} {calls : List (HandleCall η)}

theorem run_acquire (hnew : h ∉ live) (calls : List (HandleCall η)) :
    run serve live (.acquire h :: calls) = run serve (insert h live) calls := by
  rw [run, serve, if_neg hnew, Option.bind_some]

theorem run_use (hlive : h ∈ live) (calls : List (HandleCall η)) :
    run serve live (.use h :: calls) = run serve live calls := by
  rw [run, serve, if_pos hlive, Option.bind_some]

theorem run_release (hlive : h ∈ live) (calls : List (HandleCall η)) :
    run serve live (.release h :: calls) = run serve (live.erase h) calls := by
  rw [run, serve, if_pos hlive, Option.bind_some]

/-- A handle is released as often as it is acquired, but for its being out. -/
theorem count_acquire (hrun : run serve live calls = some live') (h : η) :
    calls.count (.acquire h) + (if h ∈ live then 1 else 0) =
      calls.count (.release h) + (if h ∈ live' then 1 else 0) := by
  induction calls generalizing live with
  | nil =>
      cases hrun
      rfl
  | cons call calls ih =>
      obtain ⟨m, hm, hrest⟩ := run_cons_iff.mp hrun
      have hcounts := ih hrest
      cases call with
      | acquire k =>
          obtain ⟨hnew, rfl⟩ : k ∉ live ∧ insert k live = m := by simpa [serve] using hm
          simp only [List.count_cons, beq_iff_eq, HandleCall.acquire.injEq, reduceCtorEq, if_false,
            Nat.add_zero]
          by_cases hk : k = h
          · subst hk
            rw [if_pos (Finset.mem_insert_self k live)] at hcounts
            rw [if_pos rfl, if_neg hnew]
            exact hcounts
          · have hmem : h ∈ insert k live ↔ h ∈ live := by
              rw [Finset.mem_insert, or_iff_right (Ne.symm hk)]
            simp only [hmem] at hcounts
            rw [if_neg hk]
            exact hcounts
      | use k =>
          obtain ⟨_, rfl⟩ : k ∈ live ∧ live = m := by simpa [serve] using hm
          simp only [List.count_cons, beq_iff_eq, reduceCtorEq, if_false, Nat.add_zero]
          exact hcounts
      | release k =>
          obtain ⟨hlive, rfl⟩ : k ∈ live ∧ live.erase k = m := by simpa [serve] using hm
          simp only [List.count_cons, beq_iff_eq, HandleCall.release.injEq, reduceCtorEq, if_false,
            Nat.add_zero]
          by_cases hk : k = h
          · subst hk
            rw [if_neg (Finset.notMem_erase k live)] at hcounts
            rw [if_pos rfl, if_pos hlive]
            omega
          · have hmem : h ∈ live.erase k ↔ h ∈ live := by
              rw [Finset.mem_erase, and_iff_right (Ne.symm hk)]
            simp only [hmem] at hcounts
            rw [if_neg hk]
            exact hcounts

end Esp32Deskflow.Foundation.HandleLog
