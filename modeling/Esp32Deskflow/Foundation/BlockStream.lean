/-
  Foundation/BlockStream.lean --- blocks written to a stream that may take less than it
  is given.

  A write hands one block to the stream, which accepts a number of its first elements.
  If all writes but the last one are complete, the stream holds whole blocks and, behind
  them, at most a proper prefix of the last one.

  A stream of words none of which begins another one comes apart in one way only: of two
  lists of words that both begin the same stream, the shorter one begins the longer one.
-/
import Mathlib.Data.List.Basic

set_option autoImplicit false

namespace Esp32Deskflow.Foundation

variable {α : Type}

/-- A block given to the stream, and how many of its elements were accepted. -/
structure BlockWrite (α : Type) where
  block : List α
  accepted : Nat
  deriving DecidableEq, Repr

namespace BlockWrite

/-- The whole block was accepted. -/
def Complete (write : BlockWrite α) : Prop := write.accepted = write.block.length

/-- What the stream has accepted. -/
def stream (writes : List (BlockWrite α)) : List α :=
  writes.flatMap fun write => write.block.take write.accepted

/-- The blocks given to the stream. -/
def blocks (writes : List (BlockWrite α)) : List (List α) := writes.map BlockWrite.block

/-- Only the last write may be incomplete. -/
structure CutAtEnd (writes : List (BlockWrite α)) : Prop where
  complete : ∀ write ∈ writes.dropLast, write.Complete
  le : ∀ write ∈ writes, write.accepted ≤ write.block.length

theorem cutAtEnd_nil : CutAtEnd ([] : List (BlockWrite α)) := ⟨by simp, by simp⟩

theorem CutAtEnd.concat {writes : List (BlockWrite α)} {write : BlockWrite α}
    (h : CutAtEnd writes) (hcomplete : ∀ write ∈ writes, write.Complete)
    (hle : write.accepted ≤ write.block.length) : CutAtEnd (writes ++ [write]) := by
  refine ⟨?_, ?_⟩
  · rw [List.dropLast_concat]
    exact hcomplete
  · intro write' hmem
    rcases List.mem_append.mp hmem with hmem | hmem
    · exact h.le write' hmem
    · rw [List.mem_singleton.mp hmem]
      exact hle

/-- Complete writes leave their blocks. -/
theorem stream_of_complete {writes : List (BlockWrite α)}
    (hcomplete : ∀ write ∈ writes, write.Complete) : stream writes = (blocks writes).flatten := by
  induction writes with
  | nil => rfl
  | cons write writes ih =>
      have hfirst : write.accepted = write.block.length := hcomplete write List.mem_cons_self
      have hrest := ih fun write' hmem => hcomplete write' (List.mem_cons_of_mem write hmem)
      unfold stream blocks at hrest ⊢
      rw [List.flatMap_cons, List.map_cons, List.flatten_cons, hrest, hfirst, List.take_length]

/-- Whole blocks, or whole blocks and a proper prefix of the last one. -/
def WholeThenCut (blocks : List (List α)) (stream : List α) : Prop :=
  stream = blocks.flatten ∨
    ∃ whole last part, blocks = whole ++ [last] ∧ part <+: last ∧ part ≠ last ∧
      stream = whole.flatten ++ part

theorem CutAtEnd.wholeThenCut {writes : List (BlockWrite α)} (h : CutAtEnd writes) :
    WholeThenCut (blocks writes) (stream writes) := by
  rcases List.eq_nil_or_concat writes with rfl | ⟨before, last, rfl⟩
  · exact Or.inl rfl
  · rw [List.concat_eq_append] at h ⊢
    have hbefore : ∀ write ∈ before, write.Complete := by
      intro write hmem
      refine h.complete write ?_
      rwa [List.dropLast_concat]
    have hstream : stream (before ++ [last]) =
        (blocks before).flatten ++ last.block.take last.accepted := by
      rw [← stream_of_complete hbefore, stream, List.flatMap_append]
      simp [stream]
    have hblocks : blocks (before ++ [last]) = blocks before ++ [last.block] := List.map_append
    rw [hstream, hblocks]
    by_cases hlast : last.Complete
    · refine Or.inl ?_
      have hlen : last.accepted = last.block.length := hlast
      rw [hlen, List.take_length, List.flatten_append]
      simp
    · refine Or.inr ⟨blocks before, last.block, last.block.take last.accepted, rfl,
        List.take_prefix _ _, ?_, rfl⟩
      intro hwhole
      have hlen := congrArg List.length hwhole
      rw [List.length_take, Nat.min_eq_left (h.le last (by simp))] at hlen
      exact hlast hlen

end BlockWrite

/-! ## Words none of which begins another one -/

variable {IsWord : List α → Prop}

/-- No word is the beginning of another one. -/
def PrefixFree (IsWord : List α → Prop) : Prop :=
  ∀ x y, IsWord x → IsWord y → x <+: y → x = y

/-- Two words that begin the same stream are the same. -/
theorem PrefixFree.eq_of_prefix (h : PrefixFree IsWord) {x y stream : List α} (hx : IsWord x)
    (hy : IsWord y) (hxs : x <+: stream) (hys : y <+: stream) : x = y := by
  rcases List.prefix_or_prefix_of_prefix hxs hys with hxy | hyx
  · exact h x y hx hy hxy
  · exact (h y x hy hx hyx).symm

theorem PrefixFree.prefix_of_flatten (h : PrefixFree IsWord) {xs : List (List α)} :
    ∀ {ys : List (List α)} {stream : List α}, (∀ x ∈ xs, IsWord x) → (∀ y ∈ ys, IsWord y) →
      xs.flatten <+: stream → ys.flatten <+: stream → xs.length ≤ ys.length → xs <+: ys := by
  induction xs with
  | nil =>
      intro ys stream _ _ _ _ _
      exact List.nil_prefix
  | cons x xs ih =>
      intro ys stream hxs hys hxstream hystream hlen
      cases ys with
      | nil => exact absurd hlen (Nat.not_succ_le_zero _)
      | cons y ys =>
          rw [List.flatten_cons] at hxstream hystream
          have hxy : x = y := h.eq_of_prefix (hxs x List.mem_cons_self) (hys y List.mem_cons_self)
            ((List.prefix_append _ _).trans hxstream) ((List.prefix_append _ _).trans hystream)
          subst hxy
          obtain ⟨rest, rfl⟩ := (List.prefix_append _ _).trans hxstream
          have hrest : xs <+: ys := ih (fun z hz => hxs z (List.mem_cons_of_mem x hz))
            (fun z hz => hys z (List.mem_cons_of_mem x hz))
            ((List.prefix_append_right_inj x).mp hxstream)
            ((List.prefix_append_right_inj x).mp hystream) (Nat.le_of_succ_le_succ hlen)
          exact List.cons_prefix_cons.mpr ⟨rfl, hrest⟩

end Esp32Deskflow.Foundation
