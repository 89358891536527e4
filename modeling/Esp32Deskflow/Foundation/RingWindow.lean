/-
  Foundation/RingWindow.lean --- a ring of cells as a window on a growing sequence.

  The items of the sequence are laid around the ring one after the other.  The ring holds
  those from a first one on, fewer than there are cells, so the cell behind the last one is
  free to be written while the others are read.
-/
import Mathlib.Data.List.Basic

set_option autoImplicit false

namespace Esp32Deskflow.Foundation

/-- The cell of the item `i`, if the item 0 goes to `base`. -/
def place (size base i : Nat) : Nat := (base + i) % size

section

variable {size base i j : Nat}

theorem place_lt (h : 0 < size) : place size base i < size := Nat.mod_lt _ h

theorem place_add : place size base (i + j) = (place size base i + j) % size := by
  rw [place, place, Nat.mod_add_mod, Nat.add_assoc]

/-- Items nearer than the size of the ring are in different cells. -/
theorem place_ne (hlt : i < j) (hnear : j < i + size) : place size base i ≠ place size base j := by
  obtain ⟨k, rfl⟩ := Nat.exists_eq_add_of_lt hlt
  have hi : place size base i < size := place_lt (by omega)
  have hadd : place size base (i + k + 1) = (place size base i + (k + 1)) % size := by
    rw [Nat.add_assoc, place_add]
  rw [hadd]
  rcases Nat.lt_or_ge (place size base i + (k + 1)) size with hflat | hwrap
  · rw [Nat.mod_eq_of_lt hflat]
    omega
  · rw [Nat.mod_eq_sub_mod hwrap, Nat.mod_eq_of_lt (by omega)]
    omega

/-- How far it is from the item `i` to the item `j`, read off their cells. -/
theorem place_distance (hle : i ≤ j) (hnear : j < i + size) :
    j - i = if place size base i ≤ place size base j then place size base j - place size base i
      else size - place size base i + place size base j := by
  obtain ⟨k, rfl⟩ := Nat.exists_eq_add_of_le hle
  have hi : place size base i < size := place_lt (by omega)
  rw [place_add]
  rcases Nat.lt_or_ge (place size base i + k) size with hflat | hwrap
  · rw [Nat.mod_eq_of_lt hflat]
    split <;> omega
  · rw [Nat.mod_eq_sub_mod hwrap, Nat.mod_eq_of_lt (by omega)]
    split <;> omega

end

variable {α : Type}

/-- The cells hold the items from `first` on. -/
structure Window (size base : Nat) (cells items : List α) (first : Nat) : Prop where
  length_cells : cells.length = size
  first_le : first ≤ items.length
  fits : items.length < first + size
  holds : ∀ i, first ≤ i → i < items.length → cells[place size base i]? = items[i]?

namespace Window

variable {size base first : Nat} {cells items : List α} {x : α}

theorem size_pos (h : Window size base cells items first) : 0 < size := by
  have hle := h.first_le
  have hfits := h.fits
  omega

/-- The cell behind the last item may be written. -/
theorem write (h : Window size base cells items first) (x : α) :
    Window size base (cells.set (place size base items.length) x) items first where
  length_cells := by rw [List.length_set, h.length_cells]
  first_le := h.first_le
  fits := h.fits
  holds := by
    intro i hfirst hi
    have hfits := h.fits
    rw [List.getElem?_set_ne (place_ne hi (by omega)).symm]
    exact h.holds i hfirst hi

/-- The item written there is taken into the window. -/
theorem grow (h : Window size base cells items first) (hroom : items.length + 1 < first + size)
    (hcell : cells[place size base items.length]? = some x) :
    Window size base cells (items ++ [x]) first where
  length_cells := h.length_cells
  first_le := by
    rw [List.length_append]
    exact Nat.le_add_right_of_le h.first_le
  fits := by rwa [List.length_append]
  holds := by
    intro i hfirst hi
    rw [List.length_append, List.length_singleton] at hi
    rcases Nat.lt_or_ge i items.length with hlt | hge
    · rw [List.getElem?_append_left hlt]
      exact h.holds i hfirst hlt
    · obtain rfl : i = items.length := by omega
      rw [hcell, List.getElem?_concat_length]

/-- The first items may be forgotten. -/
theorem forget (h : Window size base cells items first) {first' : Nat} (hle : first ≤ first')
    (hle' : first' ≤ items.length) : Window size base cells items first' where
  length_cells := h.length_cells
  first_le := hle'
  fits := by
    have hfits := h.fits
    omega
  holds := fun i hi => h.holds i (Nat.le_trans hle hi)

/-- A stretch of cells holds a stretch of items. -/
theorem stretch (h : Window size base cells items first) {i n : Nat} (hfirst : first ≤ i)
    (hlast : i + n ≤ items.length) (hcells : place size base i + n ≤ size) :
    (cells.drop (place size base i)).take n = (items.drop i).take n := by
  refine List.ext_getElem? fun k => ?_
  rcases Nat.lt_or_ge k n with hk | hk
  · rw [List.getElem?_take_of_lt hk, List.getElem?_take_of_lt hk, List.getElem?_drop,
      List.getElem?_drop, ← h.holds (i + k) (by omega) (by omega), place_add,
      Nat.mod_eq_of_lt (by omega)]
  · rw [List.getElem?_take, List.getElem?_take, if_neg (Nat.not_lt.mpr hk),
      if_neg (Nat.not_lt.mpr hk)]

/-- The cells from the place of the first item to that behind the last one, around the end if
need be, hold the items of the window. -/
theorem contents (h : Window size base cells items first) :
    (if place size base first ≤ place size base items.length then
        (cells.drop (place size base first)).take
          (place size base items.length - place size base first)
      else cells.drop (place size base first) ++ cells.take (place size base items.length)) =
      items.drop first := by
  have hle := h.first_le
  have hfits := h.fits
  have hsize := h.size_pos
  have hdistance := @place_distance size base first items.length hle hfits
  have hlast : place size base items.length < size := place_lt hsize
  split
  · next hflat =>
      rw [if_pos hflat] at hdistance
      rw [h.stretch (Nat.le_refl _) (by omega) (by omega), ← hdistance]
      rw [List.take_of_length_le (Nat.le_of_eq List.length_drop)]
  · next hwrap =>
      rw [if_neg hwrap] at hdistance
      have htail : place size base first < size := place_lt hsize
      have hfront := h.stretch (Nat.le_refl _) (n := size - place size base first) (by omega)
        (by omega)
      have hzero : place size base (first + (size - place size base first)) = 0 := by
        rw [place_add, Nat.add_sub_cancel' (Nat.le_of_lt htail), Nat.mod_self]
      have hback := h.stretch (i := first + (size - place size base first))
        (n := place size base items.length) (by omega) (by omega) (by omega)
      rw [hzero, List.drop_zero] at hback
      have hcells : (cells.drop (place size base first)).length =
          size - place size base first := by rw [List.length_drop, h.length_cells]
      rw [List.take_of_length_le (Nat.le_of_eq hcells)] at hfront
      rw [hfront, hback, ← List.drop_drop, List.take_of_length_le
        (l := (items.drop first).drop _) (by rw [List.length_drop, List.length_drop]; omega),
        List.take_append_drop]

end Window

end Esp32Deskflow.Foundation
