import Mathlib.Data.Nat.ModEq

/-!
# Ring buffers

The part of a ring of cells that starts at some cell and may wrap around its
end, as a list, and what storing cells behind that part does to it.
-/

namespace Horizon
namespace RingBuffer

open List

variable {cell : Type}

/-!
## Positions
-/

/-- The cell that is `i` cells behind `start`. -/
def place (size start i : Nat) : Nat := (start + i) % size

theorem place_lt {size : Nat} (h : 0 < size) (start i : Nat) :
    place size start i < size :=
  Nat.mod_lt _ h

theorem place_of_lt {size start i : Nat} (h : start + i < size) :
    place size start i = start + i :=
  Nat.mod_eq_of_lt h

theorem place_of_wrap {size start i : Nat} (hlow : size <= start + i)
    (hhigh : start + i < 2 * size) : place size start i = start + i - size := by
  unfold place
  rw [Nat.mod_eq_sub_mod hlow, Nat.mod_eq_of_lt (by omega)]

theorem place_place (size start i j : Nat) :
    place size (place size start i) j = place size start (i + j) := by
  unfold place
  rw [Nat.mod_add_mod, Nat.add_assoc]

theorem place_inj {size start i j : Nat} (hi : i < size) (hj : j < size)
    (h : place size start i = place size start j) : i = j := by
  have hmod : i % size = j % size :=
    Nat.ModEq.add_left_cancel' start h
  rwa [Nat.mod_eq_of_lt hi, Nat.mod_eq_of_lt hj] at hmod

/-!
## Windows
-/

/-- The `n` cells from `start` on. -/
def window (cells : Nat -> cell) (size start n : Nat) : List cell :=
  (List.range n).map fun i => cells (place size start i)

theorem length_window (cells : Nat -> cell) (size start n : Nat) :
    (window cells size start n).length = n := by
  unfold window
  rw [length_map, length_range]

theorem window_add (cells : Nat -> cell) (size start m n : Nat) :
    window cells size start (m + n) =
      window cells size start m ++
        window cells size (place size start m) n := by
  unfold window
  rw [range_add, map_append, map_map]
  congr 1
  apply map_congr_left
  intro i _
  show cells _ = cells _
  rw [place_place]

theorem window_congr {cells cells' : Nat -> cell} {size start n : Nat}
    (h : forall i, i < n ->
      cells' (place size start i) = cells (place size start i)) :
    window cells' size start n = window cells size start n := by
  apply map_congr_left
  intro i hi
  exact h i (mem_range.mp hi)

theorem take_window (cells : Nat -> cell) (size start m n : Nat) :
    (window cells size start (m + n)).take m = window cells size start m := by
  rw [window_add]
  exact take_left' (length_window cells size start m)

theorem drop_window (cells : Nat -> cell) (size start m n : Nat) :
    (window cells size start (m + n)).drop m =
      window cells size (place size start m) n := by
  rw [window_add]
  exact drop_left' (length_window cells size start m)

/-!
## Stores
-/

/-- The cells after `n` of them, from `start` on, took the values of
`data`. -/
structure Stores (size start n : Nat) (data cells cells' : Nat -> cell) :
    Prop where
  new : forall i, i < n -> cells' (place size start i) = data i
  old : forall k, k < size -> (forall i, i < n -> k ≠ place size start i) ->
    cells' k = cells k

theorem Stores.window_add {size start m n : Nat} {data cells cells' : Nat -> cell}
    (h : Stores size (place size start m) n data cells cells')
    (hroom : m + n <= size) :
    window cells' size start (m + n) =
      window cells size start m ++ (List.range n).map data := by
  rw [RingBuffer.window_add]
  congr 1
  · apply window_congr
    intro i hi
    apply h.old _ (place_lt (by omega) start i)
    intro j hj heq
    rw [place_place] at heq
    have hsame := place_inj (by omega) (by omega) heq
    omega
  · apply map_congr_left
    intro i hi
    exact h.new i (mem_range.mp hi)

end RingBuffer
end Horizon
