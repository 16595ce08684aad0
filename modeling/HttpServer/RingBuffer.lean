import Mathlib.Algebra.GroupWithZero.Nat
import Mathlib.Data.Fin.Basic
import Mathlib.Logic.Function.Basic

/-!
# A ring that holds a window of a log

`Window ring log first` says that the entries of `log` from position `first` on
lie in the ring, entry `k` in cell `k` modulo the size. Writing into the next cell
keeps the window as long as it is shorter than the ring, and a cell before the
window may be overwritten freely.
-/

namespace RingBuffer

universe u

variable {Entry : Type u} {size : Nat} [NeZero size]

def cell (size : Nat) [NeZero size] (position : Nat) : Fin size := Fin.ofNat size position

def Window (ring : Fin size → Entry) (log : List Entry) (first : Nat) : Prop :=
  ∀ position entry, first ≤ position → log[position]? = some entry →
    ring (cell size position) = entry

theorem cell_val (position : Nat) : (cell size position).val = position % size := rfl

theorem cell_succ (position : Nat) : cell size (position + 1) = cell size position + 1 := by
  apply Fin.ext
  simp only [cell, Fin.val_ofNat, Fin.val_add, Fin.val_one', Nat.add_mod_mod, Nat.mod_add_mod]

theorem cell_ne {left right : Nat} (before : left < right) (near : right < left + size) :
    cell size left ≠ cell size right := by
  intro same
  have equal : left % size = right % size := congrArg Fin.val same
  have difference : (right - left) % size = 0 := Nat.sub_mod_eq_zero_of_mod_eq equal.symm
  rw [Nat.mod_eq_of_lt (by omega)] at difference
  omega

/-- The next entry is written while the window is shorter than the ring. -/
theorem Window.store {ring : Fin size → Entry} {log : List Entry} {first : Nat} (entry : Entry)
    (window : Window ring log first) (room : log.length < first + size) :
    Window (Function.update ring (cell size log.length) entry) log first := by
  intro position found later present
  have inside : position < log.length := (List.getElem?_eq_some_iff.mp present).1
  rw [Function.update_of_ne (cell_ne inside (by omega))]
  exact window position found later present

theorem Window.append {ring : Fin size → Entry} {log : List Entry} {first : Nat} {entry : Entry}
    (window : Window ring log first) (stored : ring (cell size log.length) = entry) :
    Window ring (log ++ [entry]) first := by
  intro position found later present
  by_cases inside : position < log.length
  · rw [List.getElem?_append_left inside] at present
    exact window position found later present
  · rw [List.getElem?_append_right (by omega), List.getElem?_singleton] at present
    split at present
    · have same : position = log.length := by omega
      rw [same, stored]
      exact Option.some.inj present
    · cases present

/-- The first cell of the window is given up and may be overwritten. -/
theorem Window.take {ring : Fin size → Entry} {log : List Entry} {first : Nat} (left : Entry)
    (window : Window ring log first) (room : log.length ≤ first + size) :
    Window (Function.update ring (cell size first) left) log (first + 1) := by
  intro position found later present
  have inside : position < log.length := (List.getElem?_eq_some_iff.mp present).1
  rw [Function.update_of_ne (cell_ne (by omega) (by omega)).symm]
  exact window position found (by omega) present

end RingBuffer
