import Mathlib.Data.List.Basic
import Mathlib.Data.Nat.ModEq
import Mathlib.Logic.Function.Basic

/-! Circular buffers: an array of `cap` slots, the slot of the oldest element and a count. The
    `window` is the list the buffer stands for; pushing appends to it and dropping removes from its
    front as long as the count stays within the capacity. A `Fifo` is what such a buffer is for. -/

namespace Hidpin.Lib
variable {α : Type*} {cap : ℕ} [NeZero cap]

/-- The elements held by a circular buffer, oldest first. -/
def window (items : Fin cap → α) (head count : ℕ) : List α :=
  (List.range count).map fun i => items (Fin.ofNat cap (head + i))

@[simp] theorem window_zero (items : Fin cap → α) (head : ℕ) : window items head 0 = [] := rfl

@[simp] theorem length_window (items : Fin cap → α) (head count : ℕ) :
    (window items head count).length = count := by
  simp [window]

theorem window_succ (items : Fin cap → α) (head count : ℕ) :
    window items head (count + 1) = window items head count ++ [items (Fin.ofNat cap (head + count))] := by
  simp [window, List.range_succ]

theorem getElem?_window (items : Fin cap → α) {head count i : ℕ} (hi : i < count) :
    (window items head count)[i]? = some (items (Fin.ofNat cap (head + i))) := by
  simp [window, hi]

/-- Two slots less than `cap` apart are different. -/
theorem ofNat_ne {i j : ℕ} (hij : i < j) (hj : j < i + cap) : Fin.ofNat cap i ≠ Fin.ofNat cap j := by
  intro h
  have hmod : i % cap = j % cap := by simpa [Fin.ofNat] using congrArg Fin.val h
  have hdvd : cap ∣ j - i := (Nat.modEq_iff_dvd' hij.le).mp hmod
  have := Nat.le_of_dvd (by omega) hdvd
  omega

/-- Writing the slot after the newest element appends it. -/
theorem window_push (items : Fin cap → α) {head count : ℕ} (a : α) (h : count < cap) :
    window (Function.update items (Fin.ofNat cap (head + count)) a) head (count + 1) =
      window items head count ++ [a] := by
  rw [window_succ, Function.update_self]
  congr 1
  refine List.map_congr_left fun i hi => Function.update_of_ne ?_ _ _
  have hi' : i < count := List.mem_range.mp hi
  exact ofNat_ne (by omega) (by omega)

/-- Moving the head forward drops the oldest elements. -/
theorem window_drop (items : Fin cap → α) {head count n : ℕ} (h : n ≤ count) :
    window items ((head + n) % cap) (count - n) = (window items head count).drop n := by
  refine List.ext_getElem? fun i => ?_
  rw [List.getElem?_drop]
  by_cases hi : i < count - n
  · rw [getElem?_window items hi, getElem?_window items (by omega)]
    congr 2
    ext
    simp [Fin.ofNat, Nat.add_assoc]
  · rw [List.getElem?_eq_none (by simpa using hi), List.getElem?_eq_none (by simp; omega)]

/-- A queue of bounded length, and whether an element found no room. -/
structure Fifo (α : Type*) (cap : ℕ) where
  elems : List α
  overflowed : Bool
  bounded : elems.length ≤ cap

namespace Fifo
omit [NeZero cap]

/-- A queue without elements. -/
def empty : Fifo α cap := ⟨[], false, Nat.zero_le cap⟩

/-- Appends an element, or drops it when the queue is full. -/
def push (f : Fifo α cap) (a : α) : Fifo α cap :=
  if h : f.elems.length < cap then ⟨f.elems ++ [a], f.overflowed, by rw [List.length_append]; exact h⟩
  else { f with overflowed := true }

/-- Removes the `n` oldest elements, or all of them. -/
def drop (f : Fifo α cap) (n : ℕ) : Fifo α cap where
  elems := f.elems.drop (min n f.elems.length)
  overflowed := f.overflowed
  bounded := List.length_drop.trans_le ((Nat.sub_le _ _).trans f.bounded)

theorem elems_push (f : Fifo α cap) (a : α) :
    (f.push a).elems = if f.elems.length < cap then f.elems ++ [a] else f.elems := by
  unfold push
  split <;> rfl

theorem overflowed_push (f : Fifo α cap) (a : α) :
    (f.push a).overflowed = (f.overflowed || decide (cap ≤ f.elems.length)) := by
  unfold push
  split
  · next h => simp [h]
  · next h => simp [Nat.not_lt.mp h]

end Fifo

end Hidpin.Lib
