import Mathlib.Data.List.Chain
import Hidpin.Lib.Replay

/-! Truth values that flip in turn, as the levels of a line do. -/

namespace Hidpin.Lib

/-- Each value after `b` is the opposite of the one before it, and the last one is `b'`. -/
def Flips (b b' : Bool) (l : List Bool) : Prop := (b :: l).IsChain (· ≠ ·) ∧ (b :: l).getLast? = some b'

instance (b b' : Bool) (l : List Bool) : Decidable (Flips b b' l) := inferInstanceAs (Decidable (_ ∧ _))

variable {b b' b'' : Bool} {l l' : List Bool}

@[simp] theorem flips_nil : Flips b b' [] ↔ b = b' := by simp [Flips]

@[simp] theorem flips_cons (a : Bool) : Flips b b' (a :: l) ↔ a = !b ∧ Flips a b' l := by
  rw [Flips, Flips, List.isChain_cons_cons, List.getLast?_cons_cons, and_assoc, Bool.eq_not, ne_comm]

/-- Flips of two parts meet at the value between them. -/
theorem flips_append : Flips b b'' (l ++ l') ↔ ∃ b', Flips b b' l ∧ Flips b' b'' l' := by
  induction l generalizing b with
  | nil => simp
  | cons a l ih =>
    rw [List.cons_append, flips_cons, ih]
    simp only [flips_cons, and_assoc, exists_and_left]

theorem Flips.getLast (h : Flips b b' l) : l.getLast?.getD b = b' := by
  cases l with
  | nil => exact flips_nil.mp h
  | cons a l =>
    have hlast := h.2
    rw [List.getLast?_cons_cons] at hlast
    rw [hlast]
    rfl

/-- Replaying entries whose values flip ends at the last one. -/
theorem Flips.replay {α κ : Type*} [DecidableEq κ] {key : α → κ} {val : α → Bool} {entries : List α} {k : κ}
    (h : Flips b b' ((entries.filter fun a => decide (key a = k)).map val)) :
    replay key val entries k b = b' := by
  rw [replay_eq_lastOf, lastOf, ← List.getLast?_map]
  exact h.getLast

end Hidpin.Lib
