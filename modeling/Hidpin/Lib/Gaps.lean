import Mathlib.Order.Interval.Finset.Nat
import Mathlib.Data.List.Chain
import Mathlib.Data.List.Induction

/-! Ascending lists of numbers and the numbers they skip. -/

namespace Hidpin.Lib

/-- How many numbers between the first and the last of a list are not in it. -/
def skipped (is : List ℕ) : ℕ :=
  match is.head?, is.getLast? with
  | some first, some last => (Finset.Icc first last \ is.toFinset).card
  | _, _ => 0

theorem skipped_of_ends {is : List ℕ} {first last : ℕ} (hfirst : is.head? = some first)
    (hlast : is.getLast? = some last) : skipped is = (Finset.Icc first last \ is.toFinset).card := by
  simp [skipped, hfirst, hlast]

/-- The numbers of an ascending list lie between its first and its last. -/
theorem mem_ends {is : List ℕ} (h : is.Pairwise (· < ·)) {first last : ℕ} (hfirst : is.head? = some first)
    (hlast : is.getLast? = some last) : ∀ i ∈ is, first ≤ i ∧ i ≤ last := by
  intro i hi
  constructor
  · obtain ⟨rest, rfl⟩ := List.head?_eq_some_iff.mp hfirst
    rcases List.mem_cons.mp hi with rfl | hi
    · exact le_rfl
    · exact ((List.pairwise_cons.mp h).1 i hi).le
  · obtain ⟨init, rfl⟩ := List.getLast?_eq_some_iff.mp hlast
    rcases List.mem_append.mp hi with hi | hi
    · exact ((List.pairwise_append.mp h).2.2 i hi last (by simp)).le
    · rw [List.mem_singleton.mp hi]

theorem skipped_eq {is : List ℕ} (h : is.Pairwise (· < ·)) {first last : ℕ} (hfirst : is.head? = some first)
    (hlast : is.getLast? = some last) : skipped is + is.length = last + 1 - first := by
  have hsub : is.toFinset ⊆ Finset.Icc first last := fun i hi => by
    rw [Finset.mem_Icc]
    exact mem_ends h hfirst hlast i (List.mem_toFinset.mp hi)
  have hcard : is.toFinset.card = is.length := List.toFinset_card_of_nodup (h.imp fun h => h.ne)
  rw [skipped_of_ends hfirst hlast, ← hcard, Finset.card_sdiff_add_card_eq_card hsub, Nat.card_Icc]

/-- Another number skips those between it and the last one. -/
theorem skipped_concat {is : List ℕ} {i last : ℕ} (h : (is ++ [i]).Pairwise (· < ·))
    (hlast : is.getLast? = some last) : skipped (is ++ [i]) = skipped is + (i - last - 1) := by
  have hpre := List.pairwise_append.mp h
  have hlt : last < i := hpre.2.2 last (List.mem_of_getLast? hlast) i (by simp)
  obtain ⟨first, hfirst⟩ : ∃ first, is.head? = some first := by
    cases is with
    | nil => cases hlast
    | cons a _ => exact ⟨a, rfl⟩
  have hle := (mem_ends hpre.1 hfirst hlast last (List.mem_of_getLast? hlast)).1
  have hold := skipped_eq hpre.1 hfirst hlast
  have hhead : (is ++ [i]).head? = some first := by simp [hfirst]
  have hnew := skipped_eq h hhead List.getLast?_concat
  rw [List.length_append, List.length_singleton] at hnew
  omega

end Hidpin.Lib
