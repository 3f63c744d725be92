import Mathlib.Data.List.Chain

/-! Moments that do not go back and are at most `δ` apart. -/

namespace Hidpin.Lib

/-- Moments that never go back and are at most so far apart. -/
def Paced (δ : ℕ) (l : List ℕ) : Prop := l.IsChain fun a b => a ≤ b ∧ b ≤ a + δ

instance (δ : ℕ) (l : List ℕ) : Decidable (Paced δ l) := inferInstanceAs (Decidable (List.IsChain _ l))

theorem getLastD_append_cons {α : Type*} (l : List α) (b : α) (l' : List α) (a : α) :
    (l ++ b :: l').getLastD a = l'.getLastD b := by
  rw [List.getLastD_eq_getLast?, List.getLast?_append, List.getLast?_cons, Option.some_or, Option.getD_some,
    List.getLastD_eq_getLast?]

namespace Paced
variable {δ : ℕ}

theorem cons_iff {a b : ℕ} {l : List ℕ} : Paced δ (a :: b :: l) ↔ (a ≤ b ∧ b ≤ a + δ) ∧ Paced δ (b :: l) :=
  List.isChain_cons_cons

theorem left {a : ℕ} {l l' : List ℕ} (h : Paced δ (a :: (l ++ l'))) : Paced δ (a :: l) := by
  rw [← List.cons_append] at h
  exact List.IsChain.left_of_append h

/-- How late the last moment can be. -/
theorem getLast_le : ∀ {a : ℕ} {l : List ℕ}, Paced δ (a :: l) → l.getLastD a ≤ a + δ * l.length
  | _, [], _ => Nat.le_add_right _ _
  | a, b :: l, h => by
    obtain ⟨⟨-, hab⟩, hrest⟩ := cons_iff.mp h
    have hlast := getLast_le hrest
    rw [List.getLastD_cons, List.length_cons, Nat.mul_succ]
    omega

/-- A moment that is waited for comes, and at most `δ` late. -/
theorem reaches {a : ℕ} (target : ℕ) :
    ∀ {l : List ℕ}, Paced δ (a :: l) → a < target → target ≤ l.getLastD a →
      ∃ before b after, l = before ++ b :: after ∧ target ≤ b ∧ b ≤ target + δ ∧ Paced δ (b :: after)
  | [], _, hlt, hlast => absurd hlast (Nat.not_le.mpr hlt)
  | b :: l, h, hlt, hlast => by
    obtain ⟨⟨-, hab⟩, hrest⟩ := cons_iff.mp h
    by_cases hb : target ≤ b
    · exact ⟨[], b, l, rfl, hb, by omega, hrest⟩
    · rw [List.getLastD_cons] at hlast
      obtain ⟨before, c, after, rfl, hc⟩ := reaches target hrest (Nat.lt_of_not_le hb) hlast
      exact ⟨b :: before, c, after, rfl, hc⟩

end Paced

end Hidpin.Lib
