import Mathlib.Data.List.FinRange
import Mathlib.Logic.Function.Basic

/-! Machine words as sets of bit numbers, and loops over an initial segment of the bit numbers. -/

namespace Hidpin.Lib
variable {w k : ℕ}

/-- The word with only bit `n`. -/
def bit (w n : ℕ) : BitVec w := 1#w <<< n

/-- The word with bit `n` set or cleared. -/
def putBit (m : BitVec w) (n : ℕ) (b : Bool) : BitVec w :=
  if b then m ||| bit w n else m &&& ~~~bit w n

/-- The word collected by a loop that sets the bits below `k` that satisfy `p`. -/
def collect (w : ℕ) (p : Fin k → Bool) : BitVec w :=
  (List.finRange k).foldl (fun m n => if p n then m ||| bit w n else m) 0#w

/-- Every bit of one word is a bit of the other. -/
def Within (a b : BitVec w) : Prop := ∀ i, a.getLsbD i = true → b.getLsbD i = true

theorem within_and_right (a b : BitVec w) : Within (a &&& b) b := fun i hi => by
  rw [BitVec.getLsbD_and] at hi
  exact (Bool.and_eq_true_iff.mp hi).2

theorem getLsbD_bit {n i : ℕ} (hi : i < w) : (bit w n).getLsbD i = decide (i = n) := by
  rw [bit, BitVec.getLsbD_shiftLeft, BitVec.getLsbD_one]
  by_cases h : i = n
  · subst h; simp [hi]; omega
  · have : (decide (i < n) = true) ∨ i - n ≠ 0 := by
      by_cases hlt : i < n
      · exact Or.inl (by simpa using hlt)
      · exact Or.inr (by omega)
    rcases this with h' | h' <;> simp [h, h']

theorem getLsbD_putBit {n i : ℕ} (m : BitVec w) (b : Bool) (hi : i < w) :
    (putBit m n b).getLsbD i = if i = n then b else m.getLsbD i := by
  unfold putBit
  cases b
  · simp only [Bool.false_eq_true, if_false, BitVec.getLsbD_and, BitVec.getLsbD_not, getLsbD_bit hi]
    by_cases h : i = n <;> simp only [hi, h, decide_true, decide_false, Bool.not_true, Bool.not_false,
      Bool.and_true, Bool.and_false, if_true, if_false]
  · simp only [if_true, BitVec.getLsbD_or, getLsbD_bit hi]
    by_cases h : i = n <;> simp only [h, decide_true, decide_false, Bool.or_true, Bool.or_false,
      if_true, if_false]

/-- The test `m & (1 << n) != 0`. -/
theorem and_bit_ne_zero {n : ℕ} (m : BitVec w) (hn : n < w) :
    ((m &&& bit w n) ≠ 0#w) ↔ m.getLsbD n = true := by
  constructor
  · intro h
    by_contra hbit
    refine h (BitVec.eq_of_getLsbD_eq fun i hi => ?_)
    rw [BitVec.getLsbD_and, getLsbD_bit hi, BitVec.getLsbD_zero]
    by_cases hin : i = n
    · subst hin; simpa using hbit
    · simp [hin]
  · intro h hz
    have := congrArg (BitVec.getLsbD · n) hz
    simp [getLsbD_bit hn, h] at this

/-- The test `(m >> n) & 1 != 0`. -/
theorem shiftRight_and_one_ne_zero {n : ℕ} (m : BitVec w) (hn : n < w) :
    (((m >>> n) &&& 1#w) ≠ 0#w) ↔ m.getLsbD n = true := by
  have hw : 0 < w := by omega
  have h := and_bit_ne_zero (n := 0) (m >>> n) hw
  simpa [bit, BitVec.getLsbD_ushiftRight] using h

theorem getLsbD_foldl_or (p : Fin k → Bool) {i : ℕ} (hi : i < w) : ∀ (l : List (Fin k)) (m : BitVec w),
    (l.foldl (fun m n => if p n then m ||| bit w n else m) m).getLsbD i =
      (m.getLsbD i || l.any fun n => p n && decide (i = n.val))
  | [], m => by simp
  | n :: l, m => by
    rw [List.foldl_cons, getLsbD_foldl_or p hi l, List.any_cons, ← Bool.or_assoc]
    congr 1
    cases p n <;> simp [getLsbD_bit hi]

theorem getLsbD_collect (p : Fin k → Bool) (n : Fin k) (hk : k ≤ w) :
    (collect w p).getLsbD n = p n := by
  rw [collect, getLsbD_foldl_or p (by omega), BitVec.getLsbD_zero, Bool.false_or]
  cases h : p n
  · rw [List.any_eq_false]
    intro m _ hm
    simp only [Bool.and_eq_true, decide_eq_true_eq] at hm
    rw [Fin.ext hm.2, hm.1] at h
    exact absurd h (by simp)
  · exact List.any_eq_true.mpr ⟨n, List.mem_finRange n, by simp [h]⟩

theorem getLsbD_collect_of_le (p : Fin k → Bool) {i : ℕ} (hi : k ≤ i) :
    (collect w p).getLsbD i = false := by
  by_cases hw : i < w
  · rw [collect, getLsbD_foldl_or p hw, BitVec.getLsbD_zero, Bool.false_or, List.any_eq_false]
    intro n _
    simp only [Bool.and_eq_true, decide_eq_true_eq, not_and]
    intro _ h
    omega
  · exact BitVec.getLsbD_of_ge _ _ (by omega)

/-- A loop whose body at `n` changes only component `n` changes every component once. -/
theorem foldl_component {σ β : Type*} {v : σ → Fin k → β} {f : σ → Fin k → σ} {I : σ → Prop}
    {g : Fin k → β → β} (hI : ∀ s n, I s → I (f s n))
    (hself : ∀ s n, I s → v (f s n) n = g n (v s n))
    (hother : ∀ s n m, I s → m ≠ n → v (f s n) m = v s m) {s : σ} (hs : I s) (m : Fin k) :
    v ((List.finRange k).foldl f s) m = g m (v s m) := by
  have key : ∀ (l : List (Fin k)) (s : σ), I s → l.Nodup →
      v (l.foldl f s) m = if m ∈ l then g m (v s m) else v s m := by
    intro l
    induction l with
    | nil => intro s _ _; simp
    | cons n l ih =>
      intro s hs hnd
      rw [List.nodup_cons] at hnd
      rw [List.foldl_cons, ih _ (hI s n hs) hnd.2]
      by_cases hmn : m = n
      · subst hmn
        simp [hnd.1, hself s m hs]
      · simp [hmn, hother s n m hs hmn]
  rw [key _ s hs (List.nodup_finRange k), if_pos (List.mem_finRange m)]

/-- What the body of a loop keeps holds after it. -/
theorem foldl_preserves {σ α : Type*} {f : σ → α → σ} {P : σ → Prop} (hf : ∀ s a, P s → P (f s a)) :
    ∀ (l : List α) {s : σ}, P s → P (l.foldl f s)
  | [], _, hs => hs
  | a :: l, s, hs => foldl_preserves hf l (hf s a hs)

end Hidpin.Lib
