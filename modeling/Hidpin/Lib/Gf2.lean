import Mathlib.Algebra.Group.Hom.End
import Mathlib.Data.BitVec
import Mathlib.Data.Nat.Bitwise
import Mathlib.Data.Nat.Prime.Basic
import Mathlib.Dynamics.PeriodicPts.Defs
import Mathlib.SetTheory.Cardinal.Finite
import Mathlib.Tactic.NoncommRing

/-! The period of a linear map over GF(2). A polynomial over GF(2) is a natural number, its binary digits are
    the coefficients; `mul` and `pow` compute modulo a polynomial `p` of degree `w`. A map that `p`
    annihilates behaves as the residue of `X` does, so its period is found with numbers only. -/

namespace Hidpin.Lib.Gf2

/-! ### Polynomials -/

section Polynomials
variable {A : Type*} [Ring A] {t : A} {w p : ℕ}

/-- The polynomial `f` at `t`. -/
def eval (t : A) (f : ℕ) : A := if f = 0 then 0 else ((f % 2 : ℕ) : A) + t * eval t (f / 2)

theorem eval_zero : eval t 0 = 0 := by
  rw [eval, if_pos rfl]

theorem eval_digit (f : ℕ) : eval t f = ((f % 2 : ℕ) : A) + t * eval t (f / 2) := by
  rcases eq_or_ne f 0 with rfl | hf
  · simp [eval_zero]
  · conv_lhs => rw [eval, if_neg hf]

theorem eval_one : eval t 1 = 1 := by
  rw [eval_digit]
  simp [eval_zero]

theorem eval_two : eval t 2 = t := by
  rw [eval_digit]
  simp [eval_one]

theorem eval_double (f : ℕ) : eval t (f <<< 1) = t * eval t f := by
  rw [eval_digit]
  simp [Nat.shiftLeft_eq]

/-- The sum of two coefficients modulo 2. -/
theorem cast_xor (two : (2 : A) = 0) (f g : ℕ) :
    (((f ^^^ g) % 2 : ℕ) : A) = ((f % 2 : ℕ) : A) + ((g % 2 : ℕ) : A) := by
  rw [Nat.xor_mod_two_eq, Nat.add_mod]
  rcases Nat.mod_two_eq_zero_or_one f with hf | hf <;> rcases Nat.mod_two_eq_zero_or_one g with hg | hg <;>
    simp [hf, hg, one_add_one_eq_two, two]

theorem eval_xor (two : (2 : A) = 0) (f g : ℕ) : eval t (f ^^^ g) = eval t f + eval t g := by
  induction f using Nat.strongRecOn generalizing g with
  | ind f ih =>
    rcases eq_or_ne f 0 with rfl | hf
    · rw [Nat.zero_xor, eval_zero, zero_add]
    · rw [eval_digit, Nat.xor_div_two, ih (f / 2) (by omega) (g / 2), cast_xor two,
        eval_digit f, eval_digit g]
      noncomm_ring

/-- Polynomials of one element commute with it. -/
theorem commute_eval (t : A) (f : ℕ) : Commute (eval t f) t := by
  induction f using Nat.strongRecOn with
  | ind f ih =>
    rcases eq_or_ne f 0 with rfl | hf
    · rw [eval_zero]; exact Commute.zero_left t
    · rw [eval_digit]
      exact (Nat.cast_commute (f % 2) t).add_left ((Commute.refl t).mul_left (ih (f / 2) (by omega)))

/-- `X` times `f`, modulo `p`. -/
def mulX (w p f : ℕ) : ℕ := f <<< 1 ^^^ p * (f >>> (w - 1) % 2)

theorem eval_mulX (two : (2 : A) = 0) (hp : eval t p = 0) (f : ℕ) : eval t (mulX w p f) = t * eval t f := by
  have hzero : eval t (p * (f >>> (w - 1) % 2)) = 0 := by
    rcases Nat.mod_two_eq_zero_or_one (f >>> (w - 1)) with h | h
    · rw [h, Nat.mul_zero, eval_zero]
    · rw [h, Nat.mul_one, hp]
  rw [mulX, eval_xor two, eval_double, hzero, add_zero]

/-- The product of `f` and the first `k` digits of `g`, modulo `p`. -/
def mulDigits (w p : ℕ) : ℕ → ℕ → ℕ → ℕ
  | 0, _, _ => 0
  | k + 1, f, g => f * (g % 2) ^^^ mulDigits w p k (mulX w p f) (g / 2)

/-- The product of `f` and `g` modulo `p`. -/
def mul (w p f g : ℕ) : ℕ := mulDigits w p (g.log2 + 1) f g

theorem eval_mulDigits (two : (2 : A) = 0) (hp : eval t p = 0) {k g : ℕ} (f : ℕ) (hg : g < 2 ^ k) :
    eval t (mulDigits w p k f g) = eval t g * eval t f := by
  induction k generalizing f g with
  | zero =>
    obtain rfl : g = 0 := by simpa using hg
    rw [mulDigits, eval_zero, zero_mul]
  | succ k ih =>
    have hhalf : g / 2 < 2 ^ k := by rw [pow_succ] at hg; omega
    have hdigit : eval t (f * (g % 2)) = ((g % 2 : ℕ) : A) * eval t f := by
      rcases Nat.mod_two_eq_zero_or_one g with h | h <;> simp [h, eval_zero]
    calc eval t (mulDigits w p (k + 1) f g)
        = ((g % 2 : ℕ) : A) * eval t f + eval t (g / 2) * t * eval t f := by
          rw [mulDigits, eval_xor two, ih _ hhalf, eval_mulX two hp, hdigit, mul_assoc]
      _ = eval t g * eval t f := by
          rw [(commute_eval t (g / 2)).eq, ← add_mul, ← eval_digit]

theorem eval_mul (two : (2 : A) = 0) (hp : eval t p = 0) (f g : ℕ) :
    eval t (mul w p f g) = eval t g * eval t f :=
  eval_mulDigits two hp f Nat.lt_log2_self

/-- The power of `f` to the first `k` digits of `e`, modulo `p`. -/
def powDigits (w p : ℕ) : ℕ → ℕ → ℕ → ℕ
  | 0, _, _ => 1
  | k + 1, f, e =>
    let rest := powDigits w p k (mul w p f f) (e / 2)
    if e % 2 = 1 then mul w p f rest else rest

/-- The power of `f` modulo `p`. -/
def pow (w p f e : ℕ) : ℕ := powDigits w p (e.log2 + 1) f e

theorem eval_powDigits (two : (2 : A) = 0) (hp : eval t p = 0) {k e : ℕ} (f : ℕ) (he : e < 2 ^ k) :
    eval t (powDigits w p k f e) = eval t f ^ e := by
  induction k generalizing f e with
  | zero =>
    obtain rfl : e = 0 := by simpa using he
    rw [powDigits, eval_one, pow_zero]
  | succ k ih =>
    have hhalf : e / 2 < 2 ^ k := by rw [pow_succ] at he; omega
    have hrest : eval t (powDigits w p k (mul w p f f) (e / 2)) = eval t f ^ (2 * (e / 2)) := by
      rw [ih _ hhalf, eval_mul two hp, ← sq, ← pow_mul]
    simp only [powDigits]
    split
    · next hodd => rw [eval_mul two hp, hrest, ← pow_succ]; congr 1; omega
    · next heven => rw [hrest]; congr 1; omega

theorem eval_pow (two : (2 : A) = 0) (hp : eval t p = 0) (f e : ℕ) :
    eval t (pow w p f e) = eval t f ^ e :=
  eval_powDigits two hp f Nat.lt_log2_self

end Polynomials

/-! ### Periods -/

section Periods
variable {V : Type*} [AddCommGroup V] {T : AddMonoid.End V} {w p : ℕ}

theorem two_eq_zero (self : ∀ v : V, v + v = 0) : (2 : AddMonoid.End V) = 0 := by
  rw [← one_add_one_eq_two]
  exact AddMonoidHom.ext self

/-- `eval T f v`, by running the map. -/
def act (T : V → V) : ℕ → ℕ → V → V
  | 0, _, _ => 0
  | k + 1, f, v => (if f % 2 = 1 then v else 0) + act T k (f / 2) (T v)

theorem act_eq {k f : ℕ} (hf : f < 2 ^ k) (v : V) : act T k f v = eval T f v := by
  induction k generalizing f v with
  | zero =>
    obtain rfl : f = 0 := by simpa using hf
    rw [act, eval_zero]
    rfl
  | succ k ih =>
    have hhalf : f / 2 < 2 ^ k := by rw [pow_succ] at hf; omega
    have hT : eval T (f / 2) (T v) = T (eval T (f / 2) v) := DFunLike.congr_fun (commute_eval T (f / 2)).eq v
    have hdigit : ((f % 2 : ℕ) : AddMonoid.End V) v = if f % 2 = 1 then v else 0 := by
      rcases Nat.mod_two_eq_zero_or_one f with h | h <;> simp [h]
    rw [act, ih hhalf, hT, ← hdigit, eval_digit f]
    rfl

/-- A period that no prime divides further is the least one. -/
theorem minimalPeriod_eq_of_prime {α : Type*} {f : α → α} {x : α} {N : ℕ}
    (hper : Function.IsPeriodicPt f N x)
    (hprime : ∀ q, q.Prime → q ∣ N → ¬ Function.IsPeriodicPt f (N / q) x) :
    Function.minimalPeriod f x = N := by
  obtain ⟨a, ha⟩ := hper.minimalPeriod_dvd
  by_contra hne
  have ha1 : a ≠ 1 := by
    rintro rfl
    exact hne (by omega)
  obtain ⟨b, hb⟩ := Nat.minFac_dvd a
  have hpos : 0 < a.minFac := Nat.minFac_pos a
  have hdiv : N / a.minFac = Function.minimalPeriod f x * b := by
    refine Nat.div_eq_of_eq_mul_right hpos ?_
    rw [mul_left_comm, ← hb, ← ha]
  refine hprime a.minFac (Nat.minFac_prime ha1) ⟨Function.minimalPeriod f x * b, ?_⟩ ?_
  · rw [mul_left_comm, ← hb, ← ha]
  · rw [hdiv]
    exact (Function.isPeriodicPt_minimalPeriod f x).mul_const b

/-- When `X ^ N` is 1 and every `X ^ (N / q) + 1` has an inverse, each vector but 0 comes back after `N`
    steps and not before. -/
theorem minimalPeriod_eq (self : ∀ v : V, v + v = 0) (hp : eval T p = 0) {N : ℕ}
    (hone : pow w p 2 N = 1)
    (hinv : ∀ q, q.Prime → q ∣ N → ∃ g, mul w p (pow w p 2 (N / q) ^^^ 1) g = 1) {v : V} (hv : v ≠ 0) :
    Function.minimalPeriod T v = N := by
  have two := two_eq_zero self
  have hpow (e : ℕ) : eval T (pow w p 2 e) v = T^[e] v := by
    rw [eval_pow two hp, eval_two, AddMonoid.End.coe_pow]
  refine minimalPeriod_eq_of_prime ?_ fun q hq hdvd hfix => ?_
  · exact (hpow N).symm.trans (by rw [hone, eval_one]; rfl)
  · obtain ⟨g, hg⟩ := hinv q hq hdvd
    have hfixed : eval T (pow w p 2 (N / q) ^^^ 1) v = 0 := by
      calc eval T (pow w p 2 (N / q) ^^^ 1) v = eval T (pow w p 2 (N / q)) v + v := by
            rw [eval_xor two, eval_one]; rfl
        _ = v + v := by rw [hpow]; exact congrArg (· + v) hfix
        _ = 0 := self v
    refine hv ?_
    calc v = eval T (mul w p (pow w p 2 (N / q) ^^^ 1) g) v := by rw [hg, eval_one]; rfl
      _ = eval T g (eval T (pow w p 2 (N / q) ^^^ 1) v) := by rw [eval_mul two hp]; rfl
      _ = 0 := by rw [hfixed, map_zero]

/-- A vector that comes back is not lost. -/
theorem map_ne_zero_of_minimalPeriod {v : V} (hper : 0 < Function.minimalPeriod T v) (hv : v ≠ 0) :
    T v ≠ 0 := by
  intro hzero
  obtain ⟨n, hn⟩ := Nat.exists_eq_succ_of_ne_zero hper.ne'
  refine hv ?_
  calc v = T^[n + 1] v := by rw [← Nat.succ_eq_add_one, ← hn, Function.iterate_minimalPeriod]
    _ = T^[n] 0 := by rw [Function.iterate_succ_apply, hzero]
    _ = 0 := Function.iterate_fixed (map_zero T) n

end Periods

/-- A point whose period is the size of a set that the map stays in reaches all of that set. -/
theorem exists_iterate_eq {α : Type*} {f : α → α} {S : Finset α} {x y : α} (hf : ∀ z ∈ S, f z ∈ S)
    (hx : x ∈ S) (hcard : S.card ≤ Function.minimalPeriod f x) (hy : y ∈ S) : ∃ n < S.card, f^[n] x = y := by
  classical
  have hmem (n : ℕ) : f^[n] x ∈ S := by
    induction n with
    | zero => exact hx
    | succ n ih => rw [Function.iterate_succ_apply']; exact hf _ ih
  have hinj : Set.InjOn (f^[·] x) (Finset.range S.card) := by
    intro m hm n hn heq
    rw [Finset.coe_range, Set.mem_Iio] at hm hn
    exact Function.iterate_injOn_Iio_minimalPeriod (hm.trans_le hcard) (hn.trans_le hcard) heq
  have himage : (Finset.range S.card).image (f^[·] x) = S := by
    refine Finset.eq_of_subset_of_card_le (Finset.image_subset_iff.mpr fun n _ => hmem n) ?_
    rw [Finset.card_image_of_injOn hinj, Finset.card_range]
  rw [← himage, Finset.mem_image] at hy
  obtain ⟨n, hn, rfl⟩ := hy
  exact ⟨n, Finset.mem_range.mp hn, rfl⟩

/-! ### Words -/

/-- Machine words as vectors over GF(2): the sum is the exclusive or. -/
def Word (w : ℕ) := BitVec w

namespace Word
variable {w : ℕ}

instance : DecidableEq (Word w) := inferInstanceAs (DecidableEq (BitVec w))
instance : Add (Word w) := ⟨BitVec.xor⟩
instance : Zero (Word w) := ⟨BitVec.zero w⟩
instance : Neg (Word w) := ⟨id⟩

instance : AddCommGroup (Word w) where
  nsmul := nsmulRec
  zsmul := zsmulRec
  add_assoc := BitVec.xor_assoc
  zero_add _ := BitVec.zero_xor
  add_zero _ := BitVec.xor_zero
  add_comm := BitVec.xor_comm
  neg_add_cancel _ := BitVec.xor_self

theorem add_self (x : Word w) : x + x = 0 := BitVec.xor_self

/-- A linear map is known by what it does to the single bits. -/
theorem hom_ext {M : Type*} [AddCommGroup M] {f g : Word w →+ M}
    (h : ∀ i < w, f (BitVec.twoPow w i) = g (BitVec.twoPow w i)) : f = g := by
  have hbits (k : ℕ) (hk : k ≤ w) : ∀ x : BitVec w, (∀ i, k ≤ i → x.getLsbD i = false) → f x = g x := by
    induction k with
    | zero =>
      intro x hx
      obtain rfl : x = 0#w := BitVec.eq_of_getLsbD_eq fun i _ => by simpa using hx i (Nat.zero_le i)
      exact (map_zero f).trans (map_zero g).symm
    | succ k ih =>
      intro x hx
      by_cases hbit : x.getLsbD k
      · -- clear bit `k`
        have hsplit : x = (x ^^^ BitVec.twoPow w k) ^^^ BitVec.twoPow w k := by
          rw [BitVec.xor_assoc, BitVec.xor_self, BitVec.xor_zero]
        have hrest := ih (by omega) (x ^^^ BitVec.twoPow w k) fun i hi => by
          rcases eq_or_lt_of_le hi with rfl | hi
          · simp [hbit]; omega
          · simp [hx i hi]; omega
        rw [hsplit]
        calc f ((x ^^^ BitVec.twoPow w k) ^^^ BitVec.twoPow w k)
            = f (x ^^^ BitVec.twoPow w k) + f (BitVec.twoPow w k) := map_add f _ _
          _ = g (x ^^^ BitVec.twoPow w k) + g (BitVec.twoPow w k) := by rw [hrest, h k (by omega)]
          _ = g ((x ^^^ BitVec.twoPow w k) ^^^ BitVec.twoPow w k) := (map_add g _ _).symm
      · refine ih (by omega) x fun i hi => ?_
        rcases eq_or_lt_of_le hi with rfl | hi
        · simpa using hbit
        · exact hx i hi
  exact AddMonoidHom.ext fun x => hbits w le_rfl x fun i hi => BitVec.getLsbD_of_ge x i hi

/-- A word and its image under a map that keeps sums, such as a shift. -/
def xorWith (g : BitVec w → BitVec w) (hg : ∀ x y, g (x ^^^ y) = g x ^^^ g y) : AddMonoid.End (Word w) :=
  AddMonoidHom.mk' (fun x : BitVec w => x ^^^ g x) fun x y : BitVec w => by
    change (x ^^^ y) ^^^ g (x ^^^ y) = (x ^^^ g x) ^^^ (y ^^^ g y)
    rw [hg]
    ac_rfl

def xorShiftLeft (k : ℕ) : AddMonoid.End (Word w) :=
  xorWith (· <<< k) fun x y => BitVec.shiftLeft_xor_distrib x y k

def xorShiftRight (k : ℕ) : AddMonoid.End (Word w) :=
  xorWith (· >>> k) fun x y => BitVec.ushiftRight_xor_distrib x y k

end Word

/-- A map on words for which all states but 0 have the full period runs through all of them. -/
theorem exists_iterate {w : ℕ} {f : BitVec w → BitVec w} (hzero : ∀ x, x ≠ 0 → f x ≠ 0)
    (hper : ∀ x, x ≠ 0 → Function.minimalPeriod f x = 2 ^ w - 1) {x y : BitVec w} (hx : x ≠ 0) (hy : y ≠ 0) :
    ∃ n < 2 ^ w - 1, f^[n] x = y := by
  let _ : Fintype (BitVec w) := Fintype.ofEquiv (Fin (2 ^ w)) BitVec.equivFin.toEquiv.symm
  have hcard : (Finset.univ.erase (0 : BitVec w)).card = 2 ^ w - 1 := by
    rw [Finset.card_erase_of_mem (Finset.mem_univ _), Finset.card_univ,
      Fintype.card_congr BitVec.equivFin.toEquiv, Fintype.card_fin]
  have hmem (z : BitVec w) : z ∈ Finset.univ.erase 0 ↔ z ≠ 0 := by simp
  rw [← hcard]
  refine exists_iterate_eq (fun z hz => ?_) ((hmem x).mpr hx) ?_ ((hmem y).mpr hy)
  · exact (hmem _).mpr (hzero z ((hmem z).mp hz))
  · rw [hcard, hper x hx]

end Hidpin.Lib.Gf2
