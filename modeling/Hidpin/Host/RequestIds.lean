import Hidpin.Host.Device
import Hidpin.Lib.Gf2
import Mathlib.Data.List.Prime
import Mathlib.Tactic.NormNum
import Mathlib.Tactic.NormNum.Prime

/-! Choosing a request id ends. The step of the generator is linear over GF(2) and its period is `2 ^ 64 - 1`
    from every state but 0, so it passes through all of them: through one with id 2 and one with id 3 at
    least, and one of these is not the last id. -/

namespace Hidpin.Host.RequestIds
open Lib.Gf2

/-- The state that `next` leaves. -/
def step (x : RequestIds) : RequestIds := (next x).2

theorem id_next (x : RequestIds) : (next x).1 = (step x % 255).setWidth 8 + 1 := rfl

/-- The step as a linear map. -/
def linear : AddMonoid.End (Word 64) := Word.xorShiftLeft 17 * Word.xorShiftRight 7 * Word.xorShiftLeft 13

/-- A polynomial that annihilates the step. -/
def polynomial : ℕ := 2 ^ 64 + 0x13ed4a358913201

theorem eval_polynomial : eval linear polynomial = 0 := by
  have hlt : polynomial < 2 ^ 65 := by norm_num [polynomial]
  have hbits : ∀ i < 64, act linear 65 polynomial (BitVec.twoPow 64 i) = 0 := by decide +kernel
  exact Word.hom_ext fun i hi => (act_eq hlt _).symm.trans (hbits i hi)

/-- The prime factors `q` of the period, and the inverse of `X ^ ((2 ^ 64 - 1) / q) + 1` for each. -/
def inverses : List (ℕ × ℕ) :=
  [(3, 0xd742ca58f5d785e2), (5, 0xa3f64d1fb612f669), (17, 0x63f43995a1b49645), (257, 0x7d573a75b5260c4d),
    (641, 0x1ead61508d13286), (65537, 0xed7248a2317d33b1), (6700417, 0x483b08aa5d3741b5)]

theorem mem_inverses {q : ℕ} (hq : q.Prime) (hdvd : q ∣ 2 ^ 64 - 1) : q ∈ inverses.map Prod.fst := by
  refine mem_list_primes_of_dvd_prod hq.prime (fun r hr => Nat.Prime.prime ?_) (hdvd.trans (dvd_of_eq rfl))
  simp only [inverses, List.map_cons, List.map_nil, List.mem_cons, List.not_mem_nil, or_false] at hr
  rcases hr with rfl | rfl | rfl | rfl | rfl | rfl | rfl <;> norm_num

theorem pow_period : pow 64 polynomial 2 (2 ^ 64 - 1) = 1 := by decide +kernel

theorem mul_inverses :
    ∀ c ∈ inverses, mul 64 polynomial (pow 64 polynomial 2 ((2 ^ 64 - 1) / c.1) ^^^ 1) c.2 = 1 := by
    decide +kernel

/-- The generator has the full period. -/
theorem minimalPeriod_step {x : RequestIds} (hx : x ≠ 0) : Function.minimalPeriod step x = 2 ^ 64 - 1 := by
  refine minimalPeriod_eq (T := linear) Word.add_self eval_polynomial pow_period (fun q hq hdvd => ?_) hx
  obtain ⟨c, hc, rfl⟩ := List.mem_map.mp (mem_inverses hq hdvd)
  exact ⟨c.2, mul_inverses c hc⟩

theorem step_ne_zero {x : RequestIds} (hx : x ≠ 0) : step x ≠ 0 := by
  have hper : 0 < Function.minimalPeriod step x := by rw [minimalPeriod_step hx]; norm_num
  exact map_ne_zero_of_minimalPeriod (T := linear) hper hx

theorem iterate_ne_zero {x : RequestIds} (hx : x ≠ 0) (n : ℕ) : step^[n] x ≠ 0 := by
  induction n with
  | zero => exact hx
  | succ n ih =>
    rw [Function.iterate_succ_apply']
    exact step_ne_zero ih

theorem new_ne_zero (nanos : U64) (pid : U32) : new nanos pid ≠ 0 := by
  intro hzero
  have hbit : (new nanos pid).getLsbD 0 = false := by rw [hzero]; rfl
  simp [new] at hbit

/-- Every state but 0 is left by a step in less than a period. -/
theorem exists_step_eq {x y : RequestIds} (hx : x ≠ 0) (hy : y ≠ 0) :
    ∃ n < 2 ^ 64 - 1, step (step^[n] x) = y := by
  obtain ⟨n, hn, hstep⟩ := exists_iterate (fun _ => step_ne_zero) (fun _ => minimalPeriod_step)
    (step_ne_zero hx) hy
  refine ⟨n, hn, ?_⟩
  rw [← Function.iterate_succ_apply' step, Function.iterate_succ_apply, hstep]

theorem exists_id_ne {x : RequestIds} (hx : x ≠ 0) (last : U8) :
    ∃ n < 2 ^ 64 - 1, (next (step^[n] x)).1 ≠ last := by
  by_cases hlast : last = 2
  · obtain ⟨n, hn, hstep⟩ := exists_step_eq (y := 2) hx (by decide)
    refine ⟨n, hn, ?_⟩
    rw [id_next, hstep, hlast]
    decide
  · obtain ⟨n, hn, hstep⟩ := exists_step_eq (y := 1) hx (by decide)
    refine ⟨n, hn, fun heq => hlast ?_⟩
    rw [id_next, hstep] at heq
    exact heq.symm

theorem id_range (x : RequestIds) : 1 ≤ (next x).1.toNat ∧ (next x).1.toNat ≤ 255 := by
  have hmod : (step x).toNat % 255 < 255 := Nat.mod_lt _ (by decide)
  have hid : (next x).1.toNat = (step x).toNat % 255 + 1 := by
    simp [id_next]
    omega
  omega

/-- The loop stops at the first other id, whatever number of rounds it is given beyond that. -/
theorem draw_eq {last : U8} {x : RequestIds} {n : ℕ} (hn : (next (step^[n] x)).1 ≠ last) :
    ∃ m ≤ n, (next (step^[m] x)).1 ≠ last ∧ ∀ k > m, draw last k x = some (next (step^[m] x)) := by
  induction n generalizing x with
  | zero =>
    refine ⟨0, le_rfl, hn, fun k hk => ?_⟩
    obtain ⟨k, rfl⟩ := Nat.exists_eq_succ_of_ne_zero hk.ne'
    exact if_pos hn
  | succ n ih =>
    by_cases hfirst : (next x).1 = last
    · obtain ⟨m, hm, hne, hdraw⟩ := ih (x := step x) hn
      refine ⟨m + 1, by omega, hne, fun k hk => ?_⟩
      obtain ⟨k, rfl⟩ := Nat.exists_eq_succ_of_ne_zero (Nat.ne_zero_of_lt hk)
      exact (if_neg (not_not.mpr hfirst)).trans (hdraw k (by omega))
    · refine ⟨0, by omega, hfirst, fun k hk => ?_⟩
      obtain ⟨k, rfl⟩ := Nat.exists_eq_succ_of_ne_zero hk.ne'
      exact if_pos hfirst

end Hidpin.Host.RequestIds

namespace Hidpin.Host.Device
open Lib RequestIds

theorem exec_nextRequestId {ω : Type} [World ω] {d : Device} {id : U8} {ids : RequestIds}
    (h : draw d.lastRequestId (2 ^ 64) d.requestIds = some (id, ids)) (w : ω) :
    (nextRequestId : Io ω U8).exec (d, w) =
      (.ok id, ({ d with requestIds := ids, lastRequestId := id }, w)) := by
  simp only [nextRequestId, Prog.exec_bind, Prog.exec_gets, h]
  rfl

/-- From every state that a generator gets into, and after every last id, the loop ends with another id. -/
theorem nextRequestId_ends (nanos : U64) (pid : U32) (calls : ℕ) (last : U8) :
    let x := step^[calls] (RequestIds.new nanos pid)
    ∃ id ids, (∃ rounds < 2 ^ 64, ids = step^[rounds] x ∧ ∀ k ≥ rounds, draw last k x = some (id, ids)) ∧
      (1 ≤ id.toNat ∧ id.toNat ≤ 255 ∧ id ≠ last) ∧ ids ≠ 0 ∧
      ∀ {ω : Type} [World ω] (d : Device) (w : ω),
        (nextRequestId : Io ω U8).exec ({ d with requestIds := x, lastRequestId := last }, w) =
          (.ok id, ({ d with requestIds := ids, lastRequestId := id }, w)) := by
  intro x
  have hx : x ≠ 0 := iterate_ne_zero (new_ne_zero nanos pid) calls
  obtain ⟨n, hn, hid⟩ := exists_id_ne hx last
  obtain ⟨m, hm, hne, hdraw⟩ := draw_eq hid
  refine ⟨(next (step^[m] x)).1, step (step^[m] x), ⟨m + 1, by omega, ?_, hdraw⟩,
    ⟨(id_range _).1, (id_range _).2, hne⟩, step_ne_zero (iterate_ne_zero hx m), fun d w => ?_⟩
  · rw [Function.iterate_succ_apply']
  · exact exec_nextRequestId (hdraw _ (by omega)) w

end Hidpin.Host.Device
