import Mathlib.Algebra.GroupWithZero.Nat
import Hidpin.Lib.Run

/-! Simulation of one machine by another. A script says, for each input of the first machine and the states
    both are in, which inputs the second one is given meanwhile. -/

namespace Hidpin.Lib
variable {σ ι τ κ : Type*}

section
variable (step : σ → ι → σ) (step' : τ → κ → τ) (script : σ → τ → ι → List κ)

/-- The inputs of the second machine during a run of the first. -/
def scripts : σ → τ → List ι → List κ
  | _, _, [] => []
  | s, t, i :: is => script s t i ++ scripts (step s i) (run step' t (script s t i)) is

@[simp] theorem scripts_nil (s : σ) (t : τ) : scripts step step' script s t [] = [] := rfl

theorem scripts_cons (s : σ) (t : τ) (i : ι) (is : List ι) :
    scripts step step' script s t (i :: is) =
      script s t i ++ scripts step step' script (step s i) (run step' t (script s t i)) is := rfl

theorem run_scripts_cons (s : σ) (t : τ) (i : ι) (is : List ι) :
    run step' t (scripts step step' script s t (i :: is)) =
      run step' (run step' t (script s t i))
        (scripts step step' script (step s i) (run step' t (script s t i)) is) := by
  rw [scripts_cons, run_append]

theorem scripts_append : ∀ (s : σ) (t : τ) (is js : List ι),
    scripts step step' script s t (is ++ js) = scripts step step' script s t is ++
      scripts step step' script (run step s is) (run step' t (scripts step step' script s t is)) js
  | _, _, [], _ => rfl
  | s, t, i :: is, js => by
    rw [List.cons_append, scripts_cons, scripts_append _ _ is js, scripts_cons,
      List.append_assoc, run_append, run_cons]

end

variable {step : σ → ι → σ} {step' : τ → κ → τ} {script : σ → τ → ι → List κ}

/-- What each allowed step keeps between the two machines holds after a run of allowed steps. The relation
    may depend on an allowance, of which an input `i` takes `c i`. -/
theorem simulates {R : ℕ → σ → τ → Prop} {A : σ → ι → Prop} {c : ι → ℕ}
    (hstep : ∀ n s t i, R (c i + n) s t → A s i → R n (step s i) (run step' t (script s t i))) :
    ∀ (is : List ι) {n : ℕ} {s : σ} {t : τ}, R ((is.map c).sum + n) s t →
      (∀ x ∈ steps step s is, A x.1 x.2) →
      R n (run step s is) (run step' t (scripts step step' script s t is))
  | [], n, _, _, h, _ => by simpa using h
  | i :: is, n, s, t, h, hok => by
    rw [run_scripts_cons, run_cons]
    refine simulates hstep is ?_ fun x hx => hok x (List.mem_cons_of_mem _ hx)
    rw [List.map_cons, List.sum_cons, Nat.add_assoc] at h
    exact hstep _ s t i h (hok (s, i) List.mem_cons_self)

end Hidpin.Lib
