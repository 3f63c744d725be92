import Mathlib.Data.List.DropRight
import Mathlib.Data.List.Basic

/-! Runs of a machine given by a step function: the state after a list of inputs, the steps taken on
    the way, and the part of a run after its last step of some kind. -/

namespace Hidpin.Lib
variable {σ ι α : Type*}

/-- The state after the inputs. -/
def run (step : σ → ι → σ) (s : σ) (is : List ι) : σ := is.foldl step s

/-- Every step of a run: the state it was taken in and its input. -/
def steps (step : σ → ι → σ) : σ → List ι → List (σ × ι)
  | _, [] => []
  | s, i :: is => (s, i) :: steps step (step s i) is

/-- The part of a trace after the last element with the mark (all of it when there is none). -/
def since (mark : α → Bool) (tr : List α) : List α := tr.rtakeWhile fun a => !mark a

/-- Every element of a trace with the trace before it. -/
def pastsFrom : List α → List α → List (List α × α)
  | _, [] => []
  | past, a :: tr => (past, a) :: pastsFrom (past ++ [a]) tr

def withPast (tr : List α) : List (List α × α) := pastsFrom [] tr

@[simp] theorem run_nil (step : σ → ι → σ) (s : σ) : run step s [] = s := rfl

@[simp] theorem run_cons (step : σ → ι → σ) (s : σ) (i : ι) (is : List ι) :
    run step s (i :: is) = run step (step s i) is := rfl

@[simp] theorem run_append (step : σ → ι → σ) (s : σ) (is js : List ι) :
    run step s (is ++ js) = run step (run step s is) js := by
  simp [run]

@[simp] theorem steps_nil (step : σ → ι → σ) (s : σ) : steps step s [] = [] := rfl

theorem steps_append (step : σ → ι → σ) : ∀ (s : σ) (is js : List ι),
    steps step s (is ++ js) = steps step s is ++ steps step (run step s is) js
  | _, [], _ => rfl
  | s, i :: is, js => by simp [steps, steps_append step (step s i) is js]

@[simp] theorem steps_concat (step : σ → ι → σ) (s : σ) (is : List ι) (i : ι) :
    steps step s (is ++ [i]) = steps step s is ++ [(run step s is, i)] := by
  simp [steps_append, steps]

theorem map_snd_steps (step : σ → ι → σ) : ∀ (s : σ) (is : List ι), (steps step s is).map Prod.snd = is
  | _, [] => rfl
  | s, i :: is => by simp [steps, map_snd_steps step (step s i) is]

/-- What each allowed step keeps holds at the end of a run of allowed steps. -/
theorem run_invariant {step : σ → ι → σ} {P : σ → Prop} {A : σ → ι → Prop}
    (hstep : ∀ s i, P s → A s i → P (step s i)) :
    ∀ {s : σ} (is : List ι), P s → (∀ x ∈ steps step s is, A x.1 x.2) → P (run step s is)
  | _, [], hs, _ => hs
  | s, i :: is, hs, hok => by
    rw [run_cons]
    refine run_invariant hstep is (hstep s i hs (hok (s, i) (by simp [steps]))) fun x hx => ?_
    exact hok x (by simp [steps, hx])

/-- What every step keeps holds at the end of every run. -/
theorem run_preserves {step : σ → ι → σ} {P : σ → Prop} (hstep : ∀ s i, P s → P (step s i))
    {s : σ} (is : List ι) (hs : P s) : P (run step s is) :=
  run_invariant (fun s i h (_ : True) => hstep s i h) is hs fun _ _ => trivial

/-- What each step with an allowed input keeps holds at the end of a run of allowed inputs. -/
theorem run_of_forall {step : σ → ι → σ} {P : σ → Prop} {A : ι → Prop}
    (hstep : ∀ s i, P s → A i → P (step s i)) :
    ∀ {s : σ} (is : List ι), P s → (∀ i ∈ is, A i) → P (run step s is)
  | _, [], hs, _ => hs
  | s, i :: is, hs, hok =>
    run_of_forall hstep is (hstep s i hs (hok i List.mem_cons_self)) fun j hj =>
      hok j (List.mem_cons_of_mem i hj)

/-- What every step keeps holds before each step of a run. -/
theorem steps_preserve {step : σ → ι → σ} {P : σ → Prop} (hstep : ∀ s i, P s → P (step s i)) :
    ∀ {s : σ} (is : List ι), P s → ∀ x ∈ steps step s is, P x.1
  | _, [], _, _, hx => absurd hx List.not_mem_nil
  | s, i :: is, hs, x, hx => by
    rcases List.mem_cons.mp hx with rfl | hx
    · exact hs
    · exact steps_preserve hstep is (hstep s i hs) x hx

@[simp] theorem since_nil (mark : α → Bool) : since mark [] = [] := rfl

theorem pastsFrom_concat : ∀ (past tr : List α) (a : α),
    pastsFrom past (tr ++ [a]) = pastsFrom past tr ++ [(past ++ tr, a)]
  | past, [], a => by simp [pastsFrom]
  | past, b :: tr, a => by
      simp [pastsFrom, pastsFrom_concat (past ++ [b]) tr a]

@[simp] theorem withPast_concat (tr : List α) (a : α) : withPast (tr ++ [a]) = withPast tr ++ [(tr, a)] := by
  simp [withPast, pastsFrom_concat]

@[simp] theorem withPast_nil : withPast ([] : List α) = [] := rfl

/-- A step with its past comes from a run of the inputs before it. -/
theorem mem_withPast_steps {step : σ → ι → σ} {s : σ} {is : List ι} {x : List (σ × ι) × (σ × ι)}
    (hx : x ∈ withPast (steps step s is)) :
    ∃ js i, js ++ [i] <+: is ∧ x = (steps step s js, (run step s js, i)) := by
  induction is using List.reverseRecOn with
  | nil => simp at hx
  | append_singleton is i ih =>
    rw [steps_concat, withPast_concat, List.mem_append, List.mem_singleton] at hx
    rcases hx with hx | rfl
    · obtain ⟨js, j, hj, rfl⟩ := ih hx
      exact ⟨js, j, hj.trans (List.prefix_append _ _), rfl⟩
    · exact ⟨is, i, List.prefix_refl _, rfl⟩

theorem mem_of_mem_since {mark : α → Bool} {tr : List α} {a : α} (h : a ∈ since mark tr) : a ∈ tr :=
  (List.rtakeWhile_suffix _ _).subset h

/-- A marked step starts afresh; any other one is added. -/
theorem since_concat (mark : α → Bool) (tr : List α) (a : α) :
    since mark (tr ++ [a]) = if mark a then [] else since mark tr ++ [a] := by
  cases h : mark a <;> simp [since, h]

end Hidpin.Lib
