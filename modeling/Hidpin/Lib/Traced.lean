import Hidpin.Lib.Program

/-! Programs that keep a log beside their state. Such a program traces another one when it does the same to
    the state, whatever is in the log. -/

namespace Hidpin.Lib
variable {σ γ ε ε' α β : Type}

namespace Prog

/-- A program that leaves the log alone. -/
def quietly (m : Prog σ ε α) : Prog (σ × γ) ε α := m.zoom Prod.fst fun s t => (s, t.2)

/-- The outcome is that of `m`, and the state, too. -/
def Traces (m' : Prog (σ × γ) ε α) (m : Prog σ ε α) : Prop := ∀ s log,
  (m'.exec (s, log)).1 = (m.exec s).1 ∧ (m'.exec (s, log)).2.1 = (m.exec s).2

@[simp] theorem wp_quietly (m : Prog σ ε α) (Q : Except ε α → σ × γ → Prop) (s : σ) (log : γ) :
    (quietly m).wp Q (s, log) ↔ m.wp (fun r s' => Q r (s', log)) s := Iff.rfl

namespace Traces

theorem quietly (m : Prog σ ε α) : Traces (Prog.quietly m : Prog (σ × γ) ε α) m := fun _ _ => ⟨rfl, rfl⟩

theorem pure (a : α) : Traces (Pure.pure a : Prog (σ × γ) ε α) (Pure.pure a) := fun _ _ => ⟨rfl, rfl⟩

theorem throw (e : ε) : Traces (MonadExcept.throw e : Prog (σ × γ) ε α) (MonadExcept.throw e) :=
  fun _ _ => ⟨rfl, rfl⟩

theorem bind {m' : Prog (σ × γ) ε α} {m : Prog σ ε α} {f' : α → Prog (σ × γ) ε β} {f : α → Prog σ ε β}
    (hm : Traces m' m) (hf : ∀ a, Traces (f' a) (f a)) : Traces (m' >>= f') (m >>= f) := by
  intro s log
  obtain ⟨houtcome, hstate⟩ := hm s log
  rw [exec_bind, exec_bind]
  rcases h' : m'.exec (s, log) with ⟨r', s', log'⟩
  rcases h : m.exec s with ⟨r, s''⟩
  rw [h', h] at houtcome hstate
  dsimp only at houtcome hstate
  subst houtcome hstate
  cases r' with
  | ok a => exact hf a s' log'
  | error e => exact ⟨rfl, rfl⟩

theorem catching (f : ε → Option ε') {m' : Prog (σ × γ) ε α} {m : Prog σ ε α} (hm : Traces m' m) :
    Traces (m'.catching f) (m.catching f) := fun s log =>
  ⟨congrArg (caught f) (hm s log).1, (hm s log).2⟩

theorem only {p : Prop} [Decidable p] {m' : Prog (σ × γ) ε Unit} {m : Prog σ ε Unit} (hm : Traces m' m) :
    Traces (Prog.only p m') (Prog.only p m) := by
  unfold Prog.only
  split
  · exact hm
  · exact pure ()

theorem ite {p : Prop} [Decidable p] {m₁' m₂' : Prog (σ × γ) ε α} {m₁ m₂ : Prog σ ε α} (h₁ : Traces m₁' m₁)
    (h₂ : Traces m₂' m₂) : Traces (if p then m₁' else m₂') (if p then m₁ else m₂) := by
  split
  · exact h₁
  · exact h₂

end Traces

end Prog

end Hidpin.Lib
