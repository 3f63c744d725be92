import Mathlib.Tactic.Common

/-! Stateful programs that end with a value or stop with an error. The state survives both, as it does
    for a method that changes its object and returns early. `wp` is the weakest precondition of a
    program for what its outcome and its last state have to satisfy, and `Keeps` says that a property
    of the state survives the program whatever its outcome. -/

namespace Hidpin.Lib
variable {σ τ ε ε' α β : Type}

/-- A program over the state `σ` with errors `ε`. -/
abbrev Prog (σ ε α : Type) := ExceptT ε (StateM σ) α

namespace Prog

/-- The outcome of a program and the state it leaves. -/
def exec (m : Prog σ ε α) (s : σ) : Except ε α × σ := m.run.run s

/-- Reads a part of the state. -/
def gets (f : σ → α) : Prog σ ε α := fun s => (.ok (f s), s)

/-- Changes the state. -/
def update (f : σ → σ) : Prog σ ε Unit := fun s => (.ok (), f s)

/-- An operation of the state that cannot fail. -/
def call (f : σ → α × σ) : Prog σ ε α := fun s => (.ok (f s).1, (f s).2)

/-- The outcome as a value, for the errors that `f` knows; the other errors go on. -/
def caught (f : ε → Option ε') : Except ε α → Except ε (Except ε' α)
  | .ok a => .ok (.ok a)
  | .error e => match f e with
    | some e' => .ok (.error e')
    | none => .error e

/-- A program whose errors of some kind are values. -/
def catching (f : ε → Option ε') (m : Prog σ ε α) : Prog σ ε (Except ε' α) := fun s =>
  (caught f (m.exec s).1, (m.exec s).2)

@[simp] theorem caught_ok (f : ε → Option ε') (a : α) : caught f (.ok a) = .ok (.ok a) := rfl

/-- A program over a part of the state. -/
def zoom (get : σ → τ) (put : τ → σ → σ) (m : Prog τ ε α) : Prog σ ε α := fun s =>
  ((m.exec (get s)).1, put (m.exec (get s)).2 s)

/-- A program over a part of the state, with other errors. -/
def embed (get : σ → τ) (put : τ → σ → σ) (f : ε → ε') (m : Prog τ ε α) : Prog σ ε' α := fun s =>
  ((m.exec (get s)).1.mapError f, put (m.exec (get s)).2 s)

/-- A program run on a condition only. -/
def only (c : Prop) [Decidable c] (m : Prog σ ε Unit) : Prog σ ε Unit := if c then m else pure ()

/-- A loop over a list. -/
def each (f : α → Prog σ ε Unit) : List α → Prog σ ε Unit
  | [] => pure ()
  | a :: l => do
    f a
    each f l

/-- The outcome and the last state of a program satisfy `Q` when it starts in `s`. -/
def wp (m : Prog σ ε α) (Q : Except ε α → σ → Prop) (s : σ) : Prop := Q (m.exec s).1 (m.exec s).2

/-- A condition on a value and one on an error, as one on the outcome. -/
def post (Q : α → σ → Prop) (E : ε → σ → Prop) : Except ε α → σ → Prop
  | .ok a => Q a
  | .error e => E e

@[simp] theorem post_ok (Q : α → σ → Prop) (E : ε → σ → Prop) (a : α) : post Q E (.ok a) = Q a := rfl

@[simp] theorem post_error (Q : α → σ → Prop) (E : ε → σ → Prop) (e : ε) :
    post Q E (.error e) = E e := rfl

/-- The program keeps a property of the state. -/
def Keeps (I : σ → Prop) (m : Prog σ ε α) : Prop := ∀ s, I s → I (m.exec s).2

section Exec
variable (s : σ)

@[simp] theorem exec_pure (a : α) : (pure a : Prog σ ε α).exec s = (.ok a, s) := rfl

@[simp] theorem exec_throw (e : ε) : (throw e : Prog σ ε α).exec s = (.error e, s) := rfl

@[simp] theorem exec_gets (f : σ → α) : (gets f : Prog σ ε α).exec s = (.ok (f s), s) := rfl

@[simp] theorem exec_update (f : σ → σ) : (update f : Prog σ ε Unit).exec s = (.ok (), f s) := rfl

@[simp] theorem exec_call (f : σ → α × σ) : (call f : Prog σ ε α).exec s = (.ok (f s).1, (f s).2) := rfl

@[simp] theorem exec_catching (f : ε → Option ε') (m : Prog σ ε α) :
    (catching f m).exec s = (caught f (m.exec s).1, (m.exec s).2) := rfl

@[simp] theorem exec_zoom (get : σ → τ) (put : τ → σ → σ) (m : Prog τ ε α) :
    (zoom get put m).exec s = ((m.exec (get s)).1, put (m.exec (get s)).2 s) := rfl

theorem exec_bind (m : Prog σ ε α) (f : α → Prog σ ε β) :
    (m >>= f).exec s = match m.exec s with
      | (.ok a, s') => (f a).exec s'
      | (.error e, s') => (.error e, s') := by
  simp only [exec, ExceptT.run_bind, StateT.run_bind]
  rcases StateT.run (ExceptT.run m) s with ⟨_ | _, s'⟩ <;> rfl

end Exec

section Wp
variable {s : σ}

@[simp] theorem wp_pure (a : α) (Q : Except ε α → σ → Prop) : (pure a : Prog σ ε α).wp Q s ↔ Q (.ok a) s :=
  Iff.rfl

@[simp] theorem wp_throw (e : ε) (Q : Except ε α → σ → Prop) :
    (throw e : Prog σ ε α).wp Q s ↔ Q (.error e) s := Iff.rfl

@[simp] theorem wp_gets (f : σ → α) (Q : Except ε α → σ → Prop) :
    (gets f : Prog σ ε α).wp Q s ↔ Q (.ok (f s)) s := Iff.rfl

@[simp] theorem wp_update (f : σ → σ) (Q : Except ε Unit → σ → Prop) :
    (update f : Prog σ ε Unit).wp Q s ↔ Q (.ok ()) (f s) := Iff.rfl

@[simp] theorem wp_call (f : σ → α × σ) (Q : Except ε α → σ → Prop) :
    (call f : Prog σ ε α).wp Q s ↔ Q (.ok (f s).1) (f s).2 := Iff.rfl

/-- The rule of sequencing: an error of the first program ends both. -/
@[simp] theorem wp_bind (m : Prog σ ε α) (f : α → Prog σ ε β) (Q : Except ε β → σ → Prop) :
    (m >>= f).wp Q s ↔ m.wp (post (fun a => (f a).wp Q) fun e => Q (.error e)) s := by
  unfold wp
  rw [exec_bind]
  rcases m.exec s with ⟨_ | _, s'⟩ <;> rfl

@[simp] theorem wp_catching (f : ε → Option ε') (m : Prog σ ε α)
    (Q : Except ε (Except ε' α) → σ → Prop) :
    (catching f m).wp Q s ↔ m.wp (fun r s' => Q (caught f r) s') s := Iff.rfl

@[simp] theorem wp_zoom (get : σ → τ) (put : τ → σ → σ) (m : Prog τ ε α)
    (Q : Except ε α → σ → Prop) :
    (zoom get put m).wp Q s ↔ m.wp (fun r t => Q r (put t s)) (get s) := Iff.rfl

@[simp] theorem wp_embed (get : σ → τ) (put : τ → σ → σ) (f : ε → ε') (m : Prog τ ε α)
    (Q : Except ε' α → σ → Prop) :
    (embed get put f m).wp Q s ↔ m.wp (fun r t => Q (r.mapError f) (put t s)) (get s) := Iff.rfl

@[simp] theorem wp_only {c : Prop} [Decidable c] (m : Prog σ ε Unit) (Q : Except ε Unit → σ → Prop) :
    (only c m).wp Q s ↔ (c → m.wp Q s) ∧ (¬ c → Q (.ok ()) s) := by
  unfold only
  split <;> simp_all

theorem wp_of_exec {m : Prog σ ε α} {r : Except ε α} {s' : σ} (h : m.exec s = (r, s'))
    (Q : Except ε α → σ → Prop) : m.wp Q s ↔ Q r s' := by
  rw [wp, h]

theorem wp_mono {m : Prog σ ε α} {Q Q' : Except ε α → σ → Prop} (h : m.wp Q s)
    (hq : ∀ r s', Q r s' → Q' r s') : m.wp Q' s := hq _ _ h

/-- The rule of sequencing with what the first program is known to do. -/
theorem wp_seq {m : Prog σ ε α} {f : α → Prog σ ε β} {R : Except ε α → σ → Prop}
    {Q : Except ε β → σ → Prop} (hm : m.wp R s) (hok : ∀ a s', R (.ok a) s' → (f a).wp Q s')
    (herr : ∀ e s', R (.error e) s' → Q (.error e) s') : (m >>= f).wp Q s := by
  rw [wp_bind]
  refine wp_mono hm fun r s' hr => ?_
  cases r with
  | ok a => exact hok a s' hr
  | error e => exact herr e s' hr

/-- The rule of sequencing for a program that ends with a value. -/
theorem wp_then {m : Prog σ ε α} {f : α → Prog σ ε β} {R : α → σ → Prop} {Q : Except ε β → σ → Prop}
    (hm : m.wp (post R fun _ _ => False) s) (hok : ∀ a s', R a s' → (f a).wp Q s') : (m >>= f).wp Q s :=
  wp_seq hm hok fun _ _ h => h.elim

end Wp

namespace Keeps
variable {I : σ → Prop}

theorem pure (a : α) : Keeps I (Pure.pure a : Prog σ ε α) := fun _ h => h

theorem throw (e : ε) : Keeps I (MonadExcept.throw e : Prog σ ε α) := fun _ h => h

theorem gets (f : σ → α) : Keeps I (Prog.gets f : Prog σ ε α) := fun _ h => h

theorem update {f : σ → σ} (h : ∀ s, I s → I (f s)) : Keeps I (Prog.update f : Prog σ ε Unit) := h

theorem call {f : σ → α × σ} (h : ∀ s, I s → I (f s).2) : Keeps I (Prog.call f : Prog σ ε α) := h

theorem catching {f : ε → Option ε'} {m : Prog σ ε α} (h : Keeps I m) : Keeps I (m.catching f) := h

theorem bind {m : Prog σ ε α} {f : α → Prog σ ε β} (hm : Keeps I m) (hf : ∀ a, Keeps I (f a)) :
    Keeps I (m >>= f) := by
  intro s hs
  have hs' := hm s hs
  rw [exec_bind]
  rcases h : m.exec s with ⟨_ | a, s'⟩ <;> rw [h] at hs'
  · exact hs'
  · exact hf a s' hs'

/-- What is kept first may be more than what holds in the end. -/
theorem bind_of {J : σ → Prop} (hJ : ∀ s, J s → I s) {m : Prog σ ε α} {f : α → Prog σ ε β}
    (hm : Keeps J m) (hf : ∀ a s, J s → I ((f a).exec s).2) {s : σ} (hs : J s) :
    I ((m >>= f).exec s).2 := by
  have hs' := hm s hs
  rw [exec_bind]
  rcases h : m.exec s with ⟨_ | a, s'⟩ <;> rw [h] at hs'
  · exact hJ _ hs'
  · exact hf a s' hs'

theorem only {c : Prop} [Decidable c] {m : Prog σ ε Unit} (hm : c → Keeps I m) :
    Keeps I (Prog.only c m) := by
  unfold Prog.only
  split
  · next hc => exact hm hc
  · exact pure ()

theorem each {f : α → Prog σ ε Unit} (hf : ∀ a, Keeps I (f a)) : ∀ l : List α, Keeps I (Prog.each f l)
  | [] => pure _
  | a :: l => bind (hf a) fun _ => each hf l

/-- What the program keeps may be assumed of its last state. -/
theorem wp_assume {m : Prog σ ε α} {Q : Except ε α → σ → Prop} {s : σ} (h : Keeps I m) (hs : I s)
    (hm : m.wp (fun r s' => I s' → Q r s') s) : m.wp Q s := hm (h s hs)

end Keeps

/-- A loop whose body keeps a property of the elements still to come reaches the end of the list. -/
theorem wp_each {f : α → Prog σ ε Unit} {I : List α → σ → Prop} {E : ε → σ → Prop}
    (hf : ∀ a l s, I (a :: l) s → (f a).wp (post (fun _ => I l) E) s) :
    ∀ (l : List α) {s : σ}, I l s → (each f l).wp (post (fun _ => I []) E) s
  | [], _, h => h
  | a :: l, s, h => wp_seq (hf a l s h) (fun _ _ h' => wp_each hf l h') fun _ _ h' => h'

/-- The errors that the program may stop with. -/
def Stops (P : ε → Prop) (m : Prog σ ε α) : Prop := ∀ s, m.wp (post (fun _ _ => True) fun e _ => P e) s

namespace Stops
variable {P : ε → Prop}

theorem pure (a : α) : Stops P (Pure.pure a : Prog σ ε α) := fun _ => trivial

theorem throw {e : ε} (he : P e) : Stops P (MonadExcept.throw e : Prog σ ε α) := fun _ => he

theorem gets (f : σ → α) : Stops P (Prog.gets f : Prog σ ε α) := fun _ => trivial

theorem update (f : σ → σ) : Stops P (Prog.update f : Prog σ ε Unit) := fun _ => trivial

theorem call (f : σ → α × σ) : Stops P (Prog.call f : Prog σ ε α) := fun _ => trivial

theorem mono {P' : ε → Prop} {m : Prog σ ε α} (hm : Stops P m) (hP : ∀ e, P e → P' e) : Stops P' m :=
  fun s => wp_mono (hm s) fun r _ hr => by
    cases r with
    | ok _ => exact hr
    | error e => exact hP e hr

theorem bind {m : Prog σ ε α} {f : α → Prog σ ε β} (hm : Stops P m) (hf : ∀ a, Stops P (f a)) :
    Stops P (m >>= f) :=
  fun s => wp_seq (hm s) (fun a s' _ => hf a s') fun _ _ he => he

theorem only {p : Prop} [Decidable p] {m : Prog σ ε Unit} (hm : Stops P m) : Stops P (Prog.only p m) := by
  unfold Prog.only
  split
  · exact hm
  · exact pure ()

theorem zoom (get : σ → τ) (put : τ → σ → σ) {m : Prog τ ε α} (hm : Stops P m) :
    Stops P (Prog.zoom get put m) := by
  intro s
  rw [wp_zoom]
  refine wp_mono (hm (get s)) fun r _ hr => ?_
  cases r with
  | ok _ => trivial
  | error _ => exact hr

theorem embed {P : ε' → Prop} (get : σ → τ) (put : τ → σ → σ) {f : ε → ε'} (hf : ∀ e, P (f e))
    (m : Prog τ ε α) : Stops P (Prog.embed get put f m) := by
  intro s
  rw [wp_embed, wp]
  cases (m.exec (get s)).1 with
  | ok _ => trivial
  | error e => exact hf e

/-- Caught errors do not stop the program. -/
theorem catching (f : ε → Option ε') {m : Prog σ ε α} (hm : Stops P m) :
    Stops (fun e => P e ∧ f e = none) (m.catching f) := by
  intro s
  rw [wp_catching]
  refine wp_mono (hm s) fun r _ hr => ?_
  cases r with
  | ok _ => trivial
  | error e =>
    rw [caught]
    split
    · trivial
    · next hf => exact ⟨hr, hf⟩

theorem each {f : α → Prog σ ε Unit} (hf : ∀ a, Stops P (f a)) : ∀ l : List α, Stops P (Prog.each f l)
  | [] => pure _
  | a :: l => bind (hf a) fun _ => each hf l

end Stops

end Prog

end Hidpin.Lib
