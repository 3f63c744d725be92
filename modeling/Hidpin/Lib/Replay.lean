import Mathlib.Data.List.Induction

/-! Replaying a log of assignments: each entry gives one key a value, the last entry of a key counts,
    and a key without an entry keeps the value it had before the log. -/

namespace Hidpin.Lib
variable {α γ κ β : Type*} [DecidableEq κ] (key : α → κ) (val : α → β)

/-- The value of key `k` after the log, started from `b`. -/
def replay (l : List α) (k : κ) (b : β) : β := l.foldl (fun b a => if key a = k then val a else b) b

/-- The value of the last entry of key `k`. -/
def lastOf (l : List α) (k : κ) : Option β := ((l.filter fun a => decide (key a = k)).getLast?).map val

@[simp] theorem replay_nil (k : κ) (b : β) : replay key val [] k b = b := rfl

@[simp] theorem replay_cons (a : α) (l : List α) (k : κ) (b : β) :
    replay key val (a :: l) k b = replay key val l k (if key a = k then val a else b) := rfl

theorem replay_append (l l' : List α) (k : κ) (b : β) :
    replay key val (l ++ l') k b = replay key val l' k (replay key val l k b) := by
  simp [replay]

theorem replay_concat (l : List α) (a : α) (k : κ) (b : β) :
    replay key val (l ++ [a]) k b = if key a = k then val a else replay key val l k b := by
  simp [replay]

theorem replay_map (f : γ → α) (l : List γ) (k : κ) (b : β) :
    replay key val (l.map f) k b = replay (key ∘ f) (val ∘ f) l k b := by
  simp [replay, List.foldl_map]

/-- Replaying a log gives the value of the last entry if there is one. -/
theorem replay_eq_lastOf (l : List α) (k : κ) (b : β) :
    replay key val l k b = (lastOf key val l k).getD b := by
  induction l using List.reverseRecOn with
  | nil => simp [lastOf]
  | append_singleton l a ih =>
    rw [replay_concat, ih]
    by_cases h : key a = k <;> simp [lastOf, h]

theorem lastOf_isSome {l : List α} {a : α} {k : κ} (ha : a ∈ l) (hk : key a = k) :
    (lastOf key val l k).isSome = true := by
  have hne : l.filter (fun a => decide (key a = k)) ≠ [] :=
    List.ne_nil_of_mem (List.mem_filter.mpr ⟨ha, decide_eq_true hk⟩)
  rw [lastOf, Option.isSome_map, List.getLast?_isSome]
  exact hne

/-- A log whose entries are keys with a value for each key. -/
theorem replay_id (v : κ → β) (l : List κ) (k : κ) (b : β) :
    replay id v l k b = if k ∈ l then v k else b := by
  induction l generalizing b with
  | nil => simp
  | cons a l ih =>
    rw [replay_cons, ih]
    by_cases hl : k ∈ l
    · simp [hl]
    · by_cases ha : a = k
      · simp [ha]
      · simp [hl, ha, Ne.symm ha]

/-- A value that a log leads to is kept by that log. -/
theorem replay_idem {l : List α} {k : κ} {b b' : β} (h : replay key val l k b = b') :
    replay key val l k b' = b' := by
  rw [replay_eq_lastOf] at h ⊢
  cases hl : lastOf key val l k with
  | none => rfl
  | some v => rw [hl] at h; exact h

end Hidpin.Lib
