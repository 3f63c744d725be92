import Hidpin.Codec.UsbIds

/-! What the command needs of Go's `strconv` and `strings`, over the characters of a text. -/

namespace Hidpin.Go

/-- `strconv.ParseInt(s, 0, 64)`. -/
def parseInt (s : List Char) : Option ℤ :=
  if s.head? = some '+' then ((parseUint s.tail).filter (· < 2 ^ 63)).map Int.ofNat
  else if s.head? = some '-' then ((parseUint s.tail).filter (· ≤ 2 ^ 63)).map fun v : ℕ => -(v : ℤ)
  else ((parseUint s).filter (· < 2 ^ 63)).map Int.ofNat

/-- `strconv.Itoa` of a number that is not negative. -/
def itoa (n : ℕ) : List Char := Nat.toDigits 10 n

/-- `strings.Cut`: what is before the first separator, what is behind it, and whether there is one. -/
def cut (sep : Char) : List Char → List Char × List Char × Bool
  | [] => ([], [], false)
  | c :: s =>
    if c = sep then ([], s, true)
    else
      let (before, after, found) := cut sep s
      (c :: before, after, found)

/-- `unicode.ToLower`, but for letters that are not ASCII in lower case either. -/
def toLower (c : Char) : Char :=
  if 'A' ≤ c ∧ c ≤ 'Z' then Char.ofNat (c.toNat + 32)
  else if c = '\u0130' then 'i' -- dotted capital I
  else if c = '\u212A' then 'k' -- Kelvin sign
  else c

/-! ### Numbers -/

theorem isDigit_digitChar {d : ℕ} (h : d < 10) :
    Lib.IsDigit 10 d.digitChar ∧ Lib.digitVal d.digitChar = d := by
  interval_cases d <;> decide

theorem value_concat (b : ℕ) (ds : List Char) (c : Char) :
    Lib.value b (ds ++ [c]) = b * Lib.value b ds + Lib.digitVal c := by
  rw [Lib.value, List.reverse_append, List.reverse_singleton, List.singleton_append, List.map_cons,
    Nat.ofDigits_cons, Lib.value, Nat.add_comm]

/-- The decimal digits of a number stand for it, without a leading zero. -/
theorem itoa_spec (n : ℕ) : (∀ c ∈ itoa n, Lib.IsDigit 10 c) ∧ Lib.value 10 (itoa n) = n ∧
    (n ≠ 0 → (itoa n).head? ≠ some '0') := by
  induction n using Nat.strongRecOn with
  | ind n ih =>
    rw [itoa, Nat.toDigits_eq_if (by decide)]
    split_ifs with hn
    · obtain ⟨hdigit, hval⟩ := isDigit_digitChar hn
      refine ⟨by simpa using hdigit, by simpa [Lib.value] using hval, fun hne hhead => hne ?_⟩
      rw [List.head?_cons, Option.some_inj] at hhead
      rw [← hval, hhead]
      rfl
    · obtain ⟨hdigit, hval⟩ := isDigit_digitChar (Nat.mod_lt n (by decide : 0 < 10))
      obtain ⟨hdigits, hvalue, hhead⟩ := ih (n / 10) (by omega)
      rw [itoa] at hdigits hvalue hhead
      refine ⟨fun c hc => ?_, ?_, fun _ => ?_⟩
      · rcases List.mem_append.mp hc with hc | hc
        · exact hdigits c hc
        · rw [List.mem_singleton.mp hc]
          exact hdigit
      · rw [value_concat, hvalue, hval]
        omega
      · rw [List.head?_append_of_ne_nil _ Nat.toDigits_ne_nil]
        exact hhead (by omega)

theorem digits_itoa (n : ℕ) : Lib.digits 10 (itoa n) = some n :=
  Lib.digits_eq_some_iff.mpr ⟨⟨Nat.toDigits_ne_nil, (itoa_spec n).1⟩, (itoa_spec n).2.1⟩

/-- A number that is written out is read as that number. -/
theorem parseInt_itoa {n : ℕ} (h : n < 2 ^ 63) : parseInt (itoa n) = some (n : ℤ) := by
  have hdigits := digits_itoa n
  have hmem : ∀ c ∈ itoa n, c ≠ '+' ∧ c ≠ '-' ∧ c ≠ '_' := fun c hc => by
    have hdigit := (itoa_spec n).1 c hc
    refine ⟨?_, ?_, ?_⟩ <;> rintro rfl <;> revert hdigit <;> decide
  have hsign : ∀ c, c = '+' ∨ c = '-' → (itoa n).head? ≠ some c := fun c hc hhead => by
    have hne := hmem c (List.mem_of_head? hhead)
    rcases hc with rfl | rfl
    · exact hne.1 rfl
    · exact hne.2.1 rfl
  have hgrouped : ∀ b, Lib.grouped b (itoa n) = Lib.digits b (itoa n) := fun b =>
    Lib.grouped_eq_digits fun hc => (hmem '_' hc).2.2 rfl
  have huint : parseUint (itoa n) = some n := by
    rw [parseUint, Codec.literal_unprefixed (Codec.prefixed_digits hdigits).1, unprefixed, hgrouped,
      hgrouped, hdigits]
    by_cases hn : n = 0
    · subst hn
      decide
    · rw [if_neg ((itoa_spec n).2.2 hn), Option.filter_some, decide_eq_true (by omega : n < 2 ^ 64),
        if_pos rfl]
  rw [parseInt, if_neg (hsign _ (Or.inl rfl)), if_neg (hsign _ (Or.inr rfl)), huint, Option.filter_some,
    decide_eq_true h, if_pos rfl]
  rfl

/-- A number that is not negative, as `strconv.ParseInt` takes it: a literal with a sign in front of it or
    none, `-` only in front of 0. -/
inductive Natural : List Char → ℕ → Prop
  | unsigned {s : List Char} {n : ℕ} (h : Codec.GoLiteral s n) : Natural s n
  | plus {s : List Char} {n : ℕ} (h : Codec.GoLiteral s n) : Natural ('+' :: s) n
  | minus {s : List Char} (h : Codec.GoLiteral s 0) : Natural ('-' :: s) 0

/-- The characters of a number. -/
theorem Natural.mem {s : List Char} {n : ℕ} (h : Natural s n) :
    ∀ c ∈ s, Lib.IsDigit 36 c ∨ c = '_' ∨ c = '+' ∨ c = '-' := by
  have hliteral : ∀ {t : List Char} {v : ℕ}, Codec.GoLiteral t v →
      ∀ c ∈ t, Lib.IsDigit 36 c ∨ c = '_' ∨ c = '+' ∨ c = '-' :=
    fun h c hc => (h.mem c hc).imp_right .inl
  cases h with
  | unsigned h => exact hliteral h
  | plus h => exact List.forall_mem_cons.mpr ⟨.inr (.inr (.inl rfl)), hliteral h⟩
  | minus h => exact List.forall_mem_cons.mpr ⟨.inr (.inr (.inr rfl)), hliteral h⟩

theorem not_literal_signed {sign : Char} {s : List Char} {n : ℕ} (hsign : sign = '+' ∨ sign = '-') :
    ¬ Codec.GoLiteral (sign :: s) n := by
  intro h
  have hmem := h.mem sign List.mem_cons_self
  rcases hsign with rfl | rfl <;> revert hmem <;> decide

theorem parseUint_eq_some_iff {s : List Char} {n : ℕ} :
    parseUint s = some n ↔ Codec.GoLiteral s n ∧ n < 2 ^ 64 := by
  rw [parseUint, Option.filter_eq_some_iff, Codec.go_literal_iff, decide_eq_true_iff]

/-- What is read as a number that is not negative is a text of the grammar. -/
theorem parseInt_iff {s : List Char} {n : ℕ} (hn : n < 2 ^ 63) :
    parseInt s = some (n : ℤ) ↔ Natural s n := by
  have hread : ∀ t, ((parseUint t).filter (· < 2 ^ 63)).map Int.ofNat = some (n : ℤ) ↔
      Codec.GoLiteral t n := by
    intro t
    rw [Option.map_eq_some_iff]
    constructor
    · rintro ⟨v, hv, heq⟩
      obtain rfl := Int.ofNat.inj heq
      exact (parseUint_eq_some_iff.mp (Option.eq_some_of_filter_eq_some hv)).1
    · intro h
      refine ⟨n, ?_, rfl⟩
      rw [Option.filter_eq_some_iff, parseUint_eq_some_iff]
      exact ⟨⟨h, by omega⟩, decide_eq_true hn⟩
  rw [parseInt]
  split_ifs with hplus hminus
  · obtain ⟨t, rfl⟩ := List.head?_eq_some_iff.mp hplus
    refine (hread t).trans ⟨.plus, fun h => ?_⟩
    cases h with
    | unsigned h => exact (not_literal_signed (.inl rfl) h).elim
    | plus h => exact h
  · obtain ⟨t, rfl⟩ := List.head?_eq_some_iff.mp hminus
    rw [List.tail_cons, Option.map_eq_some_iff]
    constructor
    · rintro ⟨v, hv, heq⟩
      obtain ⟨rfl, rfl⟩ : v = 0 ∧ n = 0 := by omega
      exact .minus (parseUint_eq_some_iff.mp (Option.eq_some_of_filter_eq_some hv)).1
    · intro h
      cases h with
      | unsigned h => exact (not_literal_signed (.inr rfl) h).elim
      | minus h =>
        refine ⟨0, ?_, rfl⟩
        rw [Option.filter_eq_some_iff, parseUint_eq_some_iff]
        exact ⟨⟨h, by decide⟩, by decide⟩
  · refine (hread s).trans ⟨.unsigned, fun h => ?_⟩
    cases h with
    | unsigned h => exact h
    | plus h => exact absurd rfl hplus
    | minus h => exact absurd rfl hminus

/-! ### Texts -/

theorem cut_append {sep : Char} {before : List Char} (h : sep ∉ before) (after : List Char) :
    cut sep (before ++ sep :: after) = (before, after, true) := by
  induction before with
  | nil => exact if_pos rfl
  | cons c before ih =>
    obtain ⟨hc, hbefore⟩ := not_or.mp (List.mem_cons.not.mp h)
    rw [List.cons_append, cut, if_neg (Ne.symm hc), ih hbefore]

theorem cut_of_not_mem {sep : Char} {s : List Char} (h : sep ∉ s) : cut sep s = (s, [], false) := by
  induction s with
  | nil => rfl
  | cons c s ih =>
    obtain ⟨hc, hs⟩ := not_or.mp (List.mem_cons.not.mp h)
    rw [cut, if_neg (Ne.symm hc), ih hs]

/-- A text is cut at its first separator, or has none. -/
theorem cut_cases (sep : Char) (s : List Char) :
    (∃ before after, sep ∉ before ∧ s = before ++ sep :: after ∧ cut sep s = (before, after, true)) ∨
      (sep ∉ s ∧ cut sep s = (s, [], false)) := by
  by_cases hsep : sep ∈ s
  · obtain ⟨before, after, rfl, hbefore⟩ := List.eq_append_cons_of_mem hsep
    exact .inl ⟨before, after, hbefore, rfl, cut_append hbefore after⟩
  · exact .inr ⟨hsep, cut_of_not_mem hsep⟩

/-- The parts of a text make it up. -/
theorem cut_eq (sep : Char) : ∀ s : List Char,
    s = if (cut sep s).2.2 then (cut sep s).1 ++ sep :: (cut sep s).2.1 else (cut sep s).1
  | [] => rfl
  | c :: s => by
    have ih := cut_eq sep s
    by_cases hc : c = sep
    · rw [cut, if_pos hc, hc]
      exact (if_pos rfl).symm
    · have hcut : cut sep (c :: s) = (c :: (cut sep s).1, (cut sep s).2) := by rw [cut, if_neg hc]
      rw [hcut]
      dsimp only
      split_ifs at ih ⊢ with hfound
      · rw [List.cons_append, ← ih]
      · rw [← ih]

theorem cut_prefix (sep : Char) (s : List Char) : (cut sep s).1 <+: s := by
  have h := cut_eq sep s
  split_ifs at h
  · exact ⟨_, h.symm⟩
  · exact ⟨[], by rw [List.append_nil, ← h]⟩

end Hidpin.Go
