import Mathlib.Data.List.DropRight
import Mathlib.Data.Nat.Digits.Lemmas

/-! Integer literals: digits in a base, and digits with underscores between them. -/

namespace Hidpin.Lib

/-- The value of a digit, 36 for a character that is none. -/
def digitVal (c : Char) : ℕ :=
  if '0' ≤ c ∧ c ≤ '9' then c.toNat - 48
  else if 'a' ≤ c ∧ c ≤ 'z' then c.toNat - 87
  else if 'A' ≤ c ∧ c ≤ 'Z' then c.toNat - 55
  else 36

/-- A digit in a base. -/
def IsDigit (b : ℕ) (c : Char) : Prop := digitVal c < b

instance (b : ℕ) : DecidablePred (IsDigit b) := fun c => inferInstanceAs (Decidable (digitVal c < b))

/-- The number that digits stand for, the highest first. -/
def value (b : ℕ) (ds : List Char) : ℕ := Nat.ofDigits b (ds.reverse.map digitVal)

/-- A number written as at least one digit. -/
def digits (b : ℕ) (ds : List Char) : Option ℕ :=
  if ds ≠ [] ∧ ds.all fun c => decide (IsDigit b c) then some (value b ds) else none

/-- Digits with single underscores between them. -/
def IsGrouped (b : ℕ) : List Char → Prop
  | [] => False
  | c :: ds => IsDigit b c ∧ match ds with
    | [] => True
    | d :: ds => if d = '_' then IsGrouped b ds else IsGrouped b (d :: ds)

instance instDecidableIsGrouped (b : ℕ) : DecidablePred (IsGrouped b)
  | [] => isFalse id
  | [_] => inferInstanceAs (Decidable (_ ∧ True))
  | c :: d :: ds =>
    have := instDecidableIsGrouped b ds
    have := instDecidableIsGrouped b (d :: ds)
    inferInstanceAs (Decidable (IsDigit b c ∧ if d = '_' then IsGrouped b ds else IsGrouped b (d :: ds)))

/-- A number written as grouped digits. -/
def grouped (b : ℕ) (ds : List Char) : Option ℕ :=
  if IsGrouped b ds then some (value b (ds.filter (· ≠ '_'))) else none

/-- The base that a prefix names, and what is behind it. -/
def prefixed : List Char → Option (ℕ × List Char)
  | '0' :: c :: body =>
    if c = 'x' ∨ c = 'X' then some (16, body)
    else if c = 'o' ∨ c = 'O' then some (8, body)
    else if c = 'b' ∨ c = 'B' then some (2, body)
    else none
  | _ => none

/-- An integer literal: an underscore may follow the prefix, and `unprefixed` reads one without a prefix. -/
def literal (unprefixed : List Char → Option ℕ) (s : List Char) : Option ℕ := match prefixed s with
  | some (b, body) => grouped b (if body.head? = some '_' then body.tail else body)
  | none => unprefixed s

/-- The Unicode property White_Space. -/
def isSpace (c : Char) : Bool :=
  let n := c.toNat
  (9 ≤ n && n ≤ 13) || n = 0x20 || n = 0x85 || n = 0xA0 || n = 0x1680 ||
    (0x2000 ≤ n && n ≤ 0x200A) || n = 0x2028 || n = 0x2029 || n = 0x202F || n = 0x205F || n = 0x3000

/-- A string without the leading and trailing characters of a kind. -/
def trim (space : Char → Bool) (s : List Char) : List Char := (s.dropWhile space).rdropWhile space

variable {b : ℕ} {c : Char} {ds : List Char}

theorem digitVal_eq : digitVal c =
    if 48 ≤ c.toNat ∧ c.toNat ≤ 57 then c.toNat - 48
    else if 97 ≤ c.toNat ∧ c.toNat ≤ 122 then c.toNat - 87
    else if 65 ≤ c.toNat ∧ c.toNat ≤ 90 then c.toNat - 55
    else 36 := by
  have hle : ∀ d e : Char, d ≤ e ↔ d.toNat ≤ e.toNat := fun _ _ => UInt32.le_iff_toNat_le
  simp only [digitVal, hle]
  rfl

theorem digitVal_eq_zero_iff : digitVal c = 0 ↔ c = '0' := by
  rw [← Char.toNat_inj, digitVal_eq, show '0'.toNat = 48 from rfl]
  constructor
  · intro h
    split_ifs at h <;> omega
  · intro h
    rw [h]
    rfl

/-- Digits are ASCII characters. -/
theorem IsDigit.toNat_lt (h : IsDigit b c) (hb : b ≤ 36) : c.toNat < 123 := by
  rw [IsDigit, digitVal_eq] at h
  split_ifs at h <;> omega

theorem IsDigit.mono {b' : ℕ} (h : IsDigit b c) (hb : b ≤ b') : IsDigit b' c := lt_of_lt_of_le h hb

theorem digits_eq_some_iff {v : ℕ} :
    digits b ds = some v ↔ (ds ≠ [] ∧ ∀ c ∈ ds, IsDigit b c) ∧ value b ds = v := by
  rw [digits, Option.ite_none_right_eq_some, Option.some_inj, List.all_eq_true]
  simp only [decide_eq_true_eq]

theorem digits_eq_none (hc : c ∈ ds) (h : ¬ IsDigit b c) : digits b ds = none :=
  if_neg fun hds => h (of_decide_eq_true (List.all_eq_true.mp hds.2 c hc))

/-- Digits in a base are digits in a greater one. -/
theorem digits_mono {b' v : ℕ} (h : digits b ds = some v) (hb : b ≤ b') :
    digits b' ds = some (value b' ds) :=
  have hds := (digits_eq_some_iff.mp h).1
  digits_eq_some_iff.mpr ⟨⟨hds.1, fun c hc => (hds.2 c hc).mono hb⟩, rfl⟩

theorem isGrouped_cons {d : Char} : IsGrouped b (c :: d :: ds) ↔
    IsDigit b c ∧ if d = '_' then IsGrouped b ds else IsGrouped b (d :: ds) := Iff.rfl

theorem isGrouped_iff : ∀ {ds : List Char}, '_' ∉ ds → (IsGrouped b ds ↔ ds ≠ [] ∧ ∀ c ∈ ds, IsDigit b c)
  | [], _ => by simp [IsGrouped]
  | [c], _ => by simp [IsGrouped]
  | c :: d :: ds, h => by
    obtain ⟨-, h⟩ := not_or.mp (List.mem_cons.not.mp h)
    have hd : d ≠ '_' := fun hd => h (hd ▸ List.mem_cons_self)
    rw [isGrouped_cons, if_neg hd, isGrouped_iff h]
    simp

/-- Without underscores grouped digits are digits. -/
theorem grouped_eq_digits (h : '_' ∉ ds) : grouped b ds = digits b ds := by
  have hfilter : ds.filter (· ≠ '_') = ds := List.filter_eq_self.mpr fun c hc => by
    rw [decide_eq_true_iff]
    rintro rfl
    exact h hc
  have hall : (∀ c ∈ ds, IsDigit b c) ↔ (ds.all fun c => decide (IsDigit b c)) = true := by
    simp only [List.all_eq_true, decide_eq_true_eq]
  rw [grouped, digits, hfilter]
  exact if_congr ((isGrouped_iff h).trans (and_congr_right fun _ => hall)) rfl rfl

theorem IsGrouped.mem : ∀ {ds : List Char}, IsGrouped b ds → ∀ c ∈ ds, IsDigit b c ∨ c = '_'
  | [c], h, d, hd => .inl (List.mem_singleton.mp hd ▸ h.1)
  | c :: d :: ds, h, e, he => by
    rw [isGrouped_cons] at h
    rcases List.mem_cons.mp he with rfl | he
    · exact .inl h.1
    · by_cases hd : d = '_'
      · rw [if_pos hd] at h
        rcases List.mem_cons.mp he with rfl | he
        · exact .inr hd
        · exact h.2.mem e he
      · rw [if_neg hd] at h
        exact h.2.mem e he

theorem value_eq_zero_iff (hb : b ≠ 0) : value b ds = 0 ↔ ∀ c ∈ ds, c = '0' := by
  constructor
  · intro h c hc
    exact digitVal_eq_zero_iff.mp
      (Nat.digits_zero_of_eq_zero hb h _ (List.mem_map_of_mem (List.mem_reverse.mpr hc)))
  · intro h
    obtain ⟨n, rfl⟩ : ∃ n, ds = List.replicate n '0' := ⟨_, List.eq_replicate_of_mem h⟩
    rw [value, List.reverse_replicate, List.map_replicate]
    exact Nat.ofDigits_replicate_zero

/-- A number is at least what its highest digit stands for. -/
theorem le_value : digitVal c * b ^ ds.length ≤ value b (c :: ds) := by
  rw [value, List.reverse_cons, List.map_append, Nat.ofDigits_append, List.map_singleton,
    Nat.ofDigits_singleton, List.length_map, List.length_reverse, Nat.mul_comm]
  exact Nat.le_add_left _ _

/-! ### The grammar -/

/-- A text of groups of digits with an underscore between each two, and the digits alone. -/
inductive Groups (b : ℕ) : List Char → List Char → Prop
  | last {ds : List Char} (hne : ds ≠ []) (h : ∀ c ∈ ds, IsDigit b c) : Groups b ds ds
  | more {ds s rest : List Char} (hne : ds ≠ []) (h : ∀ c ∈ ds, IsDigit b c) (hs : Groups b s rest) :
    Groups b (ds ++ '_' :: s) (ds ++ rest)

/-- A text that stands for a number in a base. -/
def Numeral (b : ℕ) (s : List Char) (v : ℕ) : Prop := ∃ ds, Groups b s ds ∧ value b ds = v

/-- The letters of the prefixes, and their bases. -/
def bases : List (Char × ℕ) := [('x', 16), ('X', 16), ('o', 8), ('O', 8), ('b', 2), ('B', 2)]

/-- A number behind the prefix of its base; an underscore may stand between the two. -/
def Based (b : ℕ) (s : List Char) (v : ℕ) : Prop :=
  ∃ letter, (letter, b) ∈ bases ∧ ∃ gap ds, (gap = [] ∨ gap = ['_']) ∧ s = '0' :: letter :: (gap ++ ds) ∧
    Numeral b ds v

theorem not_isDigit_underscore (hb : b ≤ 36) : ¬ IsDigit b '_' := Nat.not_lt.mpr hb

theorem IsDigit.ne_underscore (h : IsDigit b c) (hb : b ≤ 36) : c ≠ '_' := by
  rintro rfl
  exact not_isDigit_underscore hb h

/-- A digit in front of a text belongs to its first group. -/
theorem Groups.cons {s : List Char} (hc : IsDigit b c) (h : Groups b s ds) :
    Groups b (c :: s) (c :: ds) := by
  cases h with
  | last hne h => exact .last (List.cons_ne_nil c ds) (List.forall_mem_cons.mpr ⟨hc, h⟩)
  | more hne h hs => exact Groups.more (List.cons_ne_nil c _) (List.forall_mem_cons.mpr ⟨hc, h⟩) hs

theorem IsGrouped.groups (hb : b ≤ 36) : ∀ {s : List Char}, IsGrouped b s → Groups b s (s.filter (· ≠ '_'))
  | [c], h => by
    have hne := h.1.ne_underscore hb
    rw [List.filter_cons_of_pos (by simpa using hne), List.filter_nil]
    exact .last (List.cons_ne_nil c []) (List.forall_mem_singleton.mpr h.1)
  | c :: d :: s, h => by
    rw [isGrouped_cons] at h
    obtain ⟨hc, h⟩ := h
    rw [List.filter_cons_of_pos (by simpa using hc.ne_underscore hb)]
    by_cases hd : d = '_'
    · rw [if_pos hd] at h
      subst hd
      rw [List.filter_cons_of_neg (by simp)]
      exact Groups.more (List.cons_ne_nil c []) (List.forall_mem_singleton.mpr hc) (h.groups hb)
    · rw [if_neg hd] at h
      exact (h.groups hb).cons hc

theorem isGrouped_append (hb : b ≤ 36) {s : List Char} (hs : IsGrouped b s) : ∀ {ds : List Char}, ds ≠ [] →
    (∀ c ∈ ds, IsDigit b c) → IsGrouped b (ds ++ '_' :: s)
  | [c], _, h => isGrouped_cons.mpr ⟨h c List.mem_cons_self, by rwa [if_pos rfl]⟩
  | c :: d :: ds, _, h => by
    obtain ⟨hc, h⟩ := List.forall_mem_cons.mp h
    refine isGrouped_cons.mpr ⟨hc, ?_⟩
    rw [if_neg ((h d List.mem_cons_self).ne_underscore hb)]
    exact isGrouped_append hb hs (List.cons_ne_nil d ds) h

theorem filter_digits (hb : b ≤ 36) (h : ∀ c ∈ ds, IsDigit b c) : ds.filter (· ≠ '_') = ds :=
  List.filter_eq_self.mpr fun c hc => decide_eq_true ((h c hc).ne_underscore hb)

theorem Groups.isGrouped (hb : b ≤ 36) {s : List Char} (h : Groups b s ds) :
    IsGrouped b s ∧ s.filter (· ≠ '_') = ds := by
  induction h with
  | last hne h =>
    exact ⟨(isGrouped_iff fun hmem => (h _ hmem).ne_underscore hb rfl).mpr ⟨hne, h⟩, filter_digits hb h⟩
  | more hne h hs ih =>
    refine ⟨isGrouped_append hb ih.1 hne h, ?_⟩
    rw [List.filter_append, filter_digits hb h, List.filter_cons_of_neg (by simp), ih.2]

/-- What is read as grouped digits is a text of the grammar. -/
theorem grouped_eq_some_iff (hb : b ≤ 36) {s : List Char} {v : ℕ} :
    grouped b s = some v ↔ Numeral b s v := by
  rw [grouped, Option.ite_none_right_eq_some, Option.some_inj]
  constructor
  · rintro ⟨h, hv⟩
    exact ⟨_, h.groups hb, hv⟩
  · rintro ⟨ds, h, hv⟩
    obtain ⟨hgrouped, rfl⟩ := h.isGrouped hb
    exact ⟨hgrouped, hv⟩

theorem IsGrouped.head : ∀ {s : List Char}, IsGrouped b (c :: s) → IsDigit b c
  | [], h => h.1
  | _ :: _, h => h.1

theorem Numeral.head (hb : b ≤ 36) {s : List Char} {v : ℕ} (h : Numeral b s v) : s.head? ≠ some '_' := by
  intro hhead
  obtain ⟨rest, rfl⟩ := List.head?_eq_some_iff.mp hhead
  obtain ⟨ds, hgroups, -⟩ := h
  exact not_isDigit_underscore hb (hgroups.isGrouped hb).1.head

/-! ### Prefixes -/

theorem prefixed_eq_some_iff {s body : List Char} : prefixed s = some (b, body) ↔
    ∃ c, (c, b) ∈ bases ∧ s = '0' :: c :: body := by
  constructor
  · intro h
    unfold prefixed at h
    split at h
    · next c _ =>
      split_ifs at h with hx ho hb
      · obtain ⟨rfl, rfl⟩ := Prod.mk.inj (Option.some.inj h)
        exact ⟨c, by simpa [bases] using hx, rfl⟩
      · obtain ⟨rfl, rfl⟩ := Prod.mk.inj (Option.some.inj h)
        exact ⟨c, by simpa [bases] using ho, rfl⟩
      · obtain ⟨rfl, rfl⟩ := Prod.mk.inj (Option.some.inj h)
        exact ⟨c, by simpa [bases] using hb, rfl⟩
    · cases h
  · rintro ⟨c, hc, rfl⟩
    simp only [bases, List.mem_cons, Prod.mk.injEq, List.not_mem_nil, or_false] at hc
    rcases hc with ⟨rfl, rfl⟩ | ⟨rfl, rfl⟩ | ⟨rfl, rfl⟩ | ⟨rfl, rfl⟩ | ⟨rfl, rfl⟩ | ⟨rfl, rfl⟩ <;> rfl

/-- The letters are no decimal digits, and the bases have digits for all their values. -/
theorem of_mem_bases (h : (c, b) ∈ bases) : IsDigit 36 c ∧ ¬ IsDigit 10 c ∧ c ≠ '_' ∧ b ≤ 36 := by
  have hall : ∀ p ∈ bases, IsDigit 36 p.1 ∧ ¬ IsDigit 10 p.1 ∧ p.1 ≠ '_' ∧ p.2 ≤ 36 := by decide
  exact hall _ h

theorem prefixed_eq_some {s body : List Char} (h : prefixed s = some (b, body)) :
    ∃ c, s = '0' :: c :: body ∧ IsDigit 36 c ∧ b ≤ 36 := by
  obtain ⟨c, hc, rfl⟩ := prefixed_eq_some_iff.mp h
  obtain ⟨hdigit, -, -, hb⟩ := of_mem_bases hc
  exact ⟨c, rfl, hdigit, hb⟩

/-- A decimal or octal number has no prefix. -/
theorem Numeral.unprefixed (hb : b ≤ 10) {s : List Char} {v : ℕ} (h : Numeral b s v) :
    prefixed s = none := by
  refine Option.eq_none_iff_forall_ne_some.mpr fun ⟨b', body⟩ hprefixed => ?_
  obtain ⟨c, hc, rfl⟩ := prefixed_eq_some_iff.mp hprefixed
  obtain ⟨-, hdigit, hne, -⟩ := of_mem_bases hc
  obtain ⟨ds, hgroups, -⟩ := h
  rcases (hgroups.isGrouped (by omega)).1.mem c (by simp) with hc | hc
  · exact hdigit (hc.mono hb)
  · exact hne hc

theorem Based.prefixed {s : List Char} {v : ℕ} (h : Based b s v) : ∃ body, prefixed s = some (b, body) := by
  obtain ⟨letter, hletter, gap, ds, -, rfl, -⟩ := h
  exact ⟨_, prefixed_eq_some_iff.mpr ⟨letter, hletter, rfl⟩⟩

/-- What is read behind a prefix is a text of the grammar. -/
theorem literal_of_prefixed {unprefixed : List Char → Option ℕ} {s body : List Char} {v : ℕ}
    (h : prefixed s = some (b, body)) : literal unprefixed s = some v ↔ Based b s v := by
  obtain ⟨letter, hletter, hs⟩ := prefixed_eq_some_iff.mp h
  have hb := (of_mem_bases hletter).2.2.2
  rw [literal, h]
  refine (grouped_eq_some_iff hb).trans ?_
  constructor
  · intro hnumeral
    by_cases hhead : body.head? = some '_'
    · obtain ⟨ds, rfl⟩ := List.head?_eq_some_iff.mp hhead
      rw [if_pos hhead] at hnumeral
      exact ⟨letter, hletter, ['_'], ds, .inr rfl, hs, hnumeral⟩
    · rw [if_neg hhead] at hnumeral
      exact ⟨letter, hletter, [], body, .inl rfl, hs, hnumeral⟩
  · rintro ⟨letter', -, gap, ds, hgap, hs', hnumeral⟩
    obtain ⟨-, hbody⟩ := List.cons.inj (List.cons.inj (hs.symm.trans hs')).2
    rw [hbody]
    rcases hgap with rfl | rfl
    · rw [List.nil_append, if_neg (hnumeral.head hb)]
      exact hnumeral
    · exact hnumeral

theorem grouped_mem {v : ℕ} (h : grouped b ds = some v) (hb : b ≤ 36) :
    ∀ c ∈ ds, IsDigit 36 c ∨ c = '_' := by
  obtain ⟨hgrouped, -⟩ := Option.ite_none_right_eq_some.mp h
  exact fun c hc => (hgrouped.mem c hc).imp_left fun hdigit => hdigit.mono hb

/-- The characters of a literal. -/
theorem literal_mem {unprefixed : List Char → Option ℕ} {s : List Char} {v : ℕ}
    (h : literal unprefixed s = some v)
    (hunprefixed : unprefixed s = some v → ∀ c ∈ s, IsDigit 36 c ∨ c = '_') :
    ∀ c ∈ s, IsDigit 36 c ∨ c = '_' := by
  rw [literal] at h
  cases hprefixed : prefixed s with
  | none =>
    rw [hprefixed] at h
    exact hunprefixed h
  | some found =>
    obtain ⟨b, body⟩ := found
    rw [hprefixed] at h
    obtain ⟨c, rfl, hc, hb⟩ := prefixed_eq_some hprefixed
    have hbody : ∀ d ∈ body, IsDigit 36 d ∨ d = '_' := by
      have hmem := grouped_mem h hb
      intro d hd
      by_cases hhead : body.head? = some '_'
      · obtain ⟨rest, rfl⟩ := List.head?_eq_some_iff.mp hhead
        rw [if_pos hhead] at hmem
        rcases List.mem_cons.mp hd with rfl | hd
        · exact .inr rfl
        · exact hmem d hd
      · rw [if_neg hhead] at hmem
        exact hmem d hd
    simp only [List.mem_cons, forall_eq_or_imp]
    exact ⟨.inl (by decide), .inl hc, hbody⟩

end Hidpin.Lib
