import Hidpin.Host.Error
import Hidpin.Lib.Bytes
import Hidpin.Lib.Literal

/-! The environment variables of the USB ids (`rust/src/device.rs`, `hidpin/device.go`,
    `python/src/hidpin/device.py`): the three libraries hand them to the number parsers of their languages,
    which agree on the documented numbers up to the literals listed here. -/

namespace Hidpin

namespace Host

/-- `u64::from_str_radix`: digits behind an optional `+`. -/
def fromStrRadix (s : List Char) (radix : ℕ) : Option ℕ :=
  (Lib.digits radix (if s.head? = some '+' then s.tail else s)).filter (· < 2 ^ 64)

/-- `env_id`, by the value of the variable. -/
def envId (name : String) (fallback : U16) (value : Option (List Char)) : Except Error U16 :=
  let raw := Lib.trim Lib.isSpace (value.getD [])
  if raw = [] then .ok fallback
  else
    let parsed := match ['0', 'x'].isPrefixOf? raw <|> ['0', 'X'].isPrefixOf? raw with
      | some hex => fromStrRadix hex 16
      | none => fromStrRadix raw 10
    match parsed with
    | some value =>
      if value ≤ 0xFFFF then .ok (BitVec.ofNat 16 value)
      else .error (.invalidArgument (name ++ " is out of range for 16 bits: '" ++ String.ofList raw ++ "'"))
    | none => .error (.invalidArgument (name ++ " is not a 16-bit number: '" ++ String.ofList raw ++ "'"))

end Host

namespace Go

/-- A literal without a prefix: octal behind a 0. -/
def unprefixed (s : List Char) : Option ℕ := if s.head? = some '0' then Lib.grouped 8 s else Lib.grouped 10 s

/-- `strconv.ParseUint(s, 0, 64)`. -/
def parseUint (s : List Char) : Option ℕ := (Lib.literal unprefixed s).filter (· < 2 ^ 64)

/-- `envID`. -/
def envId (name : String) (fallback : U16) (value : Option (List Char)) : Except String U16 :=
  let raw := Lib.trim Lib.isSpace (value.getD [])
  if raw = [] then .ok fallback
  else
    match parseUint raw with
    | none => .error (name ++ " is not a 16-bit number: '" ++ String.ofList raw ++ "'")
    | some value =>
      if value > 0xFFFF then .error (name ++ " is out of range for 16 bits: '" ++ String.ofList raw ++ "'")
      else .ok (BitVec.ofNat 16 value)

end Go

namespace Python

/-- How many decimal digits `int` converts. -/
abbrev maxStrDigits : ℕ := 4300

/-- A literal without a prefix: 0 is the only number with leading zeros. -/
def unprefixed (s : List Char) : Option ℕ :=
  (Lib.grouped 10 s).filter fun v =>
    (s.filter (· ≠ '_')).length ≤ maxStrDigits ∧ (s.head? = some '0' → v = 0)

section Int
variable (toDecimal : Char → Option (Fin 10))

/-- The ASCII character that `int` reads for one of the string, by the decimal digits of Unicode. -/
def ascii (c : Char) : Char :=
  if c.toNat < 127 then c
  else if Lib.isSpace c then ' '
  else match toDecimal c with
    | some d => Char.ofNat (48 + d.val)
    | none => '?'

/-- The white space of ASCII. -/
def isSpace (c : Char) : Bool := (9 ≤ c.toNat && c.toNat ≤ 13) || c.toNat = 0x20

/-- `int(s, 0)`; nothing is a `ValueError`. -/
def int (s : List Char) : Option ℤ :=
  let s := Lib.trim isSpace (s.map (ascii toDecimal))
  if s.head? = some '+' then (Lib.literal unprefixed s.tail).map Int.ofNat
  else if s.head? = some '-' then (Lib.literal unprefixed s.tail).map fun v : ℕ => -(v : ℤ)
  else (Lib.literal unprefixed s).map Int.ofNat

/-- `_env_id`. -/
def envId (name : String) (default : ℤ) (value : Option (List Char)) : Except String ℤ :=
  match value with
  | none | some [] => .ok default
  | some raw =>
    match int toDecimal raw with
    | none => .error (name ++ " is not a 16-bit number: '" ++ String.ofList raw ++ "'")
    | some value =>
      if 0 ≤ value ∧ value ≤ 0xFFFF then .ok value
      else .error (name ++ " is out of range for 16 bits: '" ++ String.ofList raw ++ "'")

end Int

end Python

namespace Codec
open Lib (digits grouped prefixed literal trim isSpace)

/-! ### The documented grammar -/

/-- A number in decimal or with a 0x prefix. -/
def plain : List Char → Option ℕ
  | '0' :: 'x' :: hex => digits 16 hex
  | '0' :: 'X' :: hex => digits 16 hex
  | s => digits 10 s

/-- A number that fits in 16 bits. -/
def short (v : Option ℕ) : Option ℕ := v.filter (· ≤ 0xFFFF)

/-- What the variable stands for; nothing is an error. -/
def idOf (fallback : U16) (value : List Char) : Option U16 :=
  if value = [] then some fallback else (short (plain (trim isSpace value))).map (BitVec.ofNat 16)

/-- The integer literals of Go: a base behind its prefix, octal behind a 0, or decimal. -/
inductive GoLiteral (s : List Char) (v : ℕ) : Prop
  | based (b : ℕ) (h : Lib.Based b s v)
  | octal (hhead : s.head? = some '0') (h : Lib.Numeral 8 s v)
  | decimal (hhead : s.head? ≠ some '0') (h : Lib.Numeral 10 s v)

/-- The integer literals of Python: a base behind its prefix, or decimal, where 0 alone has leading zeros. -/
inductive PythonLiteral (s : List Char) (v : ℕ) : Prop
  | based (b : ℕ) (h : Lib.Based b s v)
  | decimal (ds : List Char) (h : Lib.Groups 10 s ds) (hv : Lib.value 10 ds = v)
      (hlength : ds.length ≤ Python.maxStrDigits) (hzero : s.head? = some '0' → v = 0)

/-- The literals that some library reads in its own way. -/
inductive Irregular (toDecimal : Char → Option (Fin 10)) (s : List Char) : Prop
  /-- The Rust library takes a `+` in front of the digits. -/
  | plus (ds : List Char) (v : ℕ) (h : s = '+' :: ds) (hv : digits 10 ds = some v) (hshort : v ≤ 0xFFFF)
  | hexPlus (x : Char) (ds : List Char) (v : ℕ) (hx : (x, 16) ∈ Lib.bases) (h : s = '0' :: x :: '+' :: ds)
      (hv : digits 16 ds = some v) (hshort : v ≤ 0xFFFF)
  /-- The other two take the prefixes 0b and 0o. -/
  | otherBase (b v : ℕ) (h : Lib.Based b s v) (hb : b ≠ 16) (hshort : v ≤ 0xFFFF)
  /-- They take underscores. -/
  | underscore (v : ℕ) (h : '_' ∈ s) (hv : GoLiteral s v ∨ PythonLiteral s v) (hshort : v ≤ 0xFFFF)
  /-- A leading zero is octal in the Go library and an error in the Python library. -/
  | leadingZero (v : ℕ) (h : s.head? = some '0') (hv : digits 10 s = some v) (hzero : v ≠ 0)
      (hshort : v ≤ 0xFFFF ∨ ∃ w, digits 8 s = some w ∧ w ≤ 0xFFFF)
  /-- The Python library limits the zeros, too. -/
  | manyZeros (h : ∀ c ∈ s, c = '0') (hlength : Python.maxStrDigits < s.length)
  /-- It takes a sign, `-` only in front of 0. -/
  | signed (sign : Char) (ds : List Char) (v : ℕ) (h : s.map (Python.ascii toDecimal) = sign :: ds)
      (hsign : sign = '+' ∨ sign = '-') (hv : PythonLiteral ds v) (hshort : v ≤ 0xFFFF)
      (hneg : sign = '-' → v = 0)
  /-- It takes the decimal digits of all of Unicode. -/
  | foreign (v : ℕ) (h : s.map (Python.ascii toDecimal) ≠ s)
      (hv : PythonLiteral (s.map (Python.ascii toDecimal)) v) (hshort : v ≤ 0xFFFF)

/-! ### Literals -/

section Literals
variable {s : List Char} {v : ℕ}

theorem short_eq_some_iff {o : Option ℕ} : short o = some v ↔ o = some v ∧ v ≤ 0xFFFF := by
  rw [short, Option.filter_eq_some_iff, decide_eq_true_iff]

theorem short_of_le (h : v ≤ 0xFFFF) : short (some v) = some v := short_eq_some_iff.mpr ⟨rfl, h⟩

theorem short_eq_none {o : Option ℕ} (h : ∀ v, o = some v → ¬ v ≤ 0xFFFF) : short o = none :=
  Option.eq_none_iff_forall_ne_some.mpr fun v hv =>
    have hsome := short_eq_some_iff.mp hv
    h v hsome.1 hsome.2

theorem short_filter {o : Option ℕ} : short (o.filter (· < 2 ^ 64)) = short o := by
  cases o with
  | none => rfl
  | some v =>
    by_cases hv : v < 2 ^ 64
    · rw [Option.filter_some, if_pos (decide_eq_true hv)]
    · rw [Option.filter_some, if_neg (by simpa using hv), short, short, Option.filter_some,
        if_neg (by simp; omega)]
      rfl

/-- A string has the prefix of hexadecimal numbers, or that of another base, or none. -/
theorem prefixed_cases (s : List Char) :
    (∃ hex, prefixed s = some (16, hex) ∧ digits 10 s = none ∧ plain s = digits 16 hex ∧
      (['0', 'x'].isPrefixOf? s <|> ['0', 'X'].isPrefixOf? s) = some hex) ∨
    (plain s = digits 10 s ∧ (['0', 'x'].isPrefixOf? s <|> ['0', 'X'].isPrefixOf? s) = none ∧
      ((∃ b body, prefixed s = some (b, body) ∧ b ≠ 16 ∧ digits 10 s = none) ∨ prefixed s = none)) := by
  rcases s with _ | ⟨a, _ | ⟨c, body⟩⟩
  · exact .inr ⟨rfl, rfl, .inr rfl⟩
  · refine .inr ⟨by simp [plain], by simp [List.isPrefixOf?], .inr (by simp [prefixed])⟩
  · by_cases ha : a = '0'
    · subst ha
      have hletter : ¬ Lib.IsDigit 10 c → digits 10 ('0' :: c :: body) = none := Lib.digits_eq_none (by simp)
      by_cases hx : c = 'x' ∨ c = 'X'
      · refine .inl ⟨body, if_pos hx, hletter ?_, ?_, ?_⟩
        · rcases hx with rfl | rfl <;> decide
        · rcases hx with rfl | rfl <;> rfl
        · rcases hx with rfl | rfl <;> rfl
      · obtain ⟨hx, hX⟩ := not_or.mp hx
        refine .inr ⟨by simp [plain, hx, hX], by simp [List.isPrefixOf?, Ne.symm hx, Ne.symm hX], ?_⟩
        by_cases ho : c = 'o' ∨ c = 'O'
        · refine .inl ⟨8, body, by simp [prefixed, hx, hX, ho], by decide, hletter ?_⟩
          rcases ho with rfl | rfl <;> decide
        · by_cases hb : c = 'b' ∨ c = 'B'
          · refine .inl ⟨2, body, by simp [prefixed, hx, hX, ho, hb], by decide, hletter ?_⟩
            rcases hb with rfl | rfl <;> decide
          · exact .inr (by simp [prefixed, hx, hX, ho, hb])
    · exact .inr ⟨by simp [plain, ha], by simp [List.isPrefixOf?, Ne.symm ha], .inr (by simp [prefixed, ha])⟩

theorem not_digit_plus {b : ℕ} (hb : b ≤ 36) : ¬ Lib.IsDigit b '+' := Nat.not_lt.mpr hb

theorem mem_of_prefixed {b : ℕ} {body : List Char} {c : Char} (h : prefixed s = some (b, body))
    (hc : c ∈ body) : c ∈ s := by
  obtain ⟨d, rfl, -⟩ := Lib.prefixed_eq_some h
  exact List.mem_cons_of_mem _ (List.mem_cons_of_mem _ hc)

/-- A plain number has digits, and an x at most. -/
theorem plain_eq_none {c : Char} (hc : c ∈ s) (h : ¬ Lib.IsDigit 16 c) (hx : c ≠ 'x' ∧ c ≠ 'X') :
    plain s = none := by
  have hten : ¬ Lib.IsDigit 10 c := fun h' => h (h'.mono (by decide))
  rw [plain.eq_def]
  split
  · refine Lib.digits_eq_none ?_ h
    simpa [hx.1, show c ≠ '0' from fun h0 => h (h0 ▸ by decide)] using hc
  · refine Lib.digits_eq_none ?_ h
    simpa [hx.2, show c ≠ '0' from fun h0 => h (h0 ▸ by decide)] using hc
  · exact Lib.digits_eq_none hc hten

/-- Without underscores a hexadecimal literal is plain. -/
theorem literal_hex {unprefixed : List Char → Option ℕ} {hex : List Char} (h : prefixed s = some (16, hex))
    (hs : '_' ∉ s) : literal unprefixed s = digits 16 hex := by
  have hhex : '_' ∉ hex := fun hmem => hs (mem_of_prefixed h hmem)
  have hhead : hex.head? ≠ some '_' := fun hhead => hhex (List.mem_of_head? hhead)
  rw [literal, h]
  exact (congrArg (grouped 16) (if_neg hhead)).trans (Lib.grouped_eq_digits hhex)

theorem literal_unprefixed {unprefixed : List Char → Option ℕ} (h : prefixed s = none) :
    literal unprefixed s = unprefixed s := by
  rw [literal, h]

/-- What the Go library reads is a literal of the grammar. -/
theorem go_literal_iff : literal Go.unprefixed s = some v ↔ GoLiteral s v := by
  constructor
  · intro h
    cases hprefixed : prefixed s with
    | some found =>
      obtain ⟨b, body⟩ := found
      exact .based b ((Lib.literal_of_prefixed hprefixed).mp h)
    | none =>
      rw [literal_unprefixed hprefixed, Go.unprefixed] at h
      split_ifs at h with hhead
      · exact .octal hhead ((Lib.grouped_eq_some_iff (by decide)).mp h)
      · exact .decimal hhead ((Lib.grouped_eq_some_iff (by decide)).mp h)
  · intro h
    cases h with
    | based b h =>
      obtain ⟨body, hprefixed⟩ := h.prefixed
      exact (Lib.literal_of_prefixed hprefixed).mpr h
    | octal hhead h =>
      rw [literal_unprefixed (h.unprefixed (by decide)), Go.unprefixed, if_pos hhead]
      exact (Lib.grouped_eq_some_iff (by decide)).mpr h
    | decimal hhead h =>
      rw [literal_unprefixed (h.unprefixed le_rfl), Go.unprefixed, if_neg hhead]
      exact (Lib.grouped_eq_some_iff (by decide)).mpr h

theorem GoLiteral.mem (h : GoLiteral s v) : ∀ c ∈ s, Lib.IsDigit 36 c ∨ c = '_' := by
  refine Lib.literal_mem (go_literal_iff.mpr h) fun h => ?_
  rw [Go.unprefixed] at h
  split_ifs at h
  · exact Lib.grouped_mem h (by decide)
  · exact Lib.grouped_mem h (by decide)

/-- And so is what the Python library reads. -/
theorem python_literal_iff : literal Python.unprefixed s = some v ↔ PythonLiteral s v := by
  have hunprefixed : ∀ {ds}, Lib.Groups 10 s ds → Lib.value 10 ds = v → (Python.unprefixed s = some v ↔
      ds.length ≤ Python.maxStrDigits ∧ (s.head? = some '0' → v = 0)) := by
    intro ds hgroups hv
    rw [Python.unprefixed, Option.filter_eq_some_iff, decide_eq_true_iff, (hgroups.isGrouped (by decide)).2]
    exact and_iff_right ((Lib.grouped_eq_some_iff (by decide)).mpr ⟨ds, hgroups, hv⟩)
  constructor
  · intro h
    cases hprefixed : prefixed s with
    | some found =>
      obtain ⟨b, body⟩ := found
      exact .based b ((Lib.literal_of_prefixed hprefixed).mp h)
    | none =>
      rw [literal_unprefixed hprefixed] at h
      obtain ⟨ds, hgroups, hv⟩ :=
        (Lib.grouped_eq_some_iff (by decide)).mp (Option.eq_some_of_filter_eq_some h)
      obtain ⟨hlength, hzero⟩ := (hunprefixed hgroups hv).mp h
      exact .decimal ds hgroups hv hlength hzero
  · intro h
    cases h with
    | based b h =>
      obtain ⟨body, hprefixed⟩ := h.prefixed
      exact (Lib.literal_of_prefixed hprefixed).mpr h
    | decimal ds h hv hlength hzero =>
      have hnumeral : Lib.Numeral 10 s v := ⟨ds, h, hv⟩
      rw [literal_unprefixed (hnumeral.unprefixed le_rfl)]
      exact (hunprefixed h hv).mpr ⟨hlength, hzero⟩

/-- Zeros are 0 in every base. -/
theorem digits_of_zero {b : ℕ} (h : digits 10 s = some 0) (hb : 0 < b) : digits b s = some 0 := by
  obtain ⟨⟨hne, -⟩, hvalue⟩ := Lib.digits_eq_some_iff.mp h
  have hzeros := (Lib.value_eq_zero_iff (by decide)).mp hvalue
  refine Lib.digits_eq_some_iff.mpr ⟨⟨hne, fun c hc => ?_⟩, (Lib.value_eq_zero_iff hb.ne').mpr hzeros⟩
  rw [hzeros c hc]
  exact hb

end Literals

/-! ### The Rust library -/

section Rust
variable {s : List Char}

/-- What the Rust library reads from a value without its white space. -/
def rustNumber (s : List Char) : Option ℕ := match ['0', 'x'].isPrefixOf? s <|> ['0', 'X'].isPrefixOf? s with
  | some hex => Host.fromStrRadix hex 16
  | none => Host.fromStrRadix s 10

theorem short_fromStrRadix {b : ℕ} (hb : b ≤ 36)
    (h : ∀ ds v, s = '+' :: ds → digits b ds = some v → ¬ v ≤ 0xFFFF) :
    short (Host.fromStrRadix s b) = short (digits b s) := by
  rw [Host.fromStrRadix, short_filter]
  by_cases hhead : s.head? = some '+'
  · obtain ⟨ds, rfl⟩ := List.head?_eq_some_iff.mp hhead
    rw [if_pos hhead, Lib.digits_eq_none List.mem_cons_self (not_digit_plus hb)]
    exact short_eq_none fun v hv => h ds v rfl hv
  · rw [if_neg hhead]

theorem rust_plain {toDecimal : Char → Option (Fin 10)} (h : ¬ Irregular toDecimal s) :
    short (rustNumber s) = short (plain s) := by
  rw [rustNumber]
  rcases prefixed_cases s with ⟨hex, hprefixed, -, hplain, hhex⟩ | ⟨hplain, hhex, -⟩
  · rw [hhex, hplain]
    refine short_fromStrRadix (by decide) fun ds v hds hv hshort => ?_
    subst hds
    obtain ⟨x, hx, hs⟩ := Lib.prefixed_eq_some_iff.mp hprefixed
    exact h (.hexPlus x ds v hx hs hv hshort)
  · rw [hhex, hplain]
    exact short_fromStrRadix (by decide) fun ds v hds hv hshort => h (.plus ds v hds hv hshort)

end Rust

/-! ### The Go library -/

section Go
variable {s : List Char}

theorem go_plain {toDecimal : Char → Option (Fin 10)} (h : ¬ Irregular toDecimal s) :
    short (Go.parseUint s) = short (plain s) := by
  rw [Go.parseUint, short_filter]
  by_cases hs : '_' ∈ s
  · have hplain : plain s = none := plain_eq_none hs (by decide) (by decide)
    rw [hplain]
    exact short_eq_none fun v hv hshort => h (.underscore v hs (.inl (go_literal_iff.mp hv)) hshort)
  rcases prefixed_cases s with ⟨hex, hprefixed, -, hplain, -⟩
    | ⟨hplain, -, ⟨b, body, hprefixed, hb, hnone⟩ | hprefixed⟩
  · rw [hplain, literal_hex hprefixed hs]
  · rw [hplain, hnone]
    exact short_eq_none fun v hv hshort =>
      h (.otherBase b v ((Lib.literal_of_prefixed hprefixed).mp hv) hb hshort)
  · rw [hplain, literal_unprefixed hprefixed, Go.unprefixed]
    by_cases hhead : s.head? = some '0'
    · rw [if_pos hhead, Lib.grouped_eq_digits hs]
      cases hten : digits 10 s with
      | none =>
        cases height : digits 8 s with
        | none => rfl
        | some v =>
          exact absurd ((Lib.digits_mono height (by decide)).symm.trans hten) (Option.some_ne_none _)
      | some v =>
        by_cases hv : v = 0
        · rw [hv, digits_of_zero (by rw [hten, hv]) (by decide)]
        · have hlong : short (some v) = none ∧ short (digits 8 s) = none := by
            constructor
            · refine short_eq_none fun w hw hshort => ?_
              obtain rfl := Option.some.inj hw
              exact h (.leadingZero v hhead hten hv (.inl hshort))
            · exact short_eq_none fun w hw hshort => h (.leadingZero v hhead hten hv (.inr ⟨w, hw, hshort⟩))
          rw [hlong.1, hlong.2]
    · rw [if_neg hhead, Lib.grouped_eq_digits hs]

end Go

/-! ### The Python library -/

section Python
variable {toDecimal : Char → Option (Fin 10)} {s : List Char}

theorem ascii_eq_self {c : Char} (h : c.toNat < 127) : Python.ascii toDecimal c = c := if_pos h

/-- A character outside ASCII becomes a space, a digit or the character of an error. -/
theorem ascii_cases {c : Char} (h : ¬ c.toNat < 127) : Python.ascii toDecimal c = ' ' ∧ isSpace c ∨
    isSpace c = false ∧ ((∃ d : Fin 10, Python.ascii toDecimal c = Char.ofNat (48 + d.val)) ∨
      Python.ascii toDecimal c = '?') := by
  rw [Python.ascii, if_neg h]
  rcases Bool.eq_false_or_eq_true (isSpace c) with hspace | hspace
  · exact .inl ⟨if_pos hspace, hspace⟩
  · refine .inr ⟨hspace, ?_⟩
    rw [if_neg (by simp [hspace])]
    cases toDecimal c with
    | none => exact .inr rfl
    | some d => exact .inl ⟨d, rfl⟩

theorem isSpace_ascii (c : Char) : Python.isSpace (Python.ascii toDecimal c) = isSpace c := by
  by_cases h : c.toNat < 127
  · rw [ascii_eq_self h, Bool.eq_iff_iff, Python.isSpace, isSpace]
    simp
    omega
  · rcases @ascii_cases toDecimal c h with ⟨hc, hspace⟩ | ⟨hspace, ⟨d, hc⟩ | hc⟩
    · rw [hc, hspace]
      rfl
    · have hdigit : ∀ d : Fin 10, Python.isSpace (Char.ofNat (48 + d.val)) = false := by decide
      rw [hc, hspace, hdigit d]
    · rw [hc, hspace]
      rfl

/-- Only a sign becomes a sign. -/
theorem ascii_sign {c sign : Char} (hsign : sign = '+' ∨ sign = '-') (h : Python.ascii toDecimal c = sign) :
    c = sign := by
  by_cases hc : c.toNat < 127
  · rw [ascii_eq_self hc] at h
    exact h
  · exfalso
    rcases @ascii_cases toDecimal c hc with ⟨hc, -⟩ | ⟨-, ⟨d, hc⟩ | hc⟩
    · rw [h] at hc
      rcases hsign with rfl | rfl <;> exact absurd hc (by decide)
    · rw [h] at hc
      revert d
      rcases hsign with rfl | rfl <;> decide
    · rw [h] at hc
      rcases hsign with rfl | rfl <;> exact absurd hc (by decide)

theorem trim_map {p : Char → Bool} (f : Char → Char) (s : List Char) :
    trim p (s.map f) = (trim (p ∘ f) s).map f := by
  rw [trim, trim, List.dropWhile_map, List.rdropWhile, List.rdropWhile, ← List.map_reverse,
    List.dropWhile_map, List.map_reverse]

/-- What the Python library reads from a value without its white space, in ASCII. -/
def pythonNumber (s : List Char) : Option ℤ :=
  if s.head? = some '+' then (literal Python.unprefixed s.tail).map Int.ofNat
  else if s.head? = some '-' then (literal Python.unprefixed s.tail).map fun v : ℕ => -(v : ℤ)
  else (literal Python.unprefixed s).map Int.ofNat

theorem int_eq (s : List Char) :
    Python.int toDecimal s = pythonNumber ((trim isSpace s).map (Python.ascii toDecimal)) := by
  have hspace : Python.isSpace ∘ Python.ascii toDecimal = isSpace := funext isSpace_ascii
  rw [← hspace, ← trim_map]
  rfl

/-- A number of Python that fits in 16 bits. -/
def pythonShort (v : Option ℤ) : Option ℤ := v.filter fun v => 0 ≤ v ∧ v ≤ 0xFFFF

theorem pythonShort_cast (o : Option ℕ) : pythonShort (o.map Int.ofNat) = (short o).map Int.ofNat := by
  cases o with
  | none => rfl
  | some v => by_cases hv : v ≤ 0xFFFF <;> simp [pythonShort, short, Option.filter_some, hv]

theorem pythonNumber_unsigned (h : ∀ c ∈ s.head?, c ≠ '+' ∧ c ≠ '-') :
    pythonShort (pythonNumber s) = (short (literal Python.unprefixed s)).map Int.ofNat := by
  have hplus : s.head? ≠ some '+' := fun hhead => (h '+' hhead).1 rfl
  have hminus : s.head? ≠ some '-' := fun hhead => (h '-' hhead).2 rfl
  rw [pythonNumber, if_neg hplus, if_neg hminus, pythonShort_cast]

/-- A literal is ASCII and has no sign. -/
theorem literal_ascii {v : ℕ} (h : literal Python.unprefixed s = some v) :
    s.map (Python.ascii toDecimal) = s ∧ ∀ c ∈ s, c ≠ '+' ∧ c ≠ '-' := by
  have hmem := Lib.literal_mem h fun h => Lib.grouped_mem (Option.eq_some_of_filter_eq_some h) (by decide)
  constructor
  · refine (List.map_congr_left fun c hc => ?_).trans (List.map_id s)
    rcases hmem c hc with hdigit | rfl
    · exact ascii_eq_self (lt_of_lt_of_le (hdigit.toNat_lt le_rfl) (by decide))
    · rfl
  · intro c hc
    rcases hmem c hc with hdigit | rfl
    · constructor <;>
      · rintro rfl
        exact absurd hdigit (by decide)
    · decide

/-- Without a prefix and underscores. -/
theorem python_unprefixed {v : ℕ} (hs : '_' ∉ s) (h : digits 10 s = some v) :
    Python.unprefixed s =
      if s.length ≤ Python.maxStrDigits ∧ (s.head? = some '0' → v = 0) then some v else none := by
  have hfilter : s.filter (· ≠ '_') = s := List.filter_eq_self.mpr fun c hc => by
    rw [decide_eq_true_iff]
    rintro rfl
    exact hs hc
  rw [Python.unprefixed, Lib.grouped_eq_digits hs, h, hfilter, Option.filter_some]
  simp only [decide_eq_true_eq]

/-- A number of so many digits is no 16-bit number. -/
theorem long_number {v : ℕ} (h : digits 10 s = some v) (hhead : s.head? ≠ some '0')
    (hlength : Python.maxStrDigits < s.length) : short (some v) = none := by
  obtain ⟨-, rfl⟩ := Lib.digits_eq_some_iff.mp h
  rcases s with _ | ⟨c, ds⟩
  · exact absurd hlength (Nat.not_lt_zero _)
  · have hc : 1 ≤ Lib.digitVal c := Nat.one_le_iff_ne_zero.mpr fun h0 =>
      hhead (congrArg some (Lib.digitVal_eq_zero_iff.mp h0))
    have hdigits : 5 ≤ ds.length := by
      rw [List.length_cons, Python.maxStrDigits] at hlength
      omega
    have hlarge : 10 ^ 5 ≤ Lib.value 10 (c :: ds) := calc
      10 ^ 5 ≤ 10 ^ ds.length := Nat.pow_le_pow_right (by decide) hdigits
      _ ≤ Lib.digitVal c * 10 ^ ds.length := Nat.le_mul_of_pos_left _ hc
      _ ≤ Lib.value 10 (c :: ds) := Lib.le_value
    rw [short, Option.filter_some, if_neg]
    rw [decide_eq_true_iff]
    omega

theorem python_literal (h : ¬ Irregular toDecimal s) :
    short (literal Python.unprefixed s) = short (plain s) := by
  by_cases hs : '_' ∈ s
  · have hplain : plain s = none := plain_eq_none hs (by decide) (by decide)
    rw [hplain]
    exact short_eq_none fun v hv hshort => h (.underscore v hs (.inr (python_literal_iff.mp hv)) hshort)
  rcases prefixed_cases s with ⟨hex, hprefixed, -, hplain, -⟩
    | ⟨hplain, -, ⟨b, body, hprefixed, hb, hnone⟩ | hprefixed⟩
  · rw [hplain, literal_hex hprefixed hs]
  · rw [hplain, hnone]
    exact short_eq_none fun v hv hshort =>
      h (.otherBase b v ((Lib.literal_of_prefixed hprefixed).mp hv) hb hshort)
  · rw [hplain, literal_unprefixed hprefixed]
    cases hten : digits 10 s with
    | none =>
      rw [Python.unprefixed, Lib.grouped_eq_digits hs, hten]
      rfl
    | some v =>
      have hlong : s.head? = some '0' → v ≠ 0 → short (some v) = none := by
        refine fun hhead hv => short_eq_none fun w hw hshort => ?_
        obtain rfl := Option.some.inj hw
        exact h (.leadingZero v hhead hten hv (.inl hshort))
      rw [python_unprefixed hs hten]
      split_ifs with hread
      · rfl
      rcases not_and_or.mp hread with hlength | hzero
      · by_cases hhead : s.head? = some '0'
        · by_cases hv : v = 0
          · subst hv
            obtain ⟨-, hvalue⟩ := Lib.digits_eq_some_iff.mp hten
            exact absurd (.manyZeros ((Lib.value_eq_zero_iff (by decide)).mp hvalue)
              (Nat.not_le.mp hlength)) h
          · exact (hlong hhead hv).symm
        · exact (long_number hten hhead (Nat.not_le.mp hlength)).symm
      · obtain ⟨hhead, hv⟩ := Classical.not_imp.mp hzero
        exact (hlong hhead hv).symm

/-- Characters outside ASCII are in no plain number. -/
theorem plain_foreign (h : s.map (Python.ascii toDecimal) ≠ s) : plain s = none := by
  obtain ⟨c, hc, hne⟩ : ∃ c ∈ s, Python.ascii toDecimal c ≠ c := by
    by_contra hall
    exact h ((List.map_congr_left fun c hc => by_contra fun hne => hall ⟨c, hc, hne⟩).trans (List.map_id s))
  have hlarge : ¬ c.toNat < 127 := fun hsmall => hne (ascii_eq_self hsmall)
  refine plain_eq_none hc (fun hdigit => hlarge ?_) ⟨?_, ?_⟩
  · exact lt_of_lt_of_le (hdigit.toNat_lt (by decide)) (by decide)
  all_goals
    rintro rfl
    exact hlarge (by decide)

theorem plain_signed {sign : Char} {ds : List Char} (h : s.map (Python.ascii toDecimal) = sign :: ds)
    (hsign : sign = '+' ∨ sign = '-') : plain s = none := by
  obtain ⟨c, rest, rfl, hc, -⟩ := List.map_eq_cons_iff.mp h
  obtain rfl := ascii_sign hsign hc
  refine plain_eq_none List.mem_cons_self ?_ ?_ <;> rcases hsign with rfl | rfl <;> decide

theorem python_signed {sign : Char} {ds : List Char} (hsign : sign = '+' ∨ sign = '-')
    (h : ∀ v, literal Python.unprefixed ds = some v → (sign = '-' → v = 0) → ¬ v ≤ 0xFFFF) :
    pythonShort (pythonNumber (sign :: ds)) = none := by
  cases hv : literal Python.unprefixed ds with
  | none => rcases hsign with rfl | rfl <;> simp [pythonNumber, hv, pythonShort]
  | some v =>
    rcases hsign with rfl | rfl
    · have hnumber : pythonNumber ('+' :: ds) = (some v).map Int.ofNat := by simp [pythonNumber, hv]
      rw [hnumber, pythonShort_cast, short_eq_none]
      · rfl
      · intro w hw
        obtain rfl := Option.some.inj hw
        exact h v hv fun hne => absurd hne (by decide)
    · have hnumber : pythonNumber ('-' :: ds) = some (-(v : ℤ)) := by simp [pythonNumber, hv]
      have hzero : v ≠ 0 := by
        rintro rfl
        exact h 0 hv (fun _ => rfl) (Nat.zero_le _)
      rw [hnumber, pythonShort, Option.filter_some, if_neg]
      rw [decide_eq_true_iff]
      omega

theorem python_plain (h : ¬ Irregular toDecimal s) :
    pythonShort (pythonNumber (s.map (Python.ascii toDecimal))) = (short (plain s)).map Int.ofNat := by
  by_cases hsigned : ∃ sign ds, s.map (Python.ascii toDecimal) = sign :: ds ∧ (sign = '+' ∨ sign = '-')
  · obtain ⟨sign, ds, hmap, hsign⟩ := hsigned
    rw [plain_signed hmap hsign, hmap]
    exact python_signed hsign fun v hv hneg hshort =>
      h (.signed sign ds v hmap hsign (python_literal_iff.mp hv) hshort hneg)
  · have hhead : ∀ c ∈ (s.map (Python.ascii toDecimal)).head?, c ≠ '+' ∧ c ≠ '-' := by
      intro c hc
      obtain ⟨ds, hmap⟩ := List.head?_eq_some_iff.mp hc
      exact not_or.mp fun hsign => hsigned ⟨c, ds, hmap, hsign⟩
    rw [pythonNumber_unsigned hhead]
    by_cases hmap : s.map (Python.ascii toDecimal) = s
    · rw [hmap, python_literal h]
    · rw [plain_foreign hmap, short_eq_none]
      · rfl
      · exact fun v hv hshort => h (.foreign v hmap (python_literal_iff.mp hv) hshort)

end Python

/-! ### The three libraries -/

section Answers
variable {toDecimal : Char → Option (Fin 10)} {s : List Char}

theorem short_plus {b : ℕ} (ds : List Char) :
    short (Host.fromStrRadix ('+' :: ds) b) = short (digits b ds) := by
  rw [Host.fromStrRadix, short_filter]
  rfl

theorem pythonNumber_literal {v : ℕ} (h : literal Python.unprefixed s = some v) :
    pythonShort (pythonNumber s) = (short (some v)).map Int.ofNat := by
  obtain ⟨-, hsign⟩ := @literal_ascii (fun _ => none) s v h
  rw [pythonNumber_unsigned fun c hc => hsign c (List.mem_of_head? hc), h]

theorem map_ascii_digits {v : ℕ} (h : digits 10 s = some v) : s.map (Python.ascii toDecimal) = s := by
  obtain ⟨⟨-, hdigits⟩, -⟩ := Lib.digits_eq_some_iff.mp h
  refine (List.map_congr_left fun c hc => ascii_eq_self ?_).trans (List.map_id s)
  exact lt_of_lt_of_le ((hdigits c hc).toNat_lt (by decide)) (by decide)

theorem not_mem_digits {b v : ℕ} {c : Char} (h : digits b s = some v) (hc : ¬ Lib.IsDigit b c) : c ∉ s :=
  fun hmem => hc ((Lib.digits_eq_some_iff.mp h).1.2 c hmem)

/-- Digits have no prefix. -/
theorem prefixed_digits {v : ℕ} (h : digits 10 s = some v) : prefixed s = none ∧ plain s = some v := by
  rcases prefixed_cases s with ⟨hex, -, hnone, -⟩ | ⟨hplain, -, ⟨b, body, -, -, hnone⟩ | hprefixed⟩
  · exact absurd (h.symm.trans hnone) (Option.some_ne_none v)
  · exact absurd (h.symm.trans hnone) (Option.some_ne_none v)
  · exact ⟨hprefixed, hplain.trans h⟩

/-- Digits that the Python library does not read. -/
theorem python_unread {v : ℕ} (h : digits 10 s = some v)
    (hread : ¬ (s.length ≤ Python.maxStrDigits ∧ (s.head? = some '0' → v = 0))) :
    pythonShort (pythonNumber (s.map (Python.ascii toDecimal))) = none := by
  have hhead : ∀ c ∈ s.head?, c ≠ '+' ∧ c ≠ '-' := by
    intro c hc
    have hmem := List.mem_of_head? hc
    constructor <;>
    · rintro rfl
      exact not_mem_digits h (by decide) hmem
  rw [map_ascii_digits h, pythonNumber_unsigned hhead, literal_unprefixed (prefixed_digits h).1,
    python_unprefixed (not_mem_digits h (by decide)) h, if_neg hread]
  rfl

/-- A literal that some library reads in its own way is not read by the grammar. -/
theorem Irregular.differs (h : Irregular toDecimal s) :
    ¬ (short (rustNumber s) = short (plain s) ∧ short (Go.parseUint s) = short (plain s) ∧
      pythonShort (pythonNumber (s.map (Python.ascii toDecimal))) = (short (plain s)).map Int.ofNat) := by
  rintro ⟨hrust, hgo, hpython⟩
  rw [Go.parseUint, short_filter] at hgo
  cases h with
  | plus ds v h hv hshort =>
    subst h
    have hplain : plain ('+' :: ds) = none := plain_eq_none List.mem_cons_self (by decide) (by decide)
    rw [hplain] at hrust
    have hnone := (short_plus ds).symm.trans hrust
    rw [hv, short_of_le hshort] at hnone
    cases hnone
  | hexPlus x ds v hx h hv hshort =>
    have hprefixed := Lib.prefixed_eq_some_iff.mpr ⟨x, hx, h⟩
    rcases prefixed_cases s with ⟨hex, hsome, -, hplain, hhex⟩ | ⟨-, -, ⟨b, body, hsome, hb, -⟩ | hnone⟩
    · obtain ⟨-, rfl⟩ := Prod.mk.inj (Option.some.inj (hsome.symm.trans hprefixed))
      rw [rustNumber, hhex, hplain, Lib.digits_eq_none List.mem_cons_self (by decide)] at hrust
      have hnone := (short_plus ds).symm.trans hrust
      rw [hv, short_of_le hshort] at hnone
      cases hnone
    · exact hb (Prod.mk.inj (Option.some.inj (hsome.symm.trans hprefixed))).1
    · exact absurd (hnone.symm.trans hprefixed) (Option.some_ne_none _).symm
  | otherBase b v h hb hshort =>
    obtain ⟨body, hprefixed⟩ := h.prefixed
    rcases prefixed_cases s with ⟨hex, hsome, -⟩ | ⟨hplain, -, ⟨b', body', -, -, hten⟩ | hnone⟩
    · exact hb (Prod.mk.inj (Option.some.inj (hsome.symm.trans hprefixed))).1.symm
    · rw [hplain, hten, (Lib.literal_of_prefixed hprefixed).mpr h, short_of_le hshort] at hgo
      cases hgo
    · exact absurd (hnone.symm.trans hprefixed) (Option.some_ne_none _).symm
  | underscore v h hv hshort =>
    have hplain : plain s = none := plain_eq_none h (by decide) (by decide)
    rw [hplain] at hgo hpython
    rcases hv with hv | hv
    · rw [go_literal_iff.mpr hv, short_of_le hshort] at hgo
      cases hgo
    · have hliteral := python_literal_iff.mpr hv
      rw [(literal_ascii hliteral).1, pythonNumber_literal hliteral, short_of_le hshort] at hpython
      cases hpython
  | leadingZero v h hv hzero hshort =>
    rw [(prefixed_digits hv).2, python_unread hv fun hread => hzero (hread.2 h)] at hpython
    have hlong : short (some v) = none := Option.map_eq_none_iff.mp hpython.symm
    rw [(prefixed_digits hv).2, hlong, literal_unprefixed (prefixed_digits hv).1, Go.unprefixed, if_pos h,
      Lib.grouped_eq_digits (not_mem_digits hv (by decide))] at hgo
    rcases hshort with hshort | ⟨w, hw, hshort⟩
    · rw [short_of_le hshort] at hlong
      cases hlong
    · rw [hw, short_of_le hshort] at hgo
      cases hgo
  | manyZeros h hlength =>
    have hne : s ≠ [] := List.ne_nil_of_length_pos (by omega)
    have hten : digits 10 s = some 0 := Lib.digits_eq_some_iff.mpr
      ⟨⟨hne, fun c hc => h c hc ▸ by decide⟩, (Lib.value_eq_zero_iff (by decide)).mpr h⟩
    rw [(prefixed_digits hten).2, python_unread hten fun hread => Nat.not_le.mpr hlength hread.1] at hpython
    exact absurd hpython (by decide)
  | signed sign ds v h hsign hv hshort hneg =>
    have hliteral := python_literal_iff.mpr hv
    rw [plain_signed h hsign, h] at hpython
    rcases hsign with rfl | rfl
    · have hnumber : pythonNumber ('+' :: ds) = (some v).map Int.ofNat := by simp [pythonNumber, hliteral]
      rw [hnumber, pythonShort_cast, short_of_le hshort] at hpython
      cases hpython
    · obtain rfl := hneg rfl
      have hnumber : pythonNumber ('-' :: ds) = some 0 := by simp [pythonNumber, hliteral]
      rw [hnumber] at hpython
      exact absurd hpython (by decide)
  | foreign v h hv hshort =>
    rw [plain_foreign h, pythonNumber_literal (python_literal_iff.mpr hv), short_of_le hshort] at hpython
    cases hpython

theorem map_ofNat_inj {a b : Option ℕ} :
    (short a).map (BitVec.ofNat 16) = (short b).map (BitVec.ofNat 16) ↔ short a = short b := by
  constructor
  · intro h
    cases ha : short a with
    | none =>
      rw [ha] at h
      exact (Option.map_eq_none_iff.mp h.symm).symm
    | some v =>
      cases hb : short b with
      | none =>
        rw [ha, hb] at h
        cases h
      | some w =>
        rw [ha, hb] at h
        have hv := (short_eq_some_iff.mp ha).2
        have hw := (short_eq_some_iff.mp hb).2
        have hnat := congrArg BitVec.toNat (Option.some.inj h)
        rw [BitVec.toNat_ofNat, BitVec.toNat_ofNat, Nat.mod_eq_of_lt (by omega),
          Nat.mod_eq_of_lt (by omega)] at hnat
        rw [hnat]
  · intro h
    rw [h]

theorem map_toNat_ofNat (a : Option ℕ) :
    ((short a).map (BitVec.ofNat 16)).map (fun v : U16 => (v.toNat : ℤ)) = (short a).map Int.ofNat := by
  cases ha : short a with
  | none => rfl
  | some v =>
    have hv := (short_eq_some_iff.mp ha).2
    rw [Option.map_some, Option.map_some, Option.map_some, BitVec.toNat_ofNat, Nat.mod_eq_of_lt (by omega)]
    rfl

section Env
variable (name : String) (fallback : U16) {value : Option (List Char)}
  (h : trim isSpace (value.getD []) ≠ [])
include h

theorem rust_envId : (Host.envId name fallback value).toOption =
    (short (rustNumber (trim isSpace (value.getD [])))).map (BitVec.ofNat 16) := by
  rw [Host.envId, if_neg h]
  change Except.toOption (match rustNumber (trim isSpace (value.getD [])) with | some _ => _ | none => _) = _
  cases rustNumber (trim isSpace (value.getD [])) with
  | none => rfl
  | some v => by_cases hv : v ≤ 0xFFFF <;> simp [hv, short, Option.filter_some, Except.toOption]

theorem go_envId : (Go.envId name fallback value).toOption =
    (short (Go.parseUint (trim isSpace (value.getD [])))).map (BitVec.ofNat 16) := by
  rw [Go.envId, if_neg h]
  cases Go.parseUint (trim isSpace (value.getD [])) with
  | none => rfl
  | some v =>
    by_cases hv : v ≤ 0xFFFF <;>
      simp [hv, Nat.not_lt.mpr, Nat.lt_of_not_le, short, Option.filter_some, Except.toOption]

theorem python_envId (toDecimal : Char → Option (Fin 10)) (default : ℤ) :
    (Python.envId toDecimal name default value).toOption =
      pythonShort (pythonNumber ((trim isSpace (value.getD [])).map (Python.ascii toDecimal))) := by
  rcases value with _ | _ | ⟨c, s⟩
  · exact absurd rfl h
  · exact absurd rfl h
  · rw [Python.envId, ← int_eq, Option.getD_some]
    · cases Python.int toDecimal (c :: s) with
      | none => rfl
      | some v =>
        by_cases hv : 0 ≤ v ∧ v ≤ 0xFFFF <;> simp [hv, pythonShort, Option.filter_some, Except.toOption]
    · exact List.cons_ne_nil c s

end Env

end Answers

/-- The three libraries read the documented numbers and nothing else just when the value without its white
    space is no literal that some library reads in its own way, and not all of the value is white space. -/
theorem env_id_grammar (toDecimal : Char → Option (Fin 10)) (name : String) (fallback : U16)
    (value : Option (List Char)) :
    let s := value.getD []
    ((Host.envId name fallback value).toOption = idOf fallback s ∧
      (Go.envId name fallback value).toOption = idOf fallback s ∧
      (Python.envId toDecimal name (fallback.toNat : ℤ) value).toOption =
        (idOf fallback s).map fun v : U16 => (v.toNat : ℤ)) ↔
      s = [] ∨ trim isSpace s ≠ [] ∧ ¬ Irregular toDecimal (trim isSpace s) := by
  intro s
  by_cases hs : s = []
  · refine iff_of_true ?_ (.inl hs)
    rcases value with _ | v
    · exact ⟨rfl, rfl, rfl⟩
    · obtain rfl : v = [] := hs
      exact ⟨rfl, rfl, rfl⟩
  · rw [idOf, if_neg hs]
    by_cases htrim : trim isSpace s = []
    · refine iff_of_false (fun h => ?_) fun h => h.elim hs fun h => h.1 htrim
      have hrust : Host.envId name fallback value = .ok fallback := if_pos htrim
      rw [hrust, htrim] at h
      exact Option.some_ne_none _ h.1
    · rw [rust_envId name fallback htrim, go_envId name fallback htrim, python_envId name htrim toDecimal,
        map_ofNat_inj, map_ofNat_inj, map_toNat_ofNat]
      constructor
      · exact fun h => .inr ⟨htrim, fun hirregular => hirregular.differs h⟩
      · intro h
        have hregular := (h.resolve_left hs).2
        exact ⟨rust_plain hregular, go_plain hregular, python_plain hregular⟩

/-- A leading zero has a reading of its own in every library, and a sign in two of them. -/
theorem env_id_differs :
    (Host.envId "HIDPIN_PID" 0x6870 (some ['0', '1', '0'])).toOption = some 10 ∧
    (Go.envId "HIDPIN_PID" 0x6870 (some ['0', '1', '0'])).toOption = some 8 ∧
    (Python.envId (fun _ => none) "HIDPIN_PID" 0x6870 (some ['0', '1', '0'])).toOption = none ∧
    idOf 0x6870 ['0', '1', '0'] = some 10 ∧
    (Host.envId "HIDPIN_PID" 0x6870 (some ['+', '5'])).toOption = some 5 ∧
      idOf 0x6870 ['+', '5'] = none := by
  decide +kernel

end Codec

end Hidpin
