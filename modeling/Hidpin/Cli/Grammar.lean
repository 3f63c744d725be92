import Hidpin.Cli.Specs

/-! The texts that the arguments of the command are made of (the usage of `tools/hidpin/main.go`): numbers of
    GPIOs, settings and levels. They are exactly what the parsers take. -/

namespace Hidpin.Cli
open Firmware (Gpio gpioCount)
open Go (PinSetting Natural cut toLower defaultDebounceMs)

/-! ### The grammar -/

/-- The words of the inputs, and their modes. -/
def inputWords : List (String × U8) :=
  [("nopull", Go.modeInput), ("in", Go.modeInput), ("pullup", Go.modePullUp), ("pulldown", Go.modePullDown)]

/-- The words of the levels. -/
def levels : List (String × Bool) :=
  [("high", true), ("1", true), ("on", true), ("low", false), ("0", false), ("off", false)]

/-- A word may be written in capital letters. -/
def Spells (word : String) (text : List Char) : Prop := text.map toLower = word.toList

/-- A setting: `off`, the kind of an input with or without its debounce time, or an output with its level. -/
inductive SettingText : List Char → PinSetting → Prop
  | unused {word : String} {text : List Char} (hword : word = "off" ∨ word = "unused")
      (h : Spells word text) :
    SettingText text .unused
  | input {word : String} {mode : U8} {text : List Char} (hword : (word, mode) ∈ inputWords)
      (h : Spells word text) :
    SettingText text ⟨mode, defaultDebounceMs⟩
  /-- An input with its debounce time. -/
  | debounced {word : String} {mode debounce : U8} {text param : List Char}
      (hword : (word, mode) ∈ inputWords) (h : Spells word text) (hparam : Natural param debounce.toNat) :
      SettingText (text ++ ':' :: param) ⟨mode, debounce⟩
  | output {word : String} {level : Bool} {text param : List Char} (h : Spells "out" text)
      (hword : (word, level) ∈ levels) (hparam : Spells word param) :
      SettingText (text ++ ':' :: param) (.output level)

/-- GPIO=SETTING. -/
inductive PinText : List Char → Gpio × PinSetting → Prop
  | mk {n : Gpio} {s : PinSetting} {gpio setting : List Char} (hgpio : Natural gpio n.val)
      (h : SettingText setting s) :
    PinText (gpio ++ '=' :: setting) (n, s)

/-- GPIO=VALUE. -/
inductive LevelText : List Char → Gpio × Bool → Prop
  | mk {n : Gpio} {word : String} {level : Bool} {gpio text : List Char} (hgpio : Natural gpio n.val)
      (hword : (word, level) ∈ levels) (h : Spells word text) : LevelText (gpio ++ '=' :: text) (n, level)

/-- The numbers of some GPIOs with commas between them; what is empty counts for nothing. -/
inductive GpiosText : List Char → List Gpio → Prop
  | nil : GpiosText [] []
  | last {n : Gpio} {text : List Char} (hgpio : Natural text n.val) : GpiosText text [n]
  | skip {ns : List Gpio} {rest : List Char} (h : GpiosText rest ns) : GpiosText (',' :: rest) ns
  | more {n : Gpio} {ns : List Gpio} {text rest : List Char} (hgpio : Natural text n.val)
      (h : GpiosText rest ns) :
    GpiosText (text ++ ',' :: rest) (n :: ns)

/-! ### The words -/

theorem inputMode_iff {kind : List Char} {setting : U8 → PinSetting} : inputMode kind = some setting ↔
    ∃ word mode, (word, mode) ∈ inputWords ∧ kind = word.toList ∧
      setting = fun debounce => ⟨mode, debounce⟩ := by
  constructor
  · intro h
    rw [inputMode] at h
    split_ifs at h with hnopull hup hdown
    · rcases hnopull with hkind | hkind
      · exact ⟨"nopull", Go.modeInput, by decide, hkind, (Option.some.inj h).symm⟩
      · exact ⟨"in", Go.modeInput, by decide, hkind, (Option.some.inj h).symm⟩
    · exact ⟨"pullup", Go.modePullUp, by decide, hup, (Option.some.inj h).symm⟩
    · exact ⟨"pulldown", Go.modePullDown, by decide, hdown, (Option.some.inj h).symm⟩
  · rintro ⟨word, mode, hword, rfl, rfl⟩
    simp only [inputWords, List.mem_cons, Prod.mk.injEq, List.not_mem_nil, or_false] at hword
    rcases hword with ⟨rfl, rfl⟩ | ⟨rfl, rfl⟩ | ⟨rfl, rfl⟩ | ⟨rfl, rfl⟩ <;> rfl

theorem levelWord_iff {text : List Char} {level : Bool} : levelWord text = some level ↔
    ∃ word, (word, level) ∈ levels ∧ text = word.toList := by
  constructor
  · intro h
    rw [levelWord] at h
    split_ifs at h with hhigh hlow
    · obtain rfl := Option.some.inj h
      rcases hhigh with htext | htext | htext
      · exact ⟨"high", by decide, htext⟩
      · exact ⟨"1", by decide, htext⟩
      · exact ⟨"on", by decide, htext⟩
    · obtain rfl := Option.some.inj h
      rcases hlow with htext | htext | htext
      · exact ⟨"low", by decide, htext⟩
      · exact ⟨"0", by decide, htext⟩
      · exact ⟨"off", by decide, htext⟩
  · rintro ⟨word, hword, rfl⟩
    simp only [levels, List.mem_cons, Prod.mk.injEq, List.not_mem_nil, or_false] at hword
    rcases hword with ⟨rfl, rfl⟩ | ⟨rfl, rfl⟩ | ⟨rfl, rfl⟩ | ⟨rfl, rfl⟩ | ⟨rfl, rfl⟩ | ⟨rfl, rfl⟩ <;> rfl

/-- The words have no colon. -/
theorem Spells.colon {word : String} {text : List Char} (h : Spells word text) (hword : ':' ∉ word.toList) :
    ':' ∉ text :=
  fun hmem => hword (h ▸ List.mem_map_of_mem hmem)

theorem colon_inputWords {word : String} {mode : U8} (h : (word, mode) ∈ inputWords) :
    ':' ∉ word.toList ∧ ¬ (word.toList = "off".toList ∨ word.toList = "unused".toList) := by
  have hall : ∀ p ∈ inputWords, ':' ∉ p.1.toList ∧
      ¬ (p.1.toList = "off".toList ∨ p.1.toList = "unused".toList) := by decide
  exact hall _ h

/-! ### What the parsers take -/

theorem parseGpio_iff {text : List Char} {n : Gpio} : parseGpio text = .ok n ↔ Natural text n.val := by
  have hn : n.val < gpioCount := n.isLt
  rw [← Go.parseInt_iff (n := n.val) (lt_trans hn (by decide)), parseGpio]
  constructor
  · intro h
    cases hread : Go.parseInt text with
    | none =>
      rw [hread] at h
      cases h
    | some gpio =>
      rw [hread] at h
      dsimp only at h
      split_ifs at h with hrange
      cases h
      exact congrArg some (Int.toNat_of_nonneg hrange.1).symm
  · intro h
    rw [h]
    exact dif_pos ⟨Int.natCast_nonneg _, Int.ofNat_lt.mpr hn⟩

theorem parseDebounce_iff {text param : List Char} {debounce : U8} :
    parseDebounce text (some param) = .ok debounce ↔ Natural param debounce.toNat := by
  have hlt : debounce.toNat < 2 ^ 8 := debounce.isLt
  rw [← Go.parseInt_iff (n := debounce.toNat) (lt_trans hlt (by decide)), parseDebounce, Option.elim_some]
  constructor
  · intro h
    cases hread : Go.parseInt param with
    | none =>
      rw [hread] at h
      cases h
    | some v =>
      rw [hread] at h
      dsimp only at h
      split_ifs at h with hrange
      cases h
      rw [BitVec.toNat_ofInt]
      refine congrArg some ?_
      omega
  · intro h
    rw [h]
    dsimp only
    rw [if_neg (by omega), BitVec.ofInt_natCast, BitVec.ofNat_toNat, BitVec.setWidth_eq]

/-- What is taken is a setting of the grammar. -/
theorem settingText_of_parse {text settingText : List Char} {s : PinSetting}
    (h : parseSetting text settingText = .ok s) : SettingText settingText s := by
  have hoffs : ∀ {kind : List Char}, kind.map toLower = "off".toList ∨ kind.map toLower = "unused".toList →
      ∃ word, (word = "off" ∨ word = "unused") ∧ Spells word kind := by
    rintro kind (hkind | hkind)
    · exact ⟨"off", .inl rfl, hkind⟩
    · exact ⟨"unused", .inr rfl, hkind⟩
  rw [parseSetting] at h
  rcases Go.cut_cases ':' settingText with ⟨kind, param, -, rfl, hcut⟩ | ⟨-, hcut⟩
  · rw [hcut] at h
    dsimp only at h
    by_cases hoff : kind.map toLower = "off".toList ∨ kind.map toLower = "unused".toList
    · rw [if_pos hoff, if_pos rfl] at h
      cases h
    rw [if_neg hoff, if_pos rfl] at h
    cases hmode : inputMode (kind.map toLower) with
    | some setting =>
      rw [hmode] at h
      obtain ⟨word, mode, hword, hkind, rfl⟩ := inputMode_iff.mp hmode
      cases hdebounce : parseDebounce text (some param) with
      | error e =>
        rw [hdebounce] at h
        cases h
      | ok debounce =>
        rw [hdebounce] at h
        cases h
        exact .debounced hword hkind (parseDebounce_iff.mp hdebounce)
    | none =>
      rw [hmode] at h
      dsimp only at h
      split_ifs at h with hout
      cases hlevel : levelWord (param.map toLower) with
      | none =>
        rw [hlevel] at h
        cases h
      | some level =>
        rw [hlevel] at h
        cases h
        obtain ⟨word, hword, hparam⟩ := levelWord_iff.mp hlevel
        exact .output hout hword hparam
  · rw [hcut] at h
    dsimp only at h
    by_cases hoff : settingText.map toLower = "off".toList ∨ settingText.map toLower = "unused".toList
    · rw [if_pos hoff, if_neg Bool.false_ne_true] at h
      cases h
      obtain ⟨word, hword, hspells⟩ := hoffs hoff
      exact .unused hword hspells
    rw [if_neg hoff, if_neg Bool.false_ne_true] at h
    cases hmode : inputMode (settingText.map toLower) with
    | some setting =>
      rw [hmode] at h
      obtain ⟨word, mode, hword, hkind, rfl⟩ := inputMode_iff.mp hmode
      cases h
      exact .input hword hkind
    | none =>
      rw [hmode] at h
      dsimp only at h
      split_ifs at h
      cases h

/-- A setting of the grammar is taken. -/
theorem SettingText.parse {settingText : List Char} {s : PinSetting} (h : SettingText settingText s)
    (text : List Char) : parseSetting text settingText = .ok s := by
  rw [parseSetting]
  cases h with
  | @unused word _ hword h =>
    have hcolon : ':' ∉ word.toList := by rcases hword with rfl | rfl <;> decide
    rw [Go.cut_of_not_mem (h.colon hcolon)]
    dsimp only
    rw [h, if_pos (by rcases hword with rfl | rfl <;> decide), if_neg Bool.false_ne_true]
  | input hword h =>
    obtain ⟨hcolon, hoff⟩ := colon_inputWords hword
    rw [Go.cut_of_not_mem (h.colon hcolon)]
    dsimp only
    rw [h, if_neg hoff, inputMode_iff.mpr ⟨_, _, hword, rfl, rfl⟩, if_neg Bool.false_ne_true]
    rfl
  | debounced hword h hparam =>
    obtain ⟨hcolon, hoff⟩ := colon_inputWords hword
    rw [Go.cut_append (h.colon hcolon)]
    dsimp only
    rw [h, if_neg hoff, inputMode_iff.mpr ⟨_, _, hword, rfl, rfl⟩, if_pos rfl, parseDebounce_iff.mpr hparam]
    rfl
  | output h hword hparam =>
    rw [Go.cut_append (h.colon (by decide))]
    dsimp only
    rw [h, if_neg (by decide), hparam, levelWord_iff.mpr ⟨_, hword, rfl⟩]
    rfl

/-- The text of a number has neither a comma nor an equals sign, and is not empty. -/
theorem not_mem_natural {text : List Char} {n : ℕ} (h : Natural text n) :
    ',' ∉ text ∧ '=' ∉ text ∧ text ≠ [] := by
  refine ⟨fun hmem => ?_, fun hmem => ?_, ?_⟩
  · have hchar := h.mem ',' hmem
    revert hchar
    decide
  · have hchar := h.mem '=' hmem
    revert hchar
    decide
  · rintro rfl
    cases h with
    | unsigned h => exact Option.some_ne_none n (Codec.go_literal_iff.mpr h).symm

theorem parsePinSpec_iff {text : List Char} {p : Gpio × PinSetting} :
    parsePinSpec text = .ok p ↔ PinText text p := by
  obtain ⟨n, s⟩ := p
  constructor
  · intro h
    rw [parsePinSpec] at h
    rcases Go.cut_cases '=' text with ⟨gpioText, settingText, -, rfl, hcut⟩ | ⟨-, hcut⟩
    · rw [hcut] at h
      dsimp only at h
      rw [if_pos rfl] at h
      cases hgpio : parseGpio gpioText with
      | error e =>
        rw [hgpio] at h
        cases h
      | ok gpio =>
        rw [hgpio] at h
        cases hsetting : parseSetting (gpioText ++ '=' :: settingText) settingText with
        | error e =>
          rw [hsetting] at h
          cases h
        | ok setting =>
          rw [hsetting] at h
          cases h
          exact .mk (parseGpio_iff.mp hgpio) (settingText_of_parse hsetting)
    · rw [hcut] at h
      cases h
  · intro h
    cases h with
    | mk hgpio h =>
      rw [parsePinSpec, Go.cut_append (not_mem_natural hgpio).2.1]
      dsimp only
      rw [if_pos rfl, parseGpio_iff.mpr hgpio, h.parse]
      rfl

theorem parseOutputSpec_iff {text : List Char} {p : Gpio × Bool} :
    parseOutputSpec text = .ok p ↔ LevelText text p := by
  obtain ⟨n, level⟩ := p
  constructor
  · intro h
    rw [parseOutputSpec] at h
    rcases Go.cut_cases '=' text with ⟨gpioText, levelText, -, rfl, hcut⟩ | ⟨-, hcut⟩
    · rw [hcut] at h
      dsimp only at h
      rw [if_pos rfl] at h
      cases hgpio : parseGpio gpioText with
      | error e =>
        rw [hgpio] at h
        cases h
      | ok gpio =>
        rw [hgpio] at h
        cases hlevel : levelWord (levelText.map toLower) with
        | none =>
          rw [hlevel] at h
          cases h
        | some level =>
          rw [hlevel] at h
          cases h
          obtain ⟨word, hword, hspells⟩ := levelWord_iff.mp hlevel
          exact .mk (parseGpio_iff.mp hgpio) hword hspells
    · rw [hcut] at h
      cases h
  · intro h
    cases h with
    | mk hgpio hword h =>
      rw [parseOutputSpec, Go.cut_append (not_mem_natural hgpio).2.1]
      dsimp only
      rw [if_pos rfl, parseGpio_iff.mpr hgpio, h, levelWord_iff.mpr ⟨_, hword, rfl⟩]
      rfl

theorem parseGpios_cons {part : List Char} {parts : List (List Char)} {ns : List Gpio} (hne : part ≠ []) :
    parseGpios (part :: parts) = .ok ns ↔ ∃ n rest, Natural part n.val ∧ parseGpios parts = .ok rest ∧
    ns = n :: rest := by
  rw [parseGpios, if_neg hne]
  constructor
  · intro h
    cases hgpio : parseGpio part with
    | error e =>
      rw [hgpio] at h
      cases h
    | ok n =>
      rw [hgpio] at h
      cases hparts : parseGpios parts with
      | error e =>
        rw [hparts] at h
        cases h
      | ok rest =>
        rw [hparts] at h
        cases h
        exact ⟨n, rest, parseGpio_iff.mp hgpio, rfl, rfl⟩
  · rintro ⟨n, rest, hgpio, hparts, rfl⟩
    rw [parseGpio_iff.mpr hgpio, hparts]
    rfl

theorem gpiosText_of_parse : ∀ (text : List Char) {ns : List Gpio}, parseGpioList text = .ok ns →
    GpiosText text ns := by
  intro text
  induction hlength : text.length using Nat.strongRecOn generalizing text with
  | ind length ih =>
    intro ns h
    subst hlength
    rw [parseGpioList] at h
    by_cases hcomma : ',' ∈ text
    · obtain ⟨part, rest, rfl, hpart⟩ := List.eq_append_cons_of_mem hcomma
      have hrest : ∀ {ns}, parseGpios (rest.splitOn ',') = .ok ns → GpiosText rest ns :=
        ih _ (by simp; omega) rest rfl
      rw [List.splitOn_append_cons_self_of_not_mem hpart] at h
      by_cases hne : part = []
      · subst hne
        exact .skip (hrest h)
      · obtain ⟨n, ns, hgpio, hparts, rfl⟩ := (parseGpios_cons hne).mp h
        exact .more hgpio (hrest hparts)
    · rw [List.splitOn_eq_singleton hcomma] at h
      by_cases hne : text = []
      · subst hne
        cases h
        exact .nil
      · obtain ⟨n, ns, hgpio, hparts, rfl⟩ := (parseGpios_cons hne).mp h
        cases hparts
        exact .last hgpio

theorem parseGpioList_iff {text : List Char} {ns : List Gpio} :
    parseGpioList text = .ok ns ↔ GpiosText text ns := by
  refine ⟨gpiosText_of_parse text, fun h => ?_⟩
  induction h with
  | nil => rfl
  | last hgpio =>
    obtain ⟨hcomma, -, hne⟩ := not_mem_natural hgpio
    rw [parseGpioList, List.splitOn_eq_singleton hcomma, parseGpios_cons hne]
    exact ⟨_, [], hgpio, rfl, rfl⟩
  | @skip ns rest h ih =>
    rw [parseGpioList, ← List.nil_append (',' :: rest),
      List.splitOn_append_cons_self_of_not_mem List.not_mem_nil]
    exact ih
  | more hgpio h ih =>
    obtain ⟨hcomma, -, hne⟩ := not_mem_natural hgpio
    rw [parseGpioList, List.splitOn_append_cons_self_of_not_mem hcomma, parseGpios_cons hne]
    exact ⟨_, _, hgpio, ih, rfl⟩

end Hidpin.Cli
