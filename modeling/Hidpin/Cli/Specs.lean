import Hidpin.Go.Settings

/-! The arguments of the command (`tools/hidpin/main.go`): GPIO numbers, settings and levels. -/

namespace Hidpin.Cli
open Firmware (Gpio gpioCount rawBit)
open Go (PinSetting parseInt itoa cut toLower defaultDebounceMs)

/-- `inputModes`. -/
def inputMode (kind : List Char) : Option (U8 → PinSetting) :=
  if kind = "nopull".toList ∨ kind = "in".toList then some .monitorNoPull
  else if kind = "pullup".toList then some .monitorPullUp
  else if kind = "pulldown".toList then some .monitorPullDown
  else none

/-- `levelWords`. -/
def levelWord (word : List Char) : Option Bool :=
  if word = "high".toList ∨ word = "1".toList ∨ word = "on".toList then some true
  else if word = "low".toList ∨ word = "0".toList ∨ word = "off".toList then some false
  else none

/-- A text in single quotes. -/
def quoted (text : List Char) : String := "'" ++ String.ofList text ++ "'"

theorem toNat_lt_gpioCount {gpio : ℤ} (h : 0 ≤ gpio ∧ gpio < gpioCount) : gpio.toNat < gpioCount := by omega

/-- `parseGPIO`. -/
def parseGpio (text : List Char) : Except String Gpio := match parseInt text with
  | none => .error ("the GPIO number is not a number: " ++ quoted text)
  | some gpio =>
    if h : 0 ≤ gpio ∧ gpio < gpioCount then .ok ⟨gpio.toNat, toNat_lt_gpioCount h⟩
    else .error ("GPIO" ++ toString gpio ++ " is out of range (0-29)")

/-- The debounce time in the part of a setting behind the colon. -/
def parseDebounce (text : List Char) (param : Option (List Char)) : Except String U8 :=
  match param.elim (some (defaultDebounceMs.toNat : ℤ)) parseInt with
  | none => .error (quoted text ++ ": the debounce time is not a number")
  | some debounce =>
    if debounce < 0 ∨ debounce > 255 then .error (quoted text ++ ": the debounce time must be 0-255 ms")
    else .ok (BitVec.ofInt 8 debounce)

/-- The switch of `parsePinSpec` over the kinds of settings. -/
def parseSetting (text settingText : List Char) : Except String PinSetting :=
  let (kind, param, hasParam) := cut ':' settingText
  let kind := kind.map toLower
  if kind = "off".toList ∨ kind = "unused".toList then
    if hasParam then .error (quoted text ++ ": off takes no value") else .ok .unused
  else match inputMode kind with
    | some setting => (parseDebounce text (if hasParam then some param else none)).map setting
    | none =>
      if kind = "out".toList then match levelWord (param.map toLower) with
        | some level => .ok (.output level)
        | none => .error (quoted text ++ ": an output is out:high or out:low")
      else .error (quoted text ++ ": the setting must be one of off, nopull, pullup, pulldown, out")

/-- `parsePinSpec`: GPIO=SETTING. -/
def parsePinSpec (text : List Char) : Except String (Gpio × PinSetting) :=
  let (gpioText, settingText, found) := cut '=' text
  if found then do
    let gpio ← parseGpio gpioText
    let setting ← parseSetting text settingText
    return (gpio, setting)
  else .error (quoted text ++ " is not of the form GPIO=SETTING")

/-- `parseOutputSpec`: GPIO=VALUE. -/
def parseOutputSpec (text : List Char) : Except String (Gpio × Bool) :=
  let (gpioText, levelText, found) := cut '=' text
  if found then do
    let gpio ← parseGpio gpioText
    match levelWord (levelText.map toLower) with
    | some level => return (gpio, level)
    | none => .error (quoted text ++ ": the value must be high/low or 1/0")
  else .error (quoted text ++ " is not of the form GPIO=VALUE")

/-- The loop of `parseGPIOList`. -/
def parseGpios : List (List Char) → Except String (List Gpio)
  | [] => .ok []
  | part :: parts =>
    if part = [] then parseGpios parts
    else do
      let gpio ← parseGpio part
      let gpios ← parseGpios parts
      return gpio :: gpios

/-- `parseGPIOList`. -/
def parseGpioList (text : List Char) : Except String (List Gpio) := parseGpios (text.splitOn ',')

/-- The loop over the arguments of `config set` or `output`: what they say of each GPIO, the last one of a
    GPIO in force. -/
def collect {α : Type} (parse : List Char → Except String (Gpio × α)) :
    List (List Char) → (Gpio → Option α) → Except String (Gpio → Option α)
  | [], values => .ok values
  | spec :: specs, values => do
    let (gpio, value) ← parse spec
    collect parse specs (Function.update values gpio (some value))

/-! ### The notation -/

/-- An argument of `config set`. -/
def pinSpec (n : Gpio) (s : PinSetting) : List Char := itoa n.val ++ '=' :: s.string

theorem parseGpio_itoa (n : Gpio) : parseGpio (itoa n.val) = .ok n := by
  have hn : n.val < 30 := n.isLt
  rw [parseGpio, Go.parseInt_itoa (by omega)]
  exact dif_pos ⟨by omega, by exact_mod_cast hn⟩

/-- The settings of the inputs, a word and a number each. -/
theorem parseSetting_input {word : List Char} {setting : U8 → PinSetting} (hcolon : ':' ∉ word)
    (hword : inputMode (word.map toLower) = some setting)
    (hoff : ¬ (word.map toLower = "off".toList ∨ word.map toLower = "unused".toList)) (text : List Char)
    (param : U8) : parseSetting text (word ++ ':' :: itoa param.toNat) = .ok (setting param) := by
  have hlt : param.toNat < 2 ^ 8 := param.isLt
  have hdebounce : parseDebounce text (some (itoa param.toNat)) = .ok param := by
    rw [parseDebounce, Option.elim_some, Go.parseInt_itoa (by omega)]
    dsimp only
    rw [if_neg (by omega)]
    simp
  rw [parseSetting, Go.cut_append hcolon]
  dsimp only
  rw [if_neg hoff, hword, if_pos rfl, hdebounce]
  rfl

/-- Every valid setting is read back from its notation. -/
theorem parseSetting_string {s : PinSetting} (h : s.Valid) (text : List Char) :
    parseSetting text s.string = .ok s := by
  obtain ⟨mode, param⟩ := s
  obtain ⟨hmode, hunused, houtput⟩ := h
  dsimp only at hmode hunused houtput
  have hmodes : ∀ mode ≤ Go.modeOutput, mode = Go.modeUnused ∨ mode = Go.modeInput ∨ mode = Go.modePullUp ∨
      mode = Go.modePullDown ∨ mode = Go.modeOutput := by decide
  rcases hmodes mode hmode with rfl | rfl | rfl | rfl | rfl
  · rw [hunused rfl]
    rfl
  · exact @parseSetting_input "nopull".toList .monitorNoPull (by decide) rfl (by decide) text param
  · exact @parseSetting_input "pullup".toList .monitorPullUp (by decide) rfl (by decide) text param
  · exact @parseSetting_input "pulldown".toList .monitorPullDown (by decide) rfl (by decide) text param
  · have hlevels : ∀ param ≤ (1 : U8), param = 0 ∨ param = 1 := by decide
    rcases hlevels param (houtput rfl) with rfl | rfl
    · rfl
    · rfl

theorem parsePinSpec_pinSpec (n : Gpio) {s : PinSetting} (h : s.Valid) :
    parsePinSpec (pinSpec n s) = .ok (n, s) := by
  have heq : '=' ∉ itoa n.val := fun hmem => by
    have hdigit := (Go.itoa_spec n.val).1 '=' hmem
    revert hdigit
    decide
  rw [parsePinSpec, pinSpec, Go.cut_append heq]
  dsimp only
  rw [if_pos rfl, parseGpio_itoa, parseSetting_string h]
  rfl

theorem inputMode_valid {kind : List Char} {setting : U8 → PinSetting} (h : inputMode kind = some setting)
    (debounce : U8) : (setting debounce).Valid := by
  have hvalid : ∀ mode, mode = Go.modeInput ∨ mode = Go.modePullUp ∨ mode = Go.modePullDown →
      (⟨mode, debounce⟩ : PinSetting).Valid := by
    rintro mode (rfl | rfl | rfl)
    · exact ⟨by decide +revert, nofun, nofun⟩
    · exact ⟨by decide +revert, nofun, nofun⟩
    · exact ⟨by decide +revert, nofun, nofun⟩
  rw [inputMode] at h
  split_ifs at h
  · exact Option.some.inj h ▸ hvalid _ (.inl rfl)
  · exact Option.some.inj h ▸ hvalid _ (.inr (.inl rfl))
  · exact Option.some.inj h ▸ hvalid _ (.inr (.inr rfl))

/-- What is accepted is valid. -/
theorem parseSetting_valid {text settingText : List Char} {s : PinSetting}
    (h : parseSetting text settingText = .ok s) : s.Valid := by
  rw [parseSetting] at h
  generalize cut ':' settingText = parts at h
  obtain ⟨kind, param, hasParam⟩ := parts
  dsimp only at h
  by_cases hoff : kind.map toLower = "off".toList ∨ kind.map toLower = "unused".toList
  · rw [if_pos hoff] at h
    split_ifs at h
    cases h
    decide
  rw [if_neg hoff] at h
  cases hkind : inputMode (kind.map toLower) with
  | some setting =>
    rw [hkind] at h
    cases hdebounce : parseDebounce text (if hasParam then some param else none) with
    | error e =>
      rw [hdebounce] at h
      cases h
    | ok debounce =>
      rw [hdebounce] at h
      cases h
      exact inputMode_valid hkind debounce
  | none =>
    rw [hkind] at h
    dsimp only at h
    split_ifs at h
    cases hlevel : levelWord (param.map toLower) with
    | none =>
      rw [hlevel] at h
      cases h
    | some level =>
      rw [hlevel] at h
      cases h
      cases level <;> decide

theorem parsePinSpec_valid {text : List Char} {n : Gpio} {s : PinSetting}
    (h : parsePinSpec text = .ok (n, s)) : s.Valid := by
  rw [parsePinSpec] at h
  generalize cut '=' text = parts at h
  obtain ⟨gpioText, settingText, found⟩ := parts
  dsimp only at h
  split_ifs at h
  cases hgpio : parseGpio gpioText with
  | error e =>
    rw [hgpio] at h
    cases h
  | ok gpio =>
    rw [hgpio] at h
    cases hsetting : parseSetting text settingText with
    | error e =>
      rw [hsetting] at h
      cases h
    | ok setting =>
      rw [hsetting] at h
      cases h
      exact parseSetting_valid hsetting

/-! ### Several arguments -/

section Collect
variable {α : Type} {parse : List Char → Except String (Gpio × α)}

/-- What a list of arguments says of a GPIO: the last one is in force. -/
def lastOf (pairs : List (Gpio × α)) (n : Gpio) : Option α := pairs.reverse.lookup n

theorem lastOf_cons (n : Gpio) (value : α) (pairs : List (Gpio × α)) (m : Gpio) :
    lastOf ((n, value) :: pairs) m = (lastOf pairs m).or (if m = n then some value else none) := by
  rw [lastOf, List.reverse_cons, List.lookup_append, ← lastOf]
  by_cases h : m = n
  · rw [if_pos h, List.lookup_cons, h, beq_self_eq_true]
  · rw [if_neg h, List.lookup_cons, beq_eq_false_iff_ne.mpr h]
    rfl

/-- The arguments are collected when every one of them is read, and then the last one of each GPIO is in
    force. -/
theorem collect_eq_ok : ∀ {specs : List (List Char)} {values result : Gpio → Option α},
    collect parse specs values = .ok result ↔
      ∃ pairs, specs.map parse = pairs.map .ok ∧ result = fun n => (lastOf pairs n).or (values n)
  | [], values, result => by
    rw [collect, Except.ok.injEq]
    constructor
    · rintro rfl
      exact ⟨[], rfl, rfl⟩
    · rintro ⟨pairs, hpairs, rfl⟩
      obtain rfl := List.map_eq_nil_iff.mp hpairs.symm
      rfl
  | spec :: specs, values, result => by
    have hsame : ∀ (pairs : List (Gpio × α)) n value,
        (fun m => (lastOf pairs m).or (Function.update values n (some value) m)) =
          fun m => (lastOf ((n, value) :: pairs) m).or (values m) := by
      intro pairs n value
      funext m
      rw [lastOf_cons, Function.update_apply, Option.or_assoc]
      split_ifs <;> rfl
    rw [collect]
    cases hspec : parse spec with
    | error e =>
      constructor
      · intro h
        cases h
      · rintro ⟨pairs, hpairs, -⟩
        cases pairs with
        | nil => cases hpairs
        | cons p pairs =>
          rw [List.map_cons, List.map_cons, hspec] at hpairs
          cases (List.cons.inj hpairs).1
    | ok p =>
      obtain ⟨n, value⟩ := p
      refine Iff.trans collect_eq_ok ?_
      constructor
      · rintro ⟨pairs, hpairs, rfl⟩
        refine ⟨(n, value) :: pairs, ?_, hsame pairs n value⟩
        rw [List.map_cons, List.map_cons, hspec, hpairs]
      · rintro ⟨pairs, hpairs, rfl⟩
        cases pairs with
        | nil => cases hpairs
        | cons p pairs =>
          rw [List.map_cons, List.map_cons, hspec] at hpairs
          obtain ⟨hp, htail⟩ := List.cons.inj hpairs
          obtain rfl := Except.ok.inj hp
          exact ⟨pairs, htail, (hsame pairs n value).symm⟩

theorem mem_of_lastOf {pairs : List (Gpio × α)} {n : Gpio} {value : α} (h : lastOf pairs n = some value) :
    (n, value) ∈ pairs := by
  obtain ⟨before, behind, hpairs, -⟩ := List.lookup_eq_some_iff.mp h
  rw [← List.mem_reverse, hpairs]
  exact List.mem_append_right _ List.mem_cons_self

/-- Arguments that are all read are collected. -/
theorem collect_ok : ∀ {specs : List (List Char)}, (∀ spec ∈ specs, ∃ p, parse spec = .ok p) →
    ∀ values : Gpio → Option α, ∃ result, collect parse specs values = .ok result
  | [], _, values => ⟨values, rfl⟩
  | spec :: specs, h, values => by
    obtain ⟨⟨p, hp⟩, hspecs⟩ := List.forall_mem_cons.mp h
    rw [collect, hp]
    exact collect_ok hspecs _

/-- What is said of some GPIOs, one after the other. -/
def pairsOf (values : Gpio → Option α) (ns : List Gpio) : List (Gpio × α) :=
  ns.filterMap fun n => (values n).map fun value => (n, value)

theorem lastOf_pairsOf (values : Gpio → Option α) (n : Gpio) : ∀ ns : List Gpio,
    lastOf (pairsOf values ns) n = if n ∈ ns then values n else none
  | [] => rfl
  | m :: ns => by
    have ih := lastOf_pairsOf values n ns
    rw [pairsOf] at ih ⊢
    by_cases hn : n = m
    · subst hn
      cases hvalue : values n with
      | none => simp [hvalue, ih]
      | some value => by_cases hmem : n ∈ ns <;> simp [hvalue, ih, lastOf_cons, hmem]
    · cases hvalue : values m with
      | none => simp [hvalue, ih, hn]
      | some value => simp [hvalue, ih, hn, lastOf_cons]

end Collect

/-! ### What `config set` asks for -/

theorem collected_valid {specs : List (List Char)} {settings : Gpio → Option PinSetting}
    (h : collect parsePinSpec specs (fun _ => none) = .ok settings) {n : Gpio} {s : PinSetting}
    (hs : settings n = some s) : s.Valid := by
  obtain ⟨pairs, hpairs, rfl⟩ := collect_eq_ok.mp h
  dsimp only at hs
  rw [Option.or_none] at hs
  have hmem : Except.ok (n, s) ∈ specs.map parsePinSpec := hpairs ▸ List.mem_map_of_mem (mem_of_lastOf hs)
  obtain ⟨spec, -, hspec⟩ := List.mem_map.mp hmem
  exact parsePinSpec_valid hspec

/-- The arguments that ask for some settings, in the notation that `config get` prints. -/
def printed (settings : Gpio → Option PinSetting) : List (List Char) :=
  (pairsOf settings (List.finRange gpioCount)).map fun p => pinSpec p.1 p.2

theorem collect_printed {settings : Gpio → Option PinSetting} (h : ∀ n s, settings n = some s → s.Valid) :
    collect parsePinSpec (printed settings) (fun _ => none) = .ok settings := by
  have hread : ∀ p ∈ pairsOf settings (List.finRange gpioCount), parsePinSpec (pinSpec p.1 p.2) = .ok p := by
    rintro ⟨n, s⟩ hp
    obtain ⟨m, -, hm⟩ := List.mem_filterMap.mp hp
    obtain ⟨s', hs', heq⟩ := Option.map_eq_some_iff.mp hm
    obtain ⟨rfl, rfl⟩ := Prod.mk.inj heq
    exact parsePinSpec_pinSpec m (h m s' hs')
  refine collect_eq_ok.mpr ⟨pairsOf settings (List.finRange gpioCount), ?_, ?_⟩
  · rw [printed, List.map_map]
    exact List.map_congr_left hread
  · funext n
    rw [lastOf_pairsOf, if_pos (List.mem_finRange n), Option.or_none]

/-- The arguments can ask for exactly the valid settings of GPIOs, and what is printed of such settings is
    read back as it was. -/
theorem expressible_iff (settings : Gpio → Option PinSetting) :
    ((∃ specs, collect parsePinSpec specs (fun _ => none) = .ok settings) ↔
        ∀ n s, settings n = some s → s.Valid) ∧
      (collect parsePinSpec (printed settings) (fun _ => none) = .ok settings ↔
        ∀ n s, settings n = some s → s.Valid) := by
  refine ⟨⟨?_, fun h => ⟨printed settings, collect_printed h⟩⟩, ⟨?_, collect_printed⟩⟩
  · rintro ⟨specs, h⟩ n s hs
    exact collected_valid h hs
  · intro h n s hs
    exact collected_valid h hs

/-- Whether the settings use a GPIO that is not available. -/
def misuse (settings : Gpio → Option PinSetting) (available : U32) (n : Gpio) : Bool :=
  !rawBit available n && (settings n).any fun s => decide (s.mode ≠ Go.modeUnused)

theorem misuses_withPins {c : Go.PinConfig} {settings : Gpio → Option PinSetting}
    {available : U32} {n : Gpio} (hc : c.misuses available n = false) :
    (c.withPins settings).misuses available n = misuse settings available n := by
  rw [Go.PinConfig.misuses, Go.PinConfig.withPins, misuse]
  cases settings n with
  | none =>
    rw [Option.any_none, Bool.and_false]
    exact hc
  | some s => rfl

theorem valid_withPins {c : Go.PinConfig} {settings : Gpio → Option PinSetting} (hc : ∀ n, (c n).Valid)
    (h : ∀ n s, settings n = some s → s.Valid) (n : Gpio) : (c.withPins settings n).Valid := by
  rw [Go.PinConfig.withPins]
  cases hs : settings n with
  | none => exact hc n
  | some s => exact h n s hs

/-- Over a valid configuration of the device, the library lets valid settings through exactly when the
    firmware applies them; it refuses only to use GPIOs that the device does not have, and names the first of
    them. -/
theorem validate_withPins {settings : Gpio → Option PinSetting} (h : ∀ n s, settings n = some s → s.Valid)
    {c : Firmware.PinConfig} {available : U32} (hc : c.Valid available) :
    Go.validatePinConfig ((Go.ofFirmware c).withPins settings) available =
        ((List.finRange gpioCount).find? (misuse settings available)).elim (Go.resultOk, Host.resultGpioNone)
          (fun n => (Go.resultUnavailableGpio, n.toU8)) ∧
      (((Go.ofFirmware c).withPins settings).toFirmware.Valid available ↔
        ∀ n, misuse settings available n = false) := by
  rw [← Go.toFirmware_ofFirmware c, Go.toFirmware_valid_iff] at hc
  obtain ⟨hvalid, hmisuses⟩ := hc
  have hpins := valid_withPins hvalid h
  have hsame : ((Go.ofFirmware c).withPins settings).misuses available = misuse settings available :=
    funext fun n => misuses_withPins (hmisuses n)
  rw [Go.validatePinConfig_eq hpins, Go.toFirmware_valid_iff, hsame]
  exact ⟨rfl, and_iff_right hpins⟩

end Hidpin.Cli
