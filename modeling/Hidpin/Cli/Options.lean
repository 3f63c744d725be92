import Hidpin.Go.Strconv

/-! The options of the command (`parseOptions` in `tools/hidpin/main.go`), and the command lines they are
    read from. -/

namespace Hidpin.Cli
open Go (cut)

/-- The options with a value. -/
inductive ValueFlag where | serial | activeLow | activeHigh
  deriving DecidableEq

namespace ValueFlag

/-- The text of an option. -/
def name : ValueFlag → List Char
  | serial => "--serial".toList
  | activeLow => "--active-low".toList
  | activeHigh => "--active-high".toList

/-- `valueFlags`, whose keys all have the prefix that the source asks for, too. -/
def ofName (name : List Char) : Option ValueFlag :=
  if name = serial.name then some serial
  else if name = activeLow.name then some activeLow
  else if name = activeHigh.name then some activeHigh
  else none

end ValueFlag

/-- `options`: what the command line asks for, and its arguments. -/
structure Options where
  json : Bool
  serial : List Char
  activeLow : List Char
  activeHigh : List Char
  all : Bool
  help : Bool
  args : List (List Char)
  deriving DecidableEq

namespace Options

/-- `var o options`. -/
def zero : Options := ⟨false, [], [], [], false, false, []⟩

/-- Stores the value of an option. -/
def set (o : Options) (value : List Char) : ValueFlag → Options
  | .serial => { o with serial := value }
  | .activeLow => { o with activeLow := value }
  | .activeHigh => { o with activeHigh := value }

/-- The value of an option. -/
def get (o : Options) : ValueFlag → List Char
  | .serial => o.serial
  | .activeLow => o.activeLow
  | .activeHigh => o.activeHigh

end Options

/-- The switch of `parseOptions`, over what is no option with a value. -/
def parseWord (arg : List Char) (o : Options) : Except String Options :=
  if arg = "--json".toList then .ok { o with json := true }
  else if arg = "--all".toList then .ok { o with all := true }
  else if arg = "-h".toList ∨ arg = "--help".toList then .ok { o with help := true }
  else if "--".toList.isPrefixOf arg then .error ("unrecognized arguments: " ++ String.ofList arg)
  else .ok { o with args := o.args ++ [arg] }

/-- The loop of `parseOptions`. -/
def parseFrom : List (List Char) → Options → Except String Options
  | [], o => .ok o
  | arg :: rest, o =>
    if arg = "--".toList then .ok { o with args := o.args ++ rest }
    else
      let (name, value, hasValue) := cut '=' arg
      match ValueFlag.ofName name with
      | some flag =>
        if hasValue then parseFrom rest (o.set value flag)
        else match rest with
          | [] => .error ("argument " ++ String.ofList name ++ ": expected one argument")
          | value :: rest => parseFrom rest (o.set value flag)
      | none => match parseWord arg o with
        | .ok o => parseFrom rest o
        | .error e => .error e

/-- `parseOptions`. -/
def parseOptions (argv : List (List Char)) : Except String Options := parseFrom argv .zero

/-! ### The command lines

A command line is a row of options and arguments, and behind `--` arguments only. -/

/-- What a command line is made of: an option, alone or with its value, or an argument. -/
inductive Word where
  | json
  | all
  | help (short : Bool)
  /-- An option with its value, in one text or in two. -/
  | value (flag : ValueFlag) (joined : Bool) (text : List Char)
  | arg (text : List Char)
  deriving DecidableEq

namespace Word

/-- How a word is written. -/
def texts : Word → List (List Char)
  | json => ["--json".toList]
  | all => ["--all".toList]
  | help short => [if short then "-h".toList else "--help".toList]
  | value flag true text => [flag.name ++ '=' :: text]
  | value flag false text => [flag.name, text]
  | arg text => [text]

/-- An argument must not look like an option. -/
def WellFormed : Word → Prop
  | arg text => "--".toList.isPrefixOf text = false ∧ text ≠ "-h".toList
  | _ => True

/-- A word that asks for help. -/
def isHelp : Word → Bool
  | help _ => true
  | _ => false

/-- The value it gives to an option. -/
def valueOf (flag : ValueFlag) : Word → Option (List Char)
  | value f _ text => if f = flag then some text else none
  | _ => none

/-- The argument that a word is. -/
def argument : Word → Option (List Char)
  | arg text => some text
  | _ => none

end Word

/-- The texts of a command line; `rest` is behind `--`. -/
def spelled (words : List Word) (rest : Option (List (List Char))) : List (List Char) :=
  words.flatMap Word.texts ++ rest.elim [] fun rest => "--".toList :: rest

/-- The value of an option: the last one given. -/
def lastValue (flag : ValueFlag) (words : List Word) : Option (List Char) :=
  (words.filterMap (Word.valueOf flag)).getLast?

/-- What a command line stands for: where its options are does not matter. -/
def meaning (o : Options) (words : List Word) (rest : Option (List (List Char))) : Options where
  json := o.json || decide (.json ∈ words)
  serial := (lastValue .serial words).getD o.serial
  activeLow := (lastValue .activeLow words).getD o.activeLow
  activeHigh := (lastValue .activeHigh words).getD o.activeHigh
  all := o.all || decide (.all ∈ words)
  help := o.help || words.any Word.isHelp
  args := o.args ++ words.filterMap Word.argument ++ rest.getD []

namespace Word

/-- The options after one word. -/
def apply (o : Options) : Word → Options
  | json => { o with json := true }
  | all => { o with all := true }
  | help _ => { o with help := true }
  | value flag _ text => o.set text flag
  | arg text => { o with args := o.args ++ [text] }

end Word

theorem lastValue_cons (flag : ValueFlag) (w : Word) (words : List Word) (d : List Char) :
    (lastValue flag (w :: words)).getD d = (lastValue flag words).getD ((w.valueOf flag).getD d) := by
  rw [lastValue, List.filterMap_cons]
  cases w.valueOf flag with
  | none => rfl
  | some text =>
    rw [List.getLast?_cons, Option.getD_some, lastValue]
    rfl

/-- A command line means what its first word does, and then the rest of it. -/
theorem meaning_cons (o : Options) (w : Word) (words : List Word) (rest : Option (List (List Char))) :
    meaning o (w :: words) rest = meaning (w.apply o) words rest := by
  simp only [meaning, lastValue_cons, List.any_cons, List.filterMap_cons, List.mem_cons]
  cases w with
  | json => simp [Word.apply, Word.valueOf, Word.isHelp, Word.argument]
  | all => simp [Word.apply, Word.valueOf, Word.isHelp, Word.argument]
  | help short => simp [Word.apply, Word.valueOf, Word.isHelp, Word.argument]
  | value flag joined text =>
    cases flag <;> simp [Word.apply, Word.valueOf, Word.isHelp, Word.argument, Options.set]
  | arg text => simp [Word.apply, Word.valueOf, Word.isHelp, Word.argument]

theorem meaning_nil (o : Options) (rest : Option (List (List Char))) :
    meaning o [] rest = { o with args := o.args ++ rest.getD [] } := by
  simp [meaning, lastValue]

/-! ### What is parsed -/

theorem ofName_name (flag : ValueFlag) : ValueFlag.ofName flag.name = some flag := by cases flag <;> rfl

theorem eq_name_of_ofName {name : List Char} {flag : ValueFlag} (h : ValueFlag.ofName name = some flag) :
    name = flag.name := by
  rw [ValueFlag.ofName] at h
  split_ifs at h with hserial hlow hhigh
  · exact Option.some.inj h ▸ hserial
  · exact Option.some.inj h ▸ hlow
  · exact Option.some.inj h ▸ hhigh

/-- A text that is no option has the name of none. -/
theorem ofName_eq_none {text : List Char} (h : "--".toList.isPrefixOf text = false) :
    ValueFlag.ofName (cut '=' text).1 = none := by
  refine Option.eq_none_iff_forall_ne_some.mpr fun flag hflag => ?_
  have hname : "--".toList <+: flag.name := by cases flag <;> exact ⟨_, rfl⟩
  have hoption := hname.trans (eq_name_of_ofName hflag ▸ Go.cut_prefix '=' text)
  rw [← List.isPrefixOf_iff_prefix, h] at hoption
  cases hoption

/-- The loop takes one word after the other. -/
theorem parseFrom_word {w : Word} (h : w.WellFormed) (rest : List (List Char)) (o : Options) :
    parseFrom (w.texts ++ rest) o = parseFrom rest (w.apply o) := by
  cases w with
  | json => rfl
  | all => rfl
  | help short => cases short <;> rfl
  | value flag joined text =>
    have hequals : '=' ∉ flag.name := by cases flag <;> decide
    cases joined with
    | true =>
      have hlong : "--".toList.length < flag.name.length := by cases flag <;> decide
      have hdashes : flag.name ++ '=' :: text ≠ "--".toList := fun h => by
        have hlength := congrArg List.length h
        rw [List.length_append] at hlength
        omega
      rw [Word.texts, List.singleton_append, parseFrom, if_neg hdashes, Go.cut_append hequals]
      dsimp only
      rw [ofName_name]
      rfl
    | false =>
      have hdashes : flag.name ≠ "--".toList := by cases flag <;> decide
      rw [Word.texts, List.cons_append, List.singleton_append, parseFrom, if_neg hdashes,
        Go.cut_of_not_mem hequals]
      dsimp only
      rw [ofName_name]
      rfl
  | arg text =>
    obtain ⟨hoption, hshort⟩ := h
    have hne : ∀ t : List Char, "--".toList.isPrefixOf t = true → text ≠ t := by
      rintro t ht rfl
      exact Bool.false_ne_true (hoption.symm.trans ht)
    have hword : parseWord text o = .ok (Word.apply o (.arg text)) := by
      rw [parseWord, if_neg (hne "--json".toList (by decide)), if_neg (hne "--all".toList (by decide)),
        if_neg (not_or.mpr ⟨hshort, hne "--help".toList (by decide)⟩),
        if_neg (by rw [hoption]; exact Bool.false_ne_true)]
      rfl
    rw [Word.texts, List.singleton_append, parseFrom, if_neg (hne "--".toList (by decide))]
    dsimp only
    rw [ofName_eq_none hoption, hword]

theorem parseWord_cases (arg : List Char) (o : Options) :
    (∃ w : Word, w.WellFormed ∧ w.texts = [arg]) ∨ ∃ e, parseWord arg o = .error e := by
  by_cases hjson : arg = "--json".toList
  · exact .inl ⟨.json, trivial, by rw [hjson]; rfl⟩
  by_cases hall : arg = "--all".toList
  · exact .inl ⟨.all, trivial, by rw [hall]; rfl⟩
  by_cases hshort : arg = "-h".toList
  · exact .inl ⟨.help true, trivial, by rw [hshort]; rfl⟩
  by_cases hlong : arg = "--help".toList
  · exact .inl ⟨.help false, trivial, by rw [hlong]; rfl⟩
  by_cases hoption : "--".toList.isPrefixOf arg = true
  · refine .inr ⟨"unrecognized arguments: " ++ String.ofList arg, ?_⟩
    rw [parseWord, if_neg hjson, if_neg hall, if_neg (not_or.mpr ⟨hshort, hlong⟩), if_pos hoption]
  · exact .inl ⟨.arg arg, ⟨Bool.eq_false_of_not_eq_true hoption, hshort⟩, rfl⟩

/-- A command line that goes on ends its options, begins with a word, or is an error. -/
theorem parseFrom_cases (arg : List Char) (rest : List (List Char)) (o : Options) :
    arg = "--".toList ∨ (∃ w : Word, w.WellFormed ∧ ∃ rest', arg :: rest = w.texts ++ rest') ∨
      ∃ e, parseFrom (arg :: rest) o = .error e := by
  by_cases hdashes : arg = "--".toList
  · exact .inl hdashes
  refine .inr ?_
  have hcut := Go.cut_eq '=' arg
  rcases hparts : cut '=' arg with ⟨name, value, found⟩
  rw [hparts] at hcut
  cases hname : ValueFlag.ofName name with
  | some flag =>
    obtain rfl := eq_name_of_ofName hname
    cases found with
    | true => exact .inl ⟨.value flag true value, trivial, rest, congrArg (· :: rest) hcut⟩
    | false =>
      cases rest with
      | nil =>
        refine .inr ⟨"argument " ++ String.ofList flag.name ++ ": expected one argument", ?_⟩
        rw [parseFrom, if_neg hdashes, hparts]
        dsimp only
        rw [hname]
        rfl
      | cons text rest =>
        exact .inl ⟨.value flag false text, trivial, rest, congrArg (· :: text :: rest) hcut⟩
  | none =>
    rcases parseWord_cases arg o with ⟨w, hw, htexts⟩ | ⟨e, he⟩
    · exact .inl ⟨w, hw, rest, by rw [htexts]; rfl⟩
    · refine .inr ⟨e, ?_⟩
      rw [parseFrom, if_neg hdashes, hparts]
      dsimp only
      rw [hname, he]

theorem Word.texts_ne_nil (w : Word) : w.texts ≠ [] := by
  cases w with
  | value flag joined text => cases joined <;> exact List.cons_ne_nil _ _
  | _ => exact List.cons_ne_nil _ _

/-- The loop reads what is spelled. -/
theorem parseFrom_spelled : ∀ {words : List Word}, (∀ w ∈ words, w.WellFormed) →
    ∀ (rest : Option (List (List Char))) (o : Options),
      parseFrom (spelled words rest) o = .ok (meaning o words rest)
  | [], _, none, o => by
    rw [meaning_nil, Option.getD_none, List.append_nil]
    rfl
  | [], _, some rest, o => by
    rw [meaning_nil]
    rfl
  | w :: words, h, rest, o => by
    obtain ⟨hw, hwords⟩ := List.forall_mem_cons.mp h
    rw [spelled, List.flatMap_cons, List.append_assoc, parseFrom_word hw, meaning_cons, ← spelled]
    exact parseFrom_spelled hwords rest _

/-- What the loop reads is spelled in one way. -/
theorem spelled_of_parseFrom : ∀ (argv : List (List Char)) {o o' : Options}, parseFrom argv o = .ok o' →
    ∃ words rest, (∀ w ∈ words, w.WellFormed) ∧ argv = spelled words rest ∧ o' = meaning o words rest
  | [], o, o', h => by
    obtain rfl := Except.ok.inj h
    exact ⟨[], none, by simp, rfl, by rw [meaning_nil, Option.getD_none, List.append_nil]⟩
  | arg :: rest, o, o', h => by
    rcases parseFrom_cases arg rest o with rfl | ⟨w, hw, rest', heq⟩ | ⟨e, he⟩
    · refine ⟨[], some rest, by simp, rfl, ?_⟩
      rw [meaning_nil]
      exact (Except.ok.inj h).symm
    · have hlength : rest'.length < rest.length + 1 := by
        have hlen := congrArg List.length heq
        have hpos := List.length_pos_iff.mpr w.texts_ne_nil
        rw [List.length_cons, List.length_append] at hlen
        omega
      rw [heq, parseFrom_word hw] at h
      obtain ⟨words, last, hwords, hrest', ho'⟩ := spelled_of_parseFrom rest' h
      refine ⟨w :: words, last, List.forall_mem_cons.mpr ⟨hw, hwords⟩, ?_, ?_⟩
      · rw [heq, hrest', spelled, spelled, List.flatMap_cons, List.append_assoc]
      · rw [ho', meaning_cons]
    · rw [he] at h
      cases h
termination_by argv => argv.length

/-- The options are read exactly from the command lines that are spelled as they should be, and wherever they
    stand there, the arguments keep their order and an option has the last value it was given. -/
theorem parseOptions_iff (argv : List (List Char)) (o : Options) : parseOptions argv = .ok o ↔
    ∃ words rest, (∀ w ∈ words, w.WellFormed) ∧ argv = spelled words rest ∧
      o = meaning .zero words rest := by
  constructor
  · exact spelled_of_parseFrom argv
  · rintro ⟨words, rest, hwords, rfl, rfl⟩
    exact parseFrom_spelled hwords rest .zero

end Hidpin.Cli
