import DiceNotation.CommandLine.Form

/-!
# Reading arguments

The arguments of a command are read in two passes. The first decides of every argument whether it
is an option, in view of the form alone. An argument that starts with a dash is an option if the
form knows it, in full or abbreviated, with or without a value after a sign of equality; if the
form does not know it, it is a stray option, unless it looks like a negative number or holds a
blank. After an argument of two dashes all others are words.

The second pass goes from left to right. An option takes its value from itself or from the next
word; early hosts drop a value of two dashes, so that the option has none. What is attached to a
short option that takes no value is a cluster of more short options, all of which the form must
know. The words of the operand must stand together: the first run of words is the operand, and all
later words are strays. Of the words of an operand the first that is two dashes is dropped. The
strays are handed back.
-/

set_option autoImplicit false

namespace DiceNotation.CommandLine

/-- What a command line says of a number. -/
inductive NumberOption
  /-- The option is not given. -/
  | absent
  /-- The option is given, but the host dropped its value. -/
  | empty
  /-- The option is given with a number. -/
  | number (value : Int)
deriving DecidableEq

/-- What the options of a command say. -/
structure Options where
  root : Option String := none
  config : Option String := none
  verbose : Bool := false
  json : Bool := false
  seed : NumberOption := .absent
  maxDice : NumberOption := .absent
  rolls : Bool := false
  tree : Bool := false
deriving DecidableEq

/-- An argument that is an option. -/
structure OptionWord where
  /-- The argument as it is written. -/
  written : String
  /-- The option that it means and its full spelling; a stray option means none. -/
  flag : Option (Flag × String)
  /-- What follows the option within the argument. -/
  attached : Option String
deriving DecidableEq

/-- An argument, after the first pass. -/
inductive Item
  | word (text : String)
  | separator
  | option (given : OptionWord)
deriving DecidableEq

namespace Item

/-- An item that is an option. -/
def isOption : Item → Bool
  | option _ => true
  | _ => false

/-- An item that is a word. -/
def isWord : Item → Bool
  | word _ => true
  | _ => false

/-- An item as it is written. -/
def written : Item → String
  | word text => text
  | separator => "--"
  | option given => given.written

end Item

/-! ## The first pass -/

/-- Splits a text at its first sign of equality. -/
def splitEquals (text : String) : String × Option String :=
  match text.toList.span (· != '=') with
  | (_, []) => (text, none)
  | (name, _ :: value) => (String.ofList name, some (String.ofList value))

/-- A text is one or more digits. -/
def areDigits (chars : List Char) : Bool :=
  !chars.isEmpty && chars.all Text.isDecimal

/-- An argument looks like a negative number, whole or with a fraction, and perhaps with a line feed
at its end. -/
def looksNegative (text : String) : Bool :=
  match text.toList with
  | '-' :: chars =>
    let chars := if chars.getLast? == some '\n' then chars.dropLast else chars
    areDigits chars ||
      (chars.dropWhile Text.isDecimal).head? == some '.' &&
        areDigits ((chars.dropWhile Text.isDecimal).drop 1)
  | _ => false

/-- The options that an argument with a leading dash may mean when it is no full spelling. -/
def candidates (form : Form) (text : String) : List OptionWord :=
  if text.startsWith "--" then
    let (name, value) := splitEquals text
    form.spelled.filterMap fun entry =>
      if entry.2.startsWith name then some ⟨text, some entry, value⟩ else none
  else
    let short := String.ofList (text.toList.take 2)
    form.spelled.filterMap fun entry =>
      if entry.2 == short then
        some ⟨text, some entry, some (String.ofList (text.toList.drop 2))⟩
      else if entry.2.startsWith text then some ⟨text, some entry, none⟩
      else none

/-- Decides what an argument is that may be an abbreviation, or no option at all. -/
def guess (form : Form) (text : String) : Except Stop Item :=
  match candidates form text with
  | [given] => .ok (.option given)
  | [] =>
    if looksNegative text || text.toList.contains ' ' then .ok (.word text)
    else .ok (.option ⟨text, none, none⟩)
  | options =>
    let matching := ", ".intercalate (options.filterMap fun given => given.flag.map Prod.snd)
    .error (.misuse form s!"ambiguous option: {text} could match {matching}")

/-- Decides what an argument is. -/
def classify (form : Form) (text : String) : Except Stop Item :=
  if !text.startsWith "-" then .ok (.word text)
  else
    match form.flagOf? text with
    | some flag => .ok (.option ⟨text, some (flag, text), none⟩)
    | none =>
      if text == "-" then .ok (.word text)
      else
        match splitEquals text with
        | (name, some value) =>
          match form.flagOf? name with
          | some flag => .ok (.option ⟨text, some (flag, name), some value⟩)
          | none => guess form text
        | (_, none) => guess form text

/-- The first pass. -/
def itemise (form : Form) : List String → Except Stop (List Item)
  | [] => .ok []
  | text :: rest =>
    if text == "--" then .ok (.separator :: rest.map .word)
    else do
      let item ← classify form text
      let items ← itemise form rest
      return item :: items

/-! ## Options -/

/-- What an argument that is an option brings: options with their values, and the number of
following items that serve as values. -/
structure OptionUse where
  uses : List (Flag × Option String)
  taken : Nat := 0

/-- The complaint about an option with a value that it does not take. -/
def ignoredValue (form : Form) (flag : Flag) (value : List Char) : Stop :=
  .misuse form
    s!"argument {flag.label}: ignored explicit argument {Text.quoted (String.ofList value)}"

/-- Reads an option without a value in the same argument. -/
def useAlone (form : Form) (flag : Flag) (following : List Item) : Except Stop OptionUse :=
  if flag.takesValue then
    match following with
    | .word value :: _ => .ok { uses := [(flag, some value)], taken := 1 }
    | _ => .error (.misuse form s!"argument {flag.label}: expected one argument")
  else .ok { uses := [(flag, none)] }

/-- Reads an option with text in the same argument: its value, or more short options. -/
def useAttached (form : Form) (following : List Item) (flag : Flag) (isShort : Bool)
    (text : List Char) : Except Stop OptionUse :=
  if flag.takesValue then .ok { uses := [(flag, some (String.ofList text))] }
  else
    match isShort, text with
    | true, c :: rest =>
      match form.flagOf? (String.ofList ['-', c]) with
      | none => .error (ignoredValue form flag text)
      | some next => do
        let use ←
          if rest.isEmpty then useAlone form next following
          else useAttached form following next true rest
        return { use with uses := (flag, none) :: use.uses }
    | _, _ => .error (ignoredValue form flag text)

/-- Reads an argument that is an option of the form. -/
def useOption (form : Form) (flag : Flag) (spelling : String) (attached : Option String)
    (following : List Item) : Except Stop OptionUse :=
  match attached with
  | none => useAlone form flag following
  | some text => useAttached form following flag (!spelling.startsWith "--") text.toList

/-- The value with which an option takes effect, if the host keeps it. -/
def keptValue (keepsDashes : Bool) (value : Option String) : Option String :=
  if keepsDashes then value else value.filter (· != "--")

/-- What an option says whose value is a number. -/
def numberOf (form : Form) (flag : Flag) (value : Option String) : Except Stop NumberOption :=
  match value with
  | none => .ok .empty
  | some text =>
    match Text.readInteger text with
    | some number => .ok (.number number)
    | none =>
      .error (.misuse form s!"argument {flag.label}: invalid int value: {Text.quoted text}")

/-- Lets an option take effect. -/
def Options.apply (keepsDashes : Bool) (form : Form) (options : Options)
    (use : Flag × Option String) : Except Stop Options :=
  match use.1, keptValue keepsDashes use.2 with
  | .help, _ => .error (.help form)
  | .version, _ => .error .version
  | .root, value => .ok { options with root := value }
  | .config, value => .ok { options with config := value }
  | .verbose, _ => .ok { options with verbose := true }
  | .json, _ => .ok { options with json := true }
  | .seed, value => (numberOf form .seed value).map fun seed => { options with seed }
  | .maxDice, value =>
    (numberOf form .maxDice value).map fun maxDice => { options with maxDice }
  | .rolls, _ => .ok { options with rolls := true }
  | .tree, _ => .ok { options with tree := true }

/-! ## The second pass -/

/-- What has been read of the arguments of a command. The words are those of the operand. -/
structure Arguments where
  options : Options := {}
  words : Option (List String) := none
  strays : List String := []
deriving DecidableEq

/-- The words of an operand, which must begin with a choice if the operand is a command. -/
def operandWords (form : Form) (operand : Operand) (items : List Item) :
    Except Stop (List String) :=
  let written := items.map Item.written
  match operand with
  | .words _ => .ok (written.erase "--")
  | .command label choices =>
    let chosen := written.headD ""
    if choices.contains chosen then .ok written
    else
      let known := ", ".intercalate (choices.map Text.quoted)
      .error (.misuse form
        s!"argument {label}: invalid choice: {Text.quoted chosen} (choose from {known})")

/-- The second pass. -/
def collect (keepsDashes : Bool) (form : Form) (arguments : Arguments) (items : List Item) :
    Except Stop Arguments :=
  match items with
  | [] => .ok arguments
  | .option ⟨written, none, _⟩ :: rest =>
    collect keepsDashes form { arguments with strays := arguments.strays ++ [written] } rest
  | .option ⟨_, some (flag, spelling), attached⟩ :: rest =>
    match useOption form flag spelling attached rest with
    | .error stop => .error stop
    | .ok use =>
      match use.uses.foldlM (Options.apply keepsDashes form) arguments.options with
      | .error stop => .error stop
      | .ok options => collect keepsDashes form { arguments with options } (rest.drop use.taken)
  | first :: rest =>
    let run := first :: rest.takeWhile (!Item.isOption ·)
    let later := rest.dropWhile (!Item.isOption ·)
    let wanted := if arguments.words.isNone && run.any Item.isWord then form.operand else none
    match wanted with
    | some (.command label choices) =>
      (operandWords form (.command label choices) (first :: rest)).map fun words =>
        { arguments with words := some words }
    | some (.words label) =>
      match operandWords form (.words label) run with
      | .error stop => .error stop
      | .ok words => collect keepsDashes form { arguments with words := some words } later
    | none =>
      collect keepsDashes form
        { arguments with strays := arguments.strays ++ run.map Item.written } later
termination_by items.length
decreasing_by
  · simp only [List.length_cons]
    omega
  · simp only [List.length_drop, List.length_cons]
    omega
  all_goals
    have shorter := (List.dropWhile_sublist (!Item.isOption ·) (l := rest)).length_le
    simp only [List.length_cons]
    omega

/-- Reads the arguments of a form. -/
def Form.read (form : Form) (keepsDashes : Bool) (arguments : List String) :
    Except Stop Arguments := do
  let items ← itemise form arguments
  let collected ← collect keepsDashes form {} items
  match form.operand, collected.words with
  | some operand, none =>
    .error (.misuse form s!"the following arguments are required: {operand.label}")
  | _, _ => .ok collected

end DiceNotation.CommandLine
