import StaticSite.Text.Numeral

/-!
# Command line requests

The words of a command line are read from left to right.  Options may stand anywhere behind
their command, `--` ends them, and asking for help or the version ends the reading at once.
-/

namespace StaticSite.CommandLine

/-- What the tool is asked to do.  A missing path is filled in from the surroundings. -/
inductive Command where
  | create (name : Text) (force : Bool)
  | build (path : Option Text) (json : Bool)
  | status (path : Option Text) (json : Bool)
  | deleteInclude (file : Text) (index : Nat) (path : Option Text)
  | insertInclude (file page : Text) (path : Option Text)
  deriving DecidableEq, Repr

/-- A command and whether it tells what it does. -/
structure Request where
  verbose : Bool
  command : Command
  deriving DecidableEq, Repr

/-- Why there is nothing to run. -/
inductive Stop where
  | help
  | version
  | usage
  deriving DecidableEq, Repr

/-- An option without a value. -/
structure Flag where
  long : Text
  short : Option Char
  deriving DecidableEq, Repr

/-- A number in decimal digits, with an optional plus sign, that fits 64 bits. -/
def index? (text : Text) : Option Nat :=
  let digits := match text with
    | '+' :: rest => rest
    | _ => text
  if digits ≠ [] && digits.all Numeral.isDigit && Numeral.value 10 digits < UInt64.size then
    some (Numeral.value 10 digits)
  else none

/-- What an operand has to be. -/
inductive OperandKind where
  | word
  | index
  deriving DecidableEq, Repr

/-- Whether a text can be an operand of a kind. -/
def OperandKind.accepts : OperandKind → Text → Bool
  | word, _ => true
  | index, text => (index? text).isSome

/-- The options and operands that a command takes. -/
structure Grammar where
  flags : List Flag
  takesPath : Bool
  operands : List OperandKind

/-- The words of a command, sorted. -/
structure Words where
  flags : List Flag := []
  path : Option Text := none
  operands : List Text := []

/-- The flag that every command takes. -/
def verboseFlag : Flag := ⟨"verbose".toList, some 'v'⟩

/-- The flag that replaces what is there. -/
def forceFlag : Flag := ⟨"force".toList, some 'f'⟩

/-- The flag that asks for JSON. -/
def jsonFlag : Flag := ⟨"json".toList, none⟩

namespace Words

/-- Adds a flag, which may be given once. -/
def addFlag (words : Words) (flag : Flag) : Except Stop Words :=
  if flag ∈ words.flags then .error .usage else .ok { words with flags := flag :: words.flags }

/-- Adds the project path, which may be given once and is not empty. -/
def addPath (words : Words) (path : Text) : Except Stop Words :=
  if words.path.isSome || path.isEmpty then .error .usage
  else .ok { words with path := some path }

/-- Adds an operand, if another one of its kind is due. -/
def addOperand (grammar : Grammar) (words : Words) (operand : Text) : Except Stop Words :=
  match grammar.operands[words.operands.length]? with
  | none => .error .usage
  | some kind =>
      if kind.accepts operand then .ok { words with operands := words.operands ++ [operand] }
      else .error .usage

/-- Adds short flags that stand together behind one dash. -/
def addShort (grammar : Grammar) (version : Bool) (words : Words) : Text → Except Stop Words
  | [] => .ok words
  | c :: rest =>
      if c = 'h' then .error .help
      else if version && c = 'V' then .error .version
      else match grammar.flags.find? (·.short = some c) with
        | none => .error .usage
        | some flag => do addShort grammar version (← words.addFlag flag) rest

/-- Adds a long flag without a value. -/
def addLong (grammar : Grammar) (version : Bool) (words : Words) (name : Text) :
    Except Stop Words :=
  if name = "help".toList then .error .help
  else if version && name = "version".toList then .error .version
  else match grammar.flags.find? (·.long = name) with
    | none => .error .usage
    | some flag => words.addFlag flag

end Words

/-- What a word is, as long as `--` has not been met. -/
inductive Word where
  | terminator
  | long (name : Text)
  | valued (name value : Text)
  | short (letters : Text)
  | operand (text : Text)
  deriving DecidableEq, Repr

/-- The form of a word.  A single dash is an operand. -/
def Word.ofText : Text → Word
  | ['-', '-'] => terminator
  | '-' :: '-' :: rest =>
      match Text.cut ['='] rest with
      | some (name, value) => valued name value
      | none => long rest
  | '-' :: c :: rest => short (c :: rest)
  | text => operand text

/-- Adds words that are operands whatever they look like. -/
def readOperands (grammar : Grammar) (words : Words) (rest : List Text) : Except Stop Words :=
  rest.foldlM (Words.addOperand grammar) words

/-- Reads the words of a command that has no subcommands. -/
def readWords (grammar : Grammar) (words : Words) : List Text → Except Stop Words
  | [] => .ok words
  | word :: rest =>
      match Word.ofText word with
      | .terminator => readOperands grammar words rest
      | .operand text => do readWords grammar (← words.addOperand grammar text) rest
      | .short letters => do readWords grammar (← words.addShort grammar false letters) rest
      | .valued name value =>
          if grammar.takesPath && name = "path".toList then do
            readWords grammar (← words.addPath value) rest
          else .error .usage
      | .long name =>
          if grammar.takesPath && name = "path".toList then
            match rest with
            | [] => .error .usage
            | value :: rest =>
                match Word.ofText value with
                | .operand path => do readWords grammar (← words.addPath path) rest
                | _ => .error .usage
          else do readWords grammar (← words.addLong grammar false name) rest

/-- The words in front of a subcommand: the subcommand and the words behind it. -/
def readGroup (version : Bool) (words : Words) : List Text → Except Stop (Words × Text × List Text)
  | [] => .error .usage
  | word :: rest =>
      let grammar : Grammar := ⟨[verboseFlag], false, []⟩
      match Word.ofText word with
      | .operand text => .ok (words, text, rest)
      | .short letters => do readGroup version (← words.addShort grammar version letters) rest
      | .long name => do readGroup version (← words.addLong grammar version name) rest
      | .valued .. | .terminator => .error .usage

/-- The project path of a command: the one given, or else the one in the surroundings, which is
not empty. -/
def projectPath (preset : Option Text) (words : Words) : Except Stop (Option Text) :=
  match words.path, preset with
  | some path, _ => .ok (some path)
  | none, some [] => .error .usage
  | none, some path => .ok (some path)
  | none, none => .ok none

/-- What a request for help may be about. -/
def readTopics : List Text → Stop
  | [] => .help
  | [topic] =>
      if ["new", "build", "status", "block", "help"].any (·.toList = topic) then .help else .usage
  | [group, topic] =>
      if group = "block".toList ∧ ["delete", "insert", "help"].any (·.toList = topic) then .help
      else .usage
  | _ => .usage

/-- Reads the words behind `block`. -/
def readBlock (preset : Option Text) (verbose : Bool) (rest : List Text) :
    Except Stop Request := do
  let (words, name, rest) ← readGroup false {} rest
  let verbose := verbose || words.flags.contains verboseFlag
  if name = "help".toList then .error (readTopics ("block".toList :: rest))
  else if name = "delete".toList then
    let words ← readWords ⟨[verboseFlag], true, [.word, .index]⟩ {} rest
    let verbose := verbose || words.flags.contains verboseFlag
    match words.operands with
    | [file, number] =>
        match index? number with
        | some index =>
            .ok ⟨verbose, .deleteInclude file index (← projectPath preset words)⟩
        | none => .error .usage
    | _ => .error .usage
  else if name = "insert".toList then
    let words ← readWords ⟨[verboseFlag], true, [.word, .word]⟩ {} rest
    let verbose := verbose || words.flags.contains verboseFlag
    match words.operands with
    | [file, page] => .ok ⟨verbose, .insertInclude file page (← projectPath preset words)⟩
    | _ => .error .usage
  else .error .usage

/-- Reads a command line.  `preset` is the project path that the surroundings give. -/
def read (preset : Option Text) (arguments : List Text) : Except Stop Request := do
  let (words, name, rest) ← readGroup true {} arguments
  let verbose := words.flags.contains verboseFlag
  if name = "help".toList then .error (readTopics rest)
  else if name = "new".toList then
    let words ← readWords ⟨[verboseFlag, forceFlag], false, [.word]⟩ {} rest
    match words.operands with
    | [site] =>
        .ok ⟨verbose || words.flags.contains verboseFlag,
          .create site (words.flags.contains forceFlag)⟩
    | _ => .error .usage
  else if name = "build".toList then
    let words ← readWords ⟨[verboseFlag, jsonFlag], true, []⟩ {} rest
    .ok ⟨verbose || words.flags.contains verboseFlag,
      .build (← projectPath preset words) (words.flags.contains jsonFlag)⟩
  else if name = "status".toList then
    let words ← readWords ⟨[verboseFlag, jsonFlag], true, []⟩ {} rest
    .ok ⟨verbose || words.flags.contains verboseFlag,
      .status (← projectPath preset words) (words.flags.contains jsonFlag)⟩
  else if name = "block".toList then readBlock preset verbose rest
  else .error .usage

end StaticSite.CommandLine
