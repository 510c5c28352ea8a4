import LoadBridge.Text.Blank

/-!
# Command — Arguments

The words of a command line: a command and its options.  An option is written long (`--out dir`,
`--out=dir`) or, where it has a letter, short (`-o dir`, `-odir`, `-o=dir`), and several letters
may stand behind one hyphen.  An option is given once, and a value is never empty.
-/

namespace LoadBridge

/-- The commands. -/
inductive CommandName where
  | list
  | check
  | generate
  deriving DecidableEq, Inhabited

/-- The options. -/
inductive CommandOption where
  | verbose
  | help
  | version
  | symbols
  | config
  | out
  | json
  deriving DecidableEq, Inhabited

/-- What is wrong with a command line. -/
inductive UsageError where
  | noCommand
  | unknownCommand (word : String)
  | unknownOption (word : String)
  | unexpectedWord (word : String)
  | unexpectedValue (option : CommandOption)
  | missingValue (option : CommandOption)
  | repeated (option : CommandOption)
  | missing (option : CommandOption)
  deriving DecidableEq

/-- What is run. -/
inductive Invocation where
  /-- List the classes and functions of a symbol table. -/
  | list (symbols : String) (asJson : Bool)
  /-- Report what a configuration would load. -/
  | check (symbols config : String)
  /-- Write the generated files into a directory. -/
  | generate (symbols config out : String)
  deriving DecidableEq, Inhabited

/-- Why nothing is run. -/
inductive NoInvocation where
  | misuse (error : UsageError)
  | showHelp
  | showVersion
  deriving DecidableEq

def CommandName.text : CommandName → String
  | .list => "list"
  | .check => "check"
  | .generate => "generate"

namespace CommandOption

/-- The long spelling, without its hyphens. -/
def text : CommandOption → String
  | .verbose => "verbose"
  | .help => "help"
  | .version => "version"
  | .symbols => "symbols"
  | .config => "config"
  | .out => "out"
  | .json => "json"

/-- The letter of the short spelling. -/
def letter? : CommandOption → Option Char
  | .verbose => some 'v'
  | .help => some 'h'
  | .version => some 'V'
  | .out => some 'o'
  | _ => none

/-- Whether a value follows. -/
def takesValue : CommandOption → Bool
  | .symbols | .config | .out => true
  | _ => false

end CommandOption

/-- The options that may stand before the command. -/
def commonOptions : List CommandOption := [.verbose, .help, .version]

/-- The options of a command. -/
def CommandName.options : CommandName → List CommandOption
  | .list => [.symbols, .json, .verbose, .help]
  | .check => [.symbols, .config, .verbose, .help]
  | .generate => [.symbols, .config, .out, .verbose, .help]

def UsageError.message : UsageError → String
  | .noCommand => "a command is required"
  | .unknownCommand word => "unrecognized command '" ++ word ++ "'"
  | .unknownOption word => "unexpected option '" ++ word ++ "'"
  | .unexpectedWord word => "unexpected argument '" ++ word ++ "'"
  | .unexpectedValue o => "option '--" ++ o.text ++ "' takes no value"
  | .missingValue o => "option '--" ++ o.text ++ "' needs a value"
  | .repeated o => "option '--" ++ o.text ++ "' cannot be used multiple times"
  | .missing o => "option '--" ++ o.text ++ "' is required"

/-! ### Options -/

/-- The options that were given, with their values. -/
abbrev GivenOptions : Type := List (CommandOption × String)

namespace GivenOptions

/-- Notes an option that takes a value. -/
def note (given : GivenOptions) (o : CommandOption) (value : String) :
    Except NoInvocation GivenOptions :=
  if (given.lookup o).isSome then .error (.misuse (.repeated o))
  else if value.isEmpty then .error (.misuse (.missingValue o))
  else .ok (given ++ [(o, value)])

/-- Notes an option without a value.  A call for help or for the version ends the reading. -/
def noteFlag (given : GivenOptions) (o : CommandOption) : Except NoInvocation GivenOptions :=
  match o with
  | .help => .error .showHelp
  | .version => .error .showVersion
  | o =>
    if (given.lookup o).isSome then .error (.misuse (.repeated o)) else .ok (given ++ [(o, "")])

def value? (given : GivenOptions) (o : CommandOption) : Option String := given.lookup o

/-- The value of an option that must be given. -/
def required (given : GivenOptions) (o : CommandOption) : Except NoInvocation String :=
  match given.lookup o with
  | some value => .ok value
  | none => .error (.misuse (.missing o))

end GivenOptions

/-- Reads `--name` or `--name=value`, given what follows the hyphens.  Answers the option that
waits for a value, too. -/
def readLong (known : List CommandOption) (given : GivenOptions) (cs : List Char) :
    Except NoInvocation (GivenOptions × Option CommandOption) :=
  let name := String.ofList (cs.takeWhile (· != '='))
  match known.find? fun o => o.text == name, cs.dropWhile (· != '=') with
  | none, _ => .error (.misuse (.unknownOption ("--" ++ name)))
  | some o, [] =>
    if o.takesValue then .ok (given, some o) else (given.noteFlag o).map fun given => (given, none)
  | some o, _ :: value =>
    if o.takesValue then (given.note o (.ofList value)).map fun given => (given, none)
    else .error (.misuse (.unexpectedValue o))

/-- Reads the letters behind one hyphen.  What follows the letter of an option that takes a value
is that value. -/
def readLetters (known : List CommandOption) (given : GivenOptions) :
    List Char → Except NoInvocation (GivenOptions × Option CommandOption)
  | [] => .ok (given, none)
  | c :: rest =>
    match known.find? fun o => o.letter? == some c with
    | none => .error (.misuse (.unknownOption (.ofList ['-', c])))
    | some o =>
      if o.takesValue then
        match rest with
        | [] => .ok (given, some o)
        | '=' :: value => (given.note o (.ofList value)).map fun given => (given, none)
        | value => (given.note o (.ofList value)).map fun given => (given, none)
      else do readLetters known (← given.noteFlag o) rest

/-- Whether a word is written as an option.  A hyphen alone is not. -/
def isOption (word : String) : Bool := Text.startsWith word "-" && word != "-"

/-- The word after which no option follows. -/
def endOfOptions : String := "--"

/-- Reads options up to the first word that is none.  `waiting` is the option that the next word
is the value of. -/
def readOptions (known : List CommandOption) (waiting : Option CommandOption)
    (given : GivenOptions) : List String → Except NoInvocation (GivenOptions × List String)
  | [] =>
    match waiting with
    | some o => .error (.misuse (.missingValue o))
    | none => .ok (given, [])
  | word :: rest =>
    match waiting with
    | some o =>
      if isOption word then .error (.misuse (.missingValue o))
      else do readOptions known none (← given.note o word) rest
    | none =>
      if !isOption word || word == endOfOptions then .ok (given, word :: rest)
      else do
        let (given, waiting) ←
          match word.toList with
          | '-' :: '-' :: cs => readLong known given cs
          | cs => readLetters known given (cs.drop 1)
        readOptions known waiting given rest

/-! ### Command lines -/

/-- Accepts what follows the options of a command: nothing but the end of options. -/
def acceptEnd : List String → Except NoInvocation Unit
  | [] => .ok ()
  | word :: rest =>
    if word = endOfOptions then
      match rest with
      | [] => .ok ()
      | extra :: _ => .error (.misuse (.unexpectedWord extra))
    else .error (.misuse (.unexpectedWord word))

/-- The word that asks for help in place of a command. -/
def helpWord : String := "help"

def CommandName.ofText? (word : String) : Option CommandName :=
  [CommandName.list, .check, .generate].find? fun c => c.text == word

/-- Reads what follows a call for help: at most the name of a command. -/
def readHelp : List String → NoInvocation
  | [] => .showHelp
  | word :: rest =>
    if word = helpWord ∨ (CommandName.ofText? word).isSome then
      match rest with
      | [] => .showHelp
      | extra :: _ => .misuse (.unknownCommand extra)
    else .misuse (.unknownCommand word)

namespace Invocation

/-- The file of the configuration, where none is given. -/
def defaultConfig : String := "dlwrap.toml"

/-- The directory of the output, where none is given. -/
def defaultOut : String := "dlwrap-out"

/-- The invocation of a command with these options. -/
def ofOptions (command : CommandName) (given : GivenOptions) : Except NoInvocation Invocation := do
  let symbols ← given.required .symbols
  let config := (given.value? .config).getD defaultConfig
  match command with
  | .list => pure (.list symbols (given.value? .json).isSome)
  | .check => pure (.check symbols config)
  | .generate => pure (.generate symbols config ((given.value? .out).getD defaultOut))

/-- Reads the words of a command line. -/
def parse (words : List String) : Except NoInvocation Invocation := do
  match ← readOptions commonOptions none [] words with
  | (_, []) => .error (.misuse .noCommand)
  | (_, word :: rest) =>
    if word = endOfOptions then
      acceptEnd (word :: rest)
      .error (.misuse .noCommand)
    else if word = helpWord then .error (readHelp rest)
    else
      match CommandName.ofText? word with
      | none => .error (.misuse (.unknownCommand word))
      | some command =>
        let (given, extra) ← readOptions command.options none [] rest
        acceptEnd extra
        ofOptions command given

end Invocation

end LoadBridge
