import CowLang.Bundled
/-!
# The arguments of the command

Arguments are read one after another, and the first one that is wrong decides.  A word that starts
with two dashes is a long option, a word with one dash is a cluster of short options, and any other
word, as well as every word after `--`, names the program file.  A parameter takes its value from
the rest of its own word or else from the next word, which then must not start with a dash.

Asking for the version or for help ends the reading at once.  What is wrong with arguments is told
apart, but without the wordings.
-/

namespace CowLang.CommandLine

/-- An option without a value. -/
inductive Switch where
  /-- Wrap around instead of failing. -/
  | permissive
  | tokens
  /-- Print the fingerprint of the output instead of the output. -/
  | fingerprint
  | verbose
  | version
  | help
deriving DecidableEq, Repr, Inhabited

/-- An option with a value. -/
inductive Parameter where
  | builtin
  | input
  /-- The path of a file with the input. -/
  | inputFile
  | config
  /-- The step budget, where 0 stands for none. -/
  | maxSteps
deriving DecidableEq, Repr, Inhabited

/-- What an option name stands for. -/
inductive Named where
  | switch (s : Switch)
  | parameter (p : Parameter)
deriving DecidableEq, Repr, Inhabited

/-- The options by their long names. -/
def longNames : List (String × Named) :=
  [("builtin", .parameter .builtin), ("input", .parameter .input),
    ("input-file", .parameter .inputFile), ("config", .parameter .config),
    ("permissive", .switch .permissive), ("max-steps", .parameter .maxSteps),
    ("tokens", .switch .tokens), ("fingerprint", .switch .fingerprint),
    ("verbose", .switch .verbose), ("help", .switch .help), ("version", .switch .version)]

/-- The options by their short names. -/
def shortNames : List (Char × Named) :=
  [('b', .parameter .builtin), ('i', .parameter .input), ('c', .parameter .config),
    ('v', .switch .verbose), ('h', .switch .help), ('V', .switch .version)]

/-- What is wrong with the arguments. -/
inductive UsageError where
  | unknownOption (name : String)
  | missingValue (p : Parameter)
  | unwantedValue (s : Switch)
  /-- A parameter has a value that it cannot have. -/
  | invalidValue (p : Parameter) (value : String)
  /-- The path of the program is empty. -/
  | emptyPath
  | repeatedParameter (p : Parameter)
  | repeatedSwitch (s : Switch)
  | secondProgram (path : String)
  | noProgram
  | bothPrograms
  | bothInputs
deriving DecidableEq, Repr, Inhabited

/-- The options that have been met so far. -/
structure Given where
  program : Option String := none
  builtin : Option Bundled := none
  input : Option String := none
  /-- The path of the input file. -/
  inputFile : Option String := none
  configFile : Option String := none
  /-- Whether the pointer and the cells wrap around. -/
  permissive : Bool := false
  /-- The step budget, where 0 stands for none. -/
  maxSteps : Option Nat := none
  tokens : Bool := false
  /-- Whether the fingerprint of the output is printed. -/
  fingerprint : Bool := false
  verbose : Bool := false
deriving DecidableEq, Repr, Inhabited

/-- Where the program comes from. -/
inductive ProgramOrigin where
  | file (path : String)
  | bundled (program : Bundled)
deriving DecidableEq, Repr, Inhabited

/-- Where the input comes from. -/
inductive InputOrigin where
  | file (path : String)
  | text (input : String)
deriving DecidableEq, Repr, Inhabited

/-- What a run is asked to do. -/
structure Invocation where
  program : ProgramOrigin
  input : InputOrigin
  configFile : Option String
  /-- Whether the pointer and the cells wrap around. -/
  permissive : Bool
  /-- The step budget, if one is given, where 0 stands for none. -/
  maxSteps : Option Nat
  tokens : Bool
  /-- Whether the fingerprint of the output is printed. -/
  fingerprint : Bool
  verbose : Bool
deriving DecidableEq, Repr, Inhabited

/-- What the command is asked to do. -/
inductive Request where
  | run (invocation : Invocation)
  | version
  | help
deriving DecidableEq, Repr, Inhabited

/-! ## Values -/

/-- The number that decimal digits denote. -/
def digitsValue? (value : Nat) : List Char → Option Nat
  | [] => some value
  | c :: rest =>
    if '0' ≤ c ∧ c ≤ '9' then digitsValue? (value * 10 + (c.toNat - '0'.toNat)) rest else none

/-- The largest number of 64 bits. -/
def maxBudget : Nat := 0xFFFFFFFFFFFFFFFF

/-- A whole number of 64 bits, which may have a plus sign and leading zeros. -/
def budget? (value : String) : Option Nat :=
  let digits :=
    match value.toList with
    | '+' :: digits => digits
    | digits => digits
  if digits.isEmpty then none
  else (digitsValue? 0 digits).filter (· ≤ maxBudget)

/-- A path, which must not be empty. -/
def path? (value : String) : Option String :=
  if value.isEmpty then none else some value

namespace Given

/-- Whether a parameter is given. -/
def has (g : Given) : Parameter → Bool
  | .builtin => g.builtin.isSome
  | .input => g.input.isSome
  | .inputFile => g.inputFile.isSome
  | .config => g.configFile.isSome
  | .maxSteps => g.maxSteps.isSome

/-- Gives a parameter a value, if the value is possible. -/
def assign? (g : Given) (p : Parameter) (value : String) : Option Given :=
  match p with
  | .builtin => (Choice.ofName? value).map fun b => { g with builtin := some b }
  | .input => some { g with input := some value }
  | .inputFile => (path? value).map fun path => { g with inputFile := some path }
  | .config => (path? value).map fun path => { g with configFile := some path }
  | .maxSteps => (budget? value).map fun n => { g with maxSteps := some n }

/-- Gives a parameter a value for the first time. -/
def assign (g : Given) (p : Parameter) (value : String) : Except UsageError Given :=
  if g.has p then .error (.repeatedParameter p)
  else
    match g.assign? p value with
    | some g => .ok g
    | none => .error (.invalidValue p value)

/-- Names the program file. -/
def addProgram (g : Given) (path : String) : Except UsageError Given :=
  if g.program.isSome then .error (.secondProgram path)
  else if path.isEmpty then .error .emptyPath
  else .ok { g with program := some path }

/-- Where the program comes from; exactly one origin must be given. -/
def programOrigin (g : Given) : Except UsageError ProgramOrigin :=
  match g.program, g.builtin with
  | some path, none => .ok (.file path)
  | none, some program => .ok (.bundled program)
  | some _, some _ => .error .bothPrograms
  | none, none => .error .noProgram

/-- Where the input comes from; the input is empty if no origin is given. -/
def inputOrigin (g : Given) : Except UsageError InputOrigin :=
  match g.input, g.inputFile with
  | some input, none => .ok (.text input)
  | none, some path => .ok (.file path)
  | some _, some _ => .error .bothInputs
  | none, none => .ok (.text "")

/-- What all options together ask for. -/
def request (g : Given) : Except UsageError Request := do
  let program ← g.programOrigin
  let input ← g.inputOrigin
  return .run {
    program, input, configFile := g.configFile, permissive := g.permissive,
    maxSteps := g.maxSteps, tokens := g.tokens, fingerprint := g.fingerprint,
    verbose := g.verbose }

end Given

/-! ## Words -/

/-- Where the reading stands after a word. -/
inductive Reached where
  /-- The word is complete. -/
  | word (g : Given)
  /-- The word is a parameter, and its value is the next word. -/
  | wanting (p : Parameter) (g : Given)
  /-- The rest of the arguments does not matter. -/
  | answer (r : Request)
deriving DecidableEq, Repr, Inhabited

/-- Reads a switch. -/
def readSwitch (g : Given) (s : Switch) : Except UsageError Reached :=
  let turnOn (isOn : Bool) (g : Given) : Except UsageError Reached :=
    if isOn then .error (.repeatedSwitch s) else .ok (.word g)
  match s with
  | .permissive => turnOn g.permissive { g with permissive := true }
  | .tokens => turnOn g.tokens { g with tokens := true }
  | .fingerprint => turnOn g.fingerprint { g with fingerprint := true }
  | .verbose => turnOn g.verbose { g with verbose := true }
  | .version => .ok (.answer .version)
  | .help => .ok (.answer .help)

/-- Reads a long option, of which the dashes have been taken off. -/
def readLong (g : Given) (word : List Char) : Except UsageError Reached :=
  let name := String.ofList (word.takeWhile (· ≠ '='))
  match longNames.lookup name, word.dropWhile (· ≠ '=') with
  | none, _ => .error (.unknownOption name)
  | some (.switch s), [] => readSwitch g s
  | some (.switch s), _ :: _ => .error (.unwantedValue s)
  | some (.parameter p), [] => .ok (.wanting p g)
  | some (.parameter p), _ :: value => (g.assign p (String.ofList value)).map .word

/-- Reads a cluster of short options.  The first parameter in it takes the rest of the cluster as
its value. -/
def readCluster (g : Given) : List Char → Except UsageError Reached
  | [] => .ok (.word g)
  | c :: rest =>
    match shortNames.lookup c with
    | none => .error (.unknownOption (String.singleton c))
    | some (.switch s) =>
      match readSwitch g s with
      | .ok (.word g) => readCluster g rest
      | .ok reached => .ok reached
      | .error e => .error e
    | some (.parameter p) =>
      match rest with
      | [] => .ok (.wanting p g)
      | '=' :: value => (g.assign p (String.ofList value)).map .word
      | value => (g.assign p (String.ofList value)).map .word

/-- Whether a word cannot be the value of the parameter before it. -/
def looksLikeOption (word : String) : Bool :=
  match word.toList with
  | '-' :: _ :: _ => true
  | _ => false

/-- Reads words that can only be program files. -/
def readPrograms (g : Given) : List String → Except UsageError Given
  | [] => .ok g
  | word :: rest =>
    match g.addProgram word with
    | .ok g => readPrograms g rest
    | .error e => .error e

/-- Reads one word that stands by itself. -/
def readWord (g : Given) (word : String) : Except UsageError Reached :=
  match word.toList with
  | '-' :: '-' :: name => readLong g name
  | '-' :: c :: cluster => readCluster g (c :: cluster)
  | _ => (g.addProgram word).map .word

/-- Reads all words. -/
def readWords (g : Given) : List String → Except UsageError Request
  | [] => g.request
  | word :: rest =>
    if word = "--" then (readPrograms g rest).bind Given.request
    else
      match readWord g word with
      | .error e => .error e
      | .ok (.answer r) => .ok r
      | .ok (.word g) => readWords g rest
      | .ok (.wanting p g) =>
        match rest with
        | [] => .error (.missingValue p)
        | value :: rest =>
          if looksLikeOption value then .error (.missingValue p)
          else
            match g.assign p value with
            | .ok g => readWords g rest
            | .error e => .error e

/-- Reads the arguments of the command. -/
def read (args : List String) : Except UsageError Request :=
  readWords {} args

end CowLang.CommandLine
