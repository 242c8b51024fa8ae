import CowLang.Config
import CowLang.File
import CowLang.Json.Value
/-!
# Reading configurations

A configuration is written as a JSON object whose keys name the settings, in any order, or as an
array that gives the settings by position.  A setting that is not given has a default, unknown keys
are passed over, and a key may be given only once.  The configuration must be free of defects.
-/

namespace CowLang

namespace Config

open Json

/-- The settings by the keys under which a text gives them. -/
inductive Key where
  | tapeLen
  | pointerPolicy
  | underflowPolicy
  | overflowPolicy
  | registerMode
  | maxSteps
  | timeout
deriving DecidableEq, Repr, Inhabited

instance : Choice Key where
  all := [.tapeLen, .pointerPolicy, .underflowPolicy, .overflowPolicy, .registerMode, .maxSteps,
    .timeout]
  name
    | .tapeLen => "tape_len"
    | .pointerPolicy => "pointer_policy"
    | .underflowPolicy => "underflow_policy"
    | .overflowPolicy => "overflow_policy"
    | .registerMode => "register_mode"
    | .maxSteps => "max_steps"
    | .timeout => "timeout_ms"

/-- The settings that a text gives. -/
structure Settings where
  tapeLen : Option Nat := none
  pointerPolicy : Option PointerPolicy := none
  underflowPolicy : Option UnderflowPolicy := none
  overflowPolicy : Option OverflowPolicy := none
  registerMode : Option RegisterMode := none
  /-- The step budget, if given; it may be given as none at all. -/
  maxSteps : Option (Option Nat) := none
  /-- The time limit, if given; it may be given as none at all. -/
  timeout : Option (Option Duration) := none
deriving DecidableEq, Repr, Inhabited

namespace Settings

/-- Whether a setting is given. -/
def has (s : Settings) : Key → Bool
  | .tapeLen => s.tapeLen.isSome
  | .pointerPolicy => s.pointerPolicy.isSome
  | .underflowPolicy => s.underflowPolicy.isSome
  | .overflowPolicy => s.overflowPolicy.isSome
  | .registerMode => s.registerMode.isSome
  | .maxSteps => s.maxSteps.isSome
  | .timeout => s.timeout.isSome

/-- The configuration that the settings describe.  Every setting that is not given has a default of
its own. -/
def toConfig (s : Settings) : Config where
  tapeLen := s.tapeLen.getD defaultTapeLen
  pointerPolicy := s.pointerPolicy.getD default
  underflowPolicy := s.underflowPolicy.getD default
  overflowPolicy := s.overflowPolicy.getD default
  registerMode := s.registerMode.getD default
  maxSteps := s.maxSteps.getD defaultMaxSteps
  timeout := s.timeout.getD none

end Settings

/-! ## The values of settings -/

/-- Looks up a name, from behind which the text is left, among those that can be chosen. -/
def choose {α : Type} [Choice α] (name : String) (rest : List Symbol) : Except Stop α :=
  match Choice.ofName? name with
  | some value => .ok value
  | none => .error ⟨.unknownName name ((Choice.all : List α).map Choice.name), .after 0 rest⟩

/-- Reads a choice from after the opening brace of an object, whose only member has the name as key
and no value. -/
def readChosenMember {α : Type} [Choice α] : Reader α := fun text =>
  match skipBlanks text with
  | [] => .error ⟨.endOfObject, .last⟩
  | .char '\x7d' :: rest => .error ⟨.expectedValue, .after 0 rest⟩
  | .char '"' :: rest => do
    let (name, rest) ← readString rest
    let value ← choose name rest
    let rest ← skipColon rest
    let rest ← skipNull "unit" rest
    match skipBlanks rest with
    | .char '\x7d' :: rest => return (value, rest)
    | [] => .error ⟨.endOfObject, .last⟩
    | rest => .error ⟨.expectedValue, .facing rest⟩
  | rest => .error ⟨.keyNotString, .after 1 rest⟩

/-- Reads a choice: a name, or an object whose only member has the name as key and no value. -/
def readChoice {α : Type} [Choice α] : Reader α := fun text =>
  match skipBlanks text with
  | [] => .error ⟨.endOfValue, .last⟩
  | .char '"' :: rest => do
    let (name, rest) ← readString rest
    let value ← choose name rest
    return (value, rest)
  | .char '\x7b' :: rest => readChosenMember rest
  | rest => .error ⟨.expectedValue, .after 1 rest⟩

/-- Reads the value of a setting. -/
def readSetting (s : Settings) (key : Key) : Reader Settings := fun text =>
  match key with
  | .tapeLen => do
    let (value, rest) ← readWord "usize" text
    return ({ s with tapeLen := some value }, rest)
  | .pointerPolicy => do
    let (value, rest) ← readChoice text
    return ({ s with pointerPolicy := some value }, rest)
  | .underflowPolicy => do
    let (value, rest) ← readChoice text
    return ({ s with underflowPolicy := some value }, rest)
  | .overflowPolicy => do
    let (value, rest) ← readChoice text
    return ({ s with overflowPolicy := some value }, rest)
  | .registerMode => do
    let (value, rest) ← readChoice text
    return ({ s with registerMode := some value }, rest)
  | .maxSteps => do
    let (value, rest) ← readWord? "u64" text
    return ({ s with maxSteps := some value }, rest)
  | .timeout => do
    let (value, rest) ← readWord? "u64" text
    return ({ s with timeout := some (value.map Duration.ofMilliseconds) }, rest)

/-! ## Objects -/

/-- Where it is complained that a key is given twice: the object has ended there, or the next symbol
has been looked at. -/
def markOfDuplicate (text : List Symbol) : Mark :=
  match skipBlanks text with
  | .char '\x7d' :: rest => .after 0 rest
  | rest => .facing rest

/-- Reads a member from after its key. -/
def readMember (s : Settings) (name : String) : Reader Settings := fun text =>
  match Choice.ofName? name with
  | some key =>
    if s.has key then .error ⟨.duplicateKey name, markOfDuplicate text⟩
    else do
      let rest ← skipColon text
      readSetting s key rest
  | none => do
    let rest ← skipColon text
    let rest ← skipValue rest
    return (s, rest)

/-- Reads the members of an object from after the opening quote of a key.  Every member takes at
least one symbol, so one more than the length of the text is fuel enough. -/
def readMembers : Nat → Settings → Reader Settings
  | 0, _, _ => .error ⟨.endOfObject, .last⟩
  | fuel + 1, s, text => do
    let (name, rest) ← readString text
    let (s, rest) ← readMember s name rest
    match skipBlanks rest with
    | [] => .error ⟨.endOfObject, .last⟩
    | .char '\x7d' :: rest => return (s, rest)
    | .char ',' :: rest =>
      match skipBlanks rest with
      | [] => .error ⟨.endOfValue, .last⟩
      | .char '"' :: rest => readMembers fuel s rest
      | .char '\x7d' :: rest => .error ⟨.trailingComma, .after 0 rest⟩
      | rest => .error ⟨.keyNotString, .after 1 rest⟩
    | rest => .error ⟨.expectedObjectEnd, .after 1 rest⟩

/-- Reads an object from after its opening brace. -/
def readObject : Reader Settings := fun text =>
  match skipBlanks text with
  | [] => .error ⟨.endOfObject, .last⟩
  | .char '\x7d' :: rest => .ok ({}, rest)
  | .char '"' :: rest => readMembers (rest.length + 1) {} rest
  | rest => .error ⟨.keyNotString, .after 1 rest⟩

/-! ## Arrays -/

/-- Reads the end of an array in which every setting is given. -/
def readArrayEnd (s : Settings) : Reader Settings := fun text =>
  match skipBlanks text with
  | [] => .error ⟨.endOfList, .last⟩
  | .char ']' :: rest => .ok (s, rest)
  | .char ',' :: rest =>
    match skipBlanks rest with
    | .char ']' :: rest => .error ⟨.trailingComma, .after 0 rest⟩
    | rest => .error ⟨.trailingCharacters, .after 1 rest⟩
  | rest => .error ⟨.trailingCharacters, .after 1 rest⟩

/-- Reads the elements after the first. -/
def readElements (s : Settings) : List Key → Reader Settings
  | [], text => readArrayEnd s text
  | key :: keys, text =>
    match skipBlanks text with
    | [] => .error ⟨.endOfList, .last⟩
    | .char ']' :: rest => .ok (s, rest)
    | .char ',' :: rest =>
      match skipBlanks rest with
      | [] => .error ⟨.endOfValue, .last⟩
      | .char ']' :: rest => .error ⟨.trailingComma, .after 0 rest⟩
      | rest => do
        let (s, rest) ← readSetting s key rest
        readElements s keys rest
    | rest => .error ⟨.expectedListEnd, .after 1 rest⟩

/-- Reads an array from after its opening bracket. -/
def readArray : Reader Settings := fun text =>
  match skipBlanks text with
  | [] => .error ⟨.endOfList, .last⟩
  | .char ']' :: rest => .ok ({}, rest)
  | text => do
    let (s, rest) ← readSetting {} .tapeLen text
    readElements s (Choice.all.drop 1) rest

/-! ## Whole texts -/

/-- Reads the settings that a whole text gives. -/
def readSettings (text : List Symbol) : Except Stop Settings := do
  let (s, rest) ←
    match skipBlanks text with
    | [] => .error ⟨.endOfValue, .last⟩
    | .char '\x7b' :: rest => readObject rest
    | .char '[' :: rest => readArray rest
    | text => .error (refuse text "struct InterpreterConfig")
  match skipBlanks rest with
  | [] => return s
  | rest => .error ⟨.trailingCharacters, .after 1 rest⟩

end Config

/-- Why there is no configuration. -/
inductive ConfigError where
  /-- The configuration cannot be used. -/
  | defect (defect : Config.Defect)
  /-- A text is not a configuration. -/
  | text (error : Json.Error)
  /-- The content of a file is not a configuration. -/
  | file (error : Json.Error)
  /-- A file cannot be read. -/
  | unreadable (error : FileError)
deriving DecidableEq, Inhabited

/-- The wording of the error. -/
def ConfigError.message : ConfigError → String
  | defect d => d.message
  | text error => "Failed to parse config: " ++ error.message
  | file error => "Failed to parse config file: " ++ error.message
  | unreadable error => "Failed to parse config file: " ++ error.message

namespace Config

/-- The configuration that settings describe, if it has no defect. -/
def ofSettings (settings : Settings) : Except ConfigError Config :=
  match settings.toConfig.validate with
  | .ok config => .ok config
  | .error defect => .error (.defect defect)

/-- The configuration that a text describes. -/
def ofText (text : String) : Except ConfigError Config :=
  match readSettings (Json.Symbol.ofText text) with
  | .ok settings => ofSettings settings
  | .error stop => .error (.text (stop.inText text))

/-- The configuration that the content of a file describes. -/
def ofBytes (bytes : ByteArray) : Except ConfigError Config :=
  match readSettings (Json.Symbol.ofBytes bytes) with
  | .ok settings => ofSettings settings
  | .error stop => .error (.file (stop.inFile bytes))

end Config

end CowLang
