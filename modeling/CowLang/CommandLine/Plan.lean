import CowLang.CommandLine.Arguments
import CowLang.CommandLine.Listing
import CowLang.Fingerprint
/-!
# What the command does

The command goes through its phases in a fixed order and stops at the first that fails: the
configuration, the program text, the listing where one is asked for, the input, the pairing of
loops, and the run.  All phases before the run together make a `Plan`: the command is done, or a
job is left that only has to be run and reported on.
-/

namespace CowLang.CommandLine

/-- What a user sees of the command when it has ended. -/
structure Outcome where
  exit : Nat
  stdout : String
  /-- The line that says what went wrong, if something did. -/
  errorLine : Option String
deriving DecidableEq, Repr, Inhabited

namespace Outcome

/-- All went well. -/
def success (stdout : String) : Outcome := ⟨0, stdout, none⟩

/-- A phase failed; nothing is printed then. -/
def failure (e : Error) : Outcome := ⟨1, "", some ("Error: " ++ e.message)⟩

/-- The arguments make no sense. -/
def misuse : Outcome := ⟨2, "", none⟩

end Outcome

/-- A run that is left to be made. -/
structure Job where
  executable : Executable
  /-- How it is to be run. -/
  config : Config
  input : String
  /-- Whether the fingerprint of the output is wanted. -/
  fingerprint : Bool

/-- What is left to do. -/
inductive Plan where
  | done (outcome : Outcome)
  /-- The help is wanted, whose text is left out here. -/
  | help
  /-- A run is left to be made. -/
  | job (job : Job)

/-- The line that `--version` prints. -/
def versionText : String := "cowtape 0.1.0\n"

/-- The paths of the files that an invocation may read.  A listing reads no input. -/
def Invocation.paths (i : Invocation) : List String :=
  let program :=
    match i.program with
    | .file path => [path]
    | .bundled _ => []
  let input :=
    match i.tokens, i.input with
    | false, .file path => [path]
    | false, .text _ => []
    | true, _ => []
  i.configFile.toList ++ program ++ input

/-! ## The phases -/

/-- The configuration that a file describes, or the usual one if there is no file. -/
def loadConfig (files : String → FileView) : Option String → Except Error Config
  | none => .ok .standard
  | some path =>
    match files path with
    | .closed e => .error (.file e)
    | .unreadable e => .error (.config (.unreadable e))
    | .contents bytes =>
      match Config.ofBytes bytes with
      | .ok config => .ok config
      | .error e => .error (.config e)

/-- The configuration after the options on the command line, which have the last word. -/
def Invocation.adjust (i : Invocation) (config : Config) : Config :=
  let config := if i.permissive then config.withWraparound else config
  match i.maxSteps with
  | some 0 => { config with maxSteps := none }
  | some (n + 1) => { config with maxSteps := some (n + 1) }
  | none => config

/-- The configuration of a run. -/
def Invocation.effectiveConfig (i : Invocation) (files : String → FileView) :
    Except Error Config := do
  let config ← loadConfig files i.configFile
  match (i.adjust config).validate with
  | .ok config => return config
  | .error defect => .error (.config (.defect defect))

/-- The text of a file. -/
def loadText (files : String → FileView) (path : String) : Except Error String :=
  match (files path).text with
  | .ok text => .ok text
  | .error e => .error (.file e)

/-- The text of the program. -/
def Invocation.source (i : Invocation) (files : String → FileView) : Except Error String :=
  match i.program with
  | .file path => loadText files path
  | .bundled program => .ok program.source

/-- The input of the program. -/
def Invocation.inputText (i : Invocation) (files : String → FileView) : Except Error String :=
  match i.input with
  | .file path => loadText files path
  | .text input => .ok input

/-- The program, made ready to run. -/
def prepare (source : String) : Except Error Executable :=
  match Executable.ofSource source with
  | .ok x => .ok x
  | .error e => .error (.loops e)

/-- All phases before the run. -/
def Invocation.phases (i : Invocation) (files : String → FileView) : Except Error Plan := do
  let config ← i.effectiveConfig files
  let source ← i.source files
  if i.tokens then
    let x ← prepare source
    return .done (.success (listing x))
  else
    let input ← i.inputText files
    let x ← prepare source
    return .job ⟨x, config, input, i.fingerprint⟩

/-- What an invocation leaves to do. -/
def Invocation.plan (i : Invocation) (files : String → FileView) : Plan :=
  match i.phases files with
  | .ok plan => plan
  | .error e => .done (.failure e)

/-- What the arguments leave to do. -/
def plan (files : String → FileView) (args : List String) : Plan :=
  match read args with
  | .error _ => .done .misuse
  | .ok .version => .done (.success versionText)
  | .ok .help => .help
  | .ok (.run i) => i.plan files

/-! ## The run and its report -/

/-- The line about the fingerprint of an output. -/
def fingerprintLine (output : String) : String :=
  match Fingerprint.ofOutput? output with
  | some f => s!"byte: {f.byte}, hue: {f.hue}, face: {f.face}, color: {f.css}"
  | none => "no output, default color: " ++ Fingerprint.default.css

namespace Job

/-- The state in which the run starts. -/
def initial (j : Job) : State :=
  Executable.initial j.config j.input

/-- Makes up to `count` steps of the run. -/
def advance (j : Job) (clock : Clock) (count : Nat) (s : State) : Progress :=
  j.executable.advance j.config clock count s

/-- The report on a finished run. -/
def success (j : Job) (m : Machine) : Outcome :=
  .success ((if j.fingerprint then fingerprintLine m.output else m.output) ++ "\n")

/-- The outcome, if the run has ended. -/
def outcome? (j : Job) : Progress → Option Outcome
  | .running _ => none
  | .finished m => some (j.success m)
  | .failed fault => some (.failure (.fault fault))

end Job

/-- The outcome of the command, if its run ends within `count` steps.  That of the help is left
open. -/
def outcome? (files : String → FileView) (clock : Clock) (args : List String) (count : Nat) :
    Option Outcome :=
  match plan files args with
  | .done outcome => some outcome
  | .help => none
  | .job j => j.outcome? (j.advance clock count j.initial)

end CowLang.CommandLine
