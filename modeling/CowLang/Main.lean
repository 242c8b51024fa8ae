import CowLang.CommandLine.Plan
/-!
# The command

The outer layer: it reads the files that the arguments name, makes the run in slices between two
looks at the clock, and prints the outcome.  The help and complaints about the arguments have no
texts here, so that only their exit status can be seen.
-/

namespace CowLang.CommandLine

/-- A complaint of the operating system. -/
def systemError : IO.Error → FileError
  | .noFileOrDirectory _ number description => .system description number.toNat
  | .permissionDenied _ number description => .system description number.toNat
  | .inappropriateType _ number description => .system description number.toNat
  | .invalidArgument _ number description => .system description number.toNat
  | .noSuchThing _ number description => .system description number.toNat
  | .resourceExhausted _ number description => .system description number.toNat
  | .hardwareFault number description => .system description number.toNat
  | .illegalOperation number description => .system description number.toNat
  | .unsupportedOperation number description => .system description number.toNat
  | .otherError number description => .system description number.toNat
  | e => .system (toString e) 0

/-- What the file system says about a path. -/
def viewFile (path : String) : IO FileView := do
  match ← (IO.FS.Handle.mk path .read).toBaseIO with
  | .error e => return .closed (systemError e)
  | .ok handle =>
    match ← handle.readBinToEnd.toBaseIO with
    | .error e => return .unreadable (systemError e)
    | .ok bytes => return .contents bytes

/-- The views of all files that an invocation may read. -/
def viewFiles (args : List String) : IO (List (String × FileView)) :=
  match read args with
  | .ok (.run i) => i.paths.mapM fun path => return (path, ← viewFile path)
  | _ => return []

/-- Makes the run, looking at the clock once in a slice. -/
partial def runJob (j : Job) (started : Nat) (s : State) : IO Outcome := do
  let elapsed := (← IO.monoNanosNow) - started
  let progress := j.advance (fun _ => elapsed) Executable.deadlineInterval s
  match progress, j.outcome? progress with
  | _, some outcome => return outcome
  | .running s, none => runJob j started s
  | _, none => return .misuse

end CowLang.CommandLine

open CowLang.CommandLine in
/-- Runs the command on its arguments. -/
def main (args : List String) : IO UInt32 := do
  let views ← viewFiles args
  let files (path : String) := (views.lookup path).getD (.closed .missing)
  let outcome ←
    match plan files args with
    | .done outcome => pure outcome
    | .help => pure (.success "")
    | .job j => do runJob j (← IO.monoNanosNow) j.initial
  (← IO.getStdout).putStr outcome.stdout
  match outcome.errorLine with
  | some line => IO.eprintln line
  | none => pure ()
  return outcome.exit.toUInt32
