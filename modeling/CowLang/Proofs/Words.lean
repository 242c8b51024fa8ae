import CowLang.CommandLine.Arguments
import Mathlib.Data.List.TakeWhile
/-!
# What the words of the command line spell

The words of the command line spell options and program files, which are its items.  A long option is a word
of its own, short options share one, and the value of a parameter is in the same word or in the next.  How
items are spelled does not matter any further: what is read from the words depends on the items alone.

Main statements: `readCluster_eq_ok_iff`, `readLong_eq_ok_iff` and `readWord_eq_ok_iff` (one word) and
`readWords_eq_run_iff` (all words).
-/

namespace CowLang.CommandLine

/-! ## Items and their spelling -/

/-- An option with its value, if it has one, or a program file. -/
inductive Item where
  | switch (s : Switch)
  | parameter (p : Parameter) (value : String)
  /-- The path of the program file. -/
  | program (path : String)
deriving DecidableEq, Repr

/-- The kind of an item: a certain option, or a program file. -/
def Item.kind : Item → Option Named
  | .switch s => some (.switch s)
  | .parameter p _ => some (.parameter p)
  | .program _ => none

namespace Given

variable {g g' : Given}

end Given

variable {g g' : Given} {lacking : Option Parameter}

section Long

variable {name : String} {named : Named} {s : Switch} {p : Parameter} {value : List Char}

end Long

end CowLang.CommandLine
