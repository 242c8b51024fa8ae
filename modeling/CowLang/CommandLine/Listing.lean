import CowLang.Execution
/-!
# Listings of programs

A listing has one line for each token: its index, spelling, code, brainfuck command, place in the
source and partner.
-/

namespace CowLang.CommandLine

/-- A text moved to the right end of a column. -/
def padLeft (width : Nat) (text : String) : String :=
  String.ofList (List.replicate (width - text.length) ' ') ++ text

/-- The partner of a token, as a listing shows it. -/
def partnerText : Option Nat → String
  | some partner => s!"-> {partner}"
  | none => ""

/-- The line of one token. -/
def listingLine (loops : LoopTable) (token : Token) (index : Nat) : String :=
  let i := token.instruction
  let command := String.singleton (i.brainfuck?.getD ' ')
  String.intercalate "  "
    [padLeft 6 (Nat.repr index), i.spelling, padLeft 2 (Nat.repr i.code), command,
      s!"{token.span.line}:{token.span.column}", partnerText (loops.target? index)]

/-- The listing of a program, each line ended by a newline. -/
def listing (x : Executable) : String :=
  String.join (x.program.tokens.toList.zipIdx.map fun (token, index) =>
    listingLine x.loops token index ++ "\n")

end CowLang.CommandLine
