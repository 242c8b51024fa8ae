import CowLang.Config
/-!
# The bundled programs

Four programs come with the library and can be run by name.  The checksum is also the program
behind fingerprints.
-/

namespace CowLang

/-- A program that can be run by name. -/
inductive Bundled where
  /-- Sums up the input. -/
  | checksum
  /-- Prints a fixed text. -/
  | greeting
  /-- Prints a colour made from the input. -/
  | cardColor
  /-- Prints the input backwards. -/
  | reverse
deriving DecidableEq, Repr, Inhabited

instance : Choice Bundled where
  all := [.checksum, .greeting, .cardColor, .reverse]
  name
    | .checksum => "checksum"
    | .greeting => "greeting"
    | .cardColor => "card-color"
    | .reverse => "reverse"

namespace Bundled

/-- Sums the code points of the input modulo 256 and prints the sum as one character.  The sum stops
before the first character, other than the very first one, whose code point is a multiple of 256. -/
def checksumSource : String := "
// cell 0 stays zero, cell 1 holds the running sum
moO
oom
moO oom

MOO
    // add cell 2 into cell 1
    MOO
        MOo mOo MoO moO
    moo
    oom
moo

mOo
OOM

mOo
"

/-- Prints `watnow!` and reads nothing. -/
def greetingSource : String := "
// 'w' = 119
MoO MoO MoO MoO MoO MoO MoO MoO MoO MoO
MoO MoO MoO MoO MoO MoO MoO MoO MoO MoO
MoO MoO MoO MoO MoO MoO MoO MoO MoO MoO
MoO MoO MoO MoO MoO MoO MoO MoO MoO MoO
MoO MoO MoO MoO MoO MoO MoO MoO MoO MoO
MoO MoO MoO MoO MoO MoO MoO MoO MoO MoO
MoO MoO MoO MoO MoO MoO MoO MoO MoO MoO
MoO MoO MoO MoO MoO MoO MoO MoO MoO MoO
MoO MoO MoO MoO MoO MoO MoO MoO MoO MoO
MoO MoO MoO MoO MoO MoO MoO MoO MoO MoO
MoO MoO MoO MoO MoO MoO MoO MoO MoO MoO
MoO MoO MoO MoO MoO MoO MoO MoO MoO Moo

// 'a' = 97
MOo MOo MOo MOo MOo MOo MOo MOo MOo MOo
MOo MOo MOo MOo MOo MOo MOo MOo MOo MOo
MOo MOo Moo

// 't' = 116
MoO MoO MoO MoO MoO MoO MoO MoO MoO MoO
MoO MoO MoO MoO MoO MoO MoO MoO MoO Moo

// 'n' = 110
MOo MOo MOo MOo MOo MOo Moo

// 'o' = 111
MoO Moo

// 'w' = 119
MoO MoO MoO MoO MoO MoO MoO MoO Moo

// '!' = 33
MOo MOo MOo MOo MOo MOo MOo MOo MOo MOo
MOo MOo MOo MOo MOo MOo MOo MOo MOo MOo
MOo MOo MOo MOo MOo MOo MOo MOo MOo MOo
MOo MOo MOo MOo MOo MOo MOo MOo MOo MOo
MOo MOo MOo MOo MOo MOo MOo MOo MOo MOo
MOo MOo MOo MOo MOo MOo MOo MOo MOo MOo
MOo MOo MOo MOo MOo MOo MOo MOo MOo MOo
MOo MOo MOo MOo MOo MOo MOo MOo MOo MOo
MOo MOo MOo MOo MOo MOo Moo
"

/-- Prints a colour `hsl(… 90% 85%)` in which the character that the checksum prints is the hue. -/
def cardColorSource : String := "
OOO
// 'h' = 104
MoO MoO MoO MoO MoO MoO MoO MoO MoO MoO
MoO MoO MoO MoO MoO MoO MoO MoO MoO MoO
MoO MoO MoO MoO MoO MoO MoO MoO MoO MoO
MoO MoO MoO MoO MoO MoO MoO MoO MoO MoO
MoO MoO MoO MoO MoO MoO MoO MoO MoO MoO
MoO MoO MoO MoO MoO MoO MoO MoO MoO MoO
MoO MoO MoO MoO MoO MoO MoO MoO MoO MoO
MoO MoO MoO MoO MoO MoO MoO MoO MoO MoO
MoO MoO MoO MoO MoO MoO MoO MoO MoO MoO
MoO MoO MoO MoO MoO MoO MoO MoO MoO MoO
MoO MoO MoO MoO Moo

// 's' = 115
MoO MoO MoO MoO MoO MoO MoO MoO MoO MoO
MoO Moo

// 'l' = 108
MOo MOo MOo MOo MOo MOo MOo Moo

// '(' = 40
MOo MOo MOo MOo MOo MOo MOo MOo MOo MOo
MOo MOo MOo MOo MOo MOo MOo MOo MOo MOo
MOo MOo MOo MOo MOo MOo MOo MOo MOo MOo
MOo MOo MOo MOo MOo MOo MOo MOo MOo MOo
MOo MOo MOo MOo MOo MOo MOo MOo MOo MOo
MOo MOo MOo MOo MOo MOo MOo MOo MOo MOo
MOo MOo MOo MOo MOo MOo MOo MOo Moo

// checksum of the input, computed two cells to the right
moO
moO oom
moO oom
MOO
    MOO
        MOo mOo MoO moO
    moo
    oom
moo
mOo OOM
mOo mOo

// ' ' = 32
MOo MOo MOo MOo MOo MOo MOo MOo Moo

// '9' = 57
MoO MoO MoO MoO MoO MoO MoO MoO MoO MoO
MoO MoO MoO MoO MoO MoO MoO MoO MoO MoO
MoO MoO MoO MoO MoO Moo

// '0' = 48
MOo MOo MOo MOo MOo MOo MOo MOo MOo Moo

// '%' = 37
MOo MOo MOo MOo MOo MOo MOo MOo MOo MOo
MOo Moo

// ' ' = 32
MOo MOo MOo MOo MOo Moo

// '8' = 56
MoO MoO MoO MoO MoO MoO MoO MoO MoO MoO
MoO MoO MoO MoO MoO MoO MoO MoO MoO MoO
MoO MoO MoO MoO Moo

// '5' = 53
MOo MOo MOo Moo

// '%' = 37
MOo MOo MOo MOo MOo MOo MOo MOo MOo MOo
MOo MOo MOo MOo MOo MOo Moo

// ')' = 41
MoO MoO MoO MoO Moo
"

/-- Prints the input backwards. -/
def reverseSource : String := "
// cell 0 is the sentinel that stops the echo loop
moO oom
MOO moO oom moo
mOo
MOO OOM mOo moo
"

/-- The source text of a bundled program. -/
def source : Bundled → String
  | checksum => checksumSource
  | greeting => greetingSource
  | cardColor => cardColorSource
  | reverse => reverseSource

end Bundled

end CowLang
