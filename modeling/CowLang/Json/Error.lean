import CowLang.Decimal.Text
import CowLang.Json.Symbol
import CowLang.Text.Quoted
/-!
# What can be wrong with a JSON text

Reading stops at the first problem.  The text may break the rules of JSON, or it may be JSON of a
kind that was not wanted at that place.  A reader that stops knows how much of the text is left; the
line and the column are found when the whole text is at hand again.
-/

namespace CowLang.Json

/-- What was found where something else was wanted. -/
inductive Found where
  | null
  | boolean (value : Bool)
  | natural (value : Nat)
  /-- A whole number below 0, given without its sign. -/
  | negative (size : Nat)
  /-- Any other number. -/
  | float (value : Float)
  | string (text : String)
  | sequence
  | map
deriving DecidableEq, Inhabited

/-- How error messages name what was found. -/
def Found.text : Found → String
  | null => "null"
  | boolean true => "boolean `true`"
  | boolean false => "boolean `false`"
  | natural value => s!"integer `{value}`"
  | negative size => s!"integer `-{size}`"
  | float value => "floating point `" ++ Decimal.floatText value ++ "`"
  | string text => "string " ++ Text.quoted text
  | sequence => "sequence"
  | map => "map"

/-- What is wrong with a text. -/
inductive Problem where
  /-- The text ends where a value is wanted or inside a number or a word. -/
  | endOfValue
  | endOfList
  | endOfObject
  | endOfString
  | expectedColon
  /-- An element is followed neither by a comma nor by the end of the array. -/
  | expectedListEnd
  /-- A member is followed neither by a comma nor by the end of the object. -/
  | expectedObjectEnd
  /-- A word starts like `true`, `false` or `null` and goes on differently. -/
  | expectedWord
  /-- No value starts like this. -/
  | expectedValue
  /-- A backslash is followed by something that it cannot be followed by. -/
  | invalidEscape
  | invalidNumber
  | numberOutOfRange
  /-- A string holds bytes that are not text. -/
  | invalidCodePoint
  | controlCharacter
  | keyNotString
  /-- An escape is the second half of a pair without the first, or the first without the second. -/
  | loneSurrogate
  /-- An escape is the first half of a pair and no escape follows. -/
  | unfinishedPair
  | trailingComma
  | trailingCharacters
  /-- A value of another kind is wanted. -/
  | invalidType (found : Found) (wanted : String)
  /-- A value is of the wanted kind, but not in its range. -/
  | invalidValue (found : Found) (wanted : String)
  /-- A name is none of those that can be chosen. -/
  | unknownName (name : String) (choices : List String)
  | duplicateKey (key : String)
deriving DecidableEq, Inhabited

/-- Names to choose from, each in backticks. -/
def alternatives (names : List String) : String :=
  String.intercalate " or " (names.map fun name => "`" ++ name ++ "`")

/-- The wording of a problem. -/
def Problem.message : Problem → String
  | endOfValue => "EOF while parsing a value"
  | endOfList => "EOF while parsing a list"
  | endOfObject => "EOF while parsing an object"
  | endOfString => "EOF while parsing a string"
  | expectedColon => "expected `:`"
  | expectedListEnd => "expected `,` or `]`"
  | expectedObjectEnd => "expected `,` or `\x7d`"
  | expectedWord => "expected ident"
  | expectedValue => "expected value"
  | invalidEscape => "invalid escape"
  | invalidNumber => "invalid number"
  | numberOutOfRange => "number out of range"
  | invalidCodePoint => "invalid unicode code point"
  | controlCharacter => "control character (\\u0000-\\u001F) found while parsing a string"
  | keyNotString => "key must be a string"
  | loneSurrogate => "lone leading surrogate in hex escape"
  | unfinishedPair => "unexpected end of hex escape"
  | trailingComma => "trailing comma"
  | trailingCharacters => "trailing characters"
  | invalidType found wanted => "invalid type: " ++ found.text ++ ", expected " ++ wanted
  | invalidValue found wanted => "invalid value: " ++ found.text ++ ", expected " ++ wanted
  | unknownName name choices =>
    "unknown variant `" ++ name ++ "`, expected " ++ alternatives choices
  | duplicateKey key => "duplicate field `" ++ key ++ "`"

/-! ## Places -/

/-- A place in a text, given by what is left of the text there. -/
structure Mark where
  /-- The number of bytes that are left. -/
  left : Nat
  /-- Whether the first of them has been looked at without being taken. -/
  isPeeked : Bool
deriving DecidableEq, Repr, Inhabited

namespace Mark

/-- The end of the text. -/
def last : Mark := ⟨0, false⟩

/-- The place behind the first bytes of what is left, or at the end if there are not so many. -/
def after (count : Nat) (text : List Symbol) : Mark :=
  ⟨byteCount text - count, false⟩

/-- The place before what is left, where the next byte has been looked at. -/
def facing (text : List Symbol) : Mark :=
  ⟨byteCount text, true⟩

end Mark

/-- Why and where a reader stops. -/
structure Stop where
  problem : Problem
  mark : Mark
deriving DecidableEq, Inhabited

/-- A reader takes something from the head of a text and leaves the rest. -/
abbrev Reader (α : Type) := List Symbol → Except Stop (α × List Symbol)

/-- The first problem of a text, with its place. -/
structure Error where
  problem : Problem
  /-- The line of the place; the first line is line 1. -/
  line : Nat
  /-- The number of bytes before the place on its line. -/
  column : Nat
deriving DecidableEq, Inhabited

/-- The wording of an error, which tells the place. -/
def Error.message (e : Error) : String :=
  s!"{e.problem.message} at line {e.line} column {e.column}"

/-- A problem at the place behind the first bytes of a text. -/
def Problem.locate (p : Problem) (bytes : ByteArray) (count : Nat) : Error :=
  let newline := '\n'.toUInt8
  let before := bytes.data.toList.take count
  { problem := p
    line := before.count newline + 1
    column := (before.reverse.takeWhile (· ≠ newline)).length }

namespace Stop

/-- The error of a text.  A byte that has only been looked at does not count. -/
def inText (s : Stop) (text : String) : Error :=
  s.problem.locate text.toUTF8 (text.utf8ByteSize - s.mark.left)

/-- The error of a file.  It is taken in byte by byte, so a byte that has been looked at counts. -/
def inFile (s : Stop) (bytes : ByteArray) : Error :=
  s.problem.locate bytes (bytes.size - (s.mark.left - s.mark.isPeeked.toNat))

end Stop

end CowLang.Json
