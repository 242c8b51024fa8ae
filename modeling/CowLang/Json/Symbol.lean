/-!
# The symbols of a JSON text

A JSON text is read as a list of symbols.  A symbol is a character or, in a file that is not
properly encoded, a byte that belongs to no character.  Such bytes only matter where the characters
themselves do.
-/

namespace CowLang.Json

/-- One symbol of a JSON text. -/
inductive Symbol where
  /-- A character. -/
  | char (c : Char)
  /-- A byte that belongs to no character. -/
  | stray
deriving DecidableEq, Repr, Inhabited

namespace Symbol

/-- The number of bytes of a symbol. -/
def byteCount : Symbol → Nat
  | char c => c.utf8Size
  | stray => 1

/-- The symbols of a text. -/
def ofText (text : String) : List Symbol :=
  text.toList.map char

/-- The symbols from a byte on, where characters are taken as soon as they are complete. -/
def ofBytesFrom (bytes : ByteArray) (found : List Symbol) : Nat → Nat → List Symbol
  | 0, _ => found.reverse
  | fuel + 1, index =>
    if index < bytes.size then
      match bytes.utf8DecodeChar? index with
      | some c => ofBytesFrom bytes (char c :: found) fuel (index + c.utf8Size)
      | none => ofBytesFrom bytes (stray :: found) fuel (index + 1)
    else found.reverse

/-- The symbols of a file, which is a text if its bytes are properly encoded. -/
def ofBytes (bytes : ByteArray) : List Symbol :=
  match String.fromUTF8? bytes with
  | some text => ofText text
  | none => ofBytesFrom bytes [] bytes.size 0

/-- The value of a decimal digit. -/
def digit? : Symbol → Option Nat
  | char c => if '0' ≤ c ∧ c ≤ '9' then some (c.toNat - '0'.toNat) else none
  | stray => none

/-- The value of a digit in base sixteen. -/
def hexDigit? : Symbol → Option Nat
  | char c =>
    if '0' ≤ c ∧ c ≤ '9' then some (c.toNat - '0'.toNat)
    else if 'a' ≤ c ∧ c ≤ 'f' then some (c.toNat - 'a'.toNat + 10)
    else if 'A' ≤ c ∧ c ≤ 'F' then some (c.toNat - 'A'.toNat + 10)
    else none
  | stray => none

/-- Whether a symbol is one of the four blanks of JSON. -/
def isBlank : Symbol → Bool
  | char c => c = ' ' || c = '\n' || c = '\t' || c = '\r'
  | stray => false

end Symbol

/-- The number of bytes of a text. -/
def byteCount : List Symbol → Nat
  | [] => 0
  | s :: rest => s.byteCount + byteCount rest

/-- The text without the blanks at its head. -/
def skipBlanks (text : List Symbol) : List Symbol :=
  text.dropWhile Symbol.isBlank

/-- The digits at the head of the text, and the rest. -/
def splitDigits : List Symbol → List Nat × List Symbol
  | [] => ([], [])
  | s :: rest =>
    match s.digit? with
    | some d =>
      match splitDigits rest with
      | (digits, rest) => (d :: digits, rest)
    | none => ([], s :: rest)

end CowLang.Json
