import CowLang.Json.Error
/-!
# Strings in JSON texts

A string is read from after its opening quote up to and including its closing one.  Characters
beyond the first 65536 may be written as a pair of escapes, the halves of which must not stand
alone.  Strings whose content is not wanted are only checked for their outer form.
-/

namespace CowLang.Json

/-- The character that a one-letter escape stands for. -/
def escaped? : Char → Option Char
  | '"' => some '"'
  | '\\' => some '\\'
  | '/' => some '/'
  | 'b' => some '\x08'
  | 'f' => some '\x0c'
  | 'n' => some '\n'
  | 'r' => some '\r'
  | 't' => some '\t'
  | _ => none

/-- The number that four digits in base sixteen denote. -/
def hexNumber? (a b c d : Symbol) : Option Nat :=
  match a.hexDigit?, b.hexDigit?, c.hexDigit?, d.hexDigit? with
  | some a, some b, some c, some d => some (((a * 16 + b) * 16 + c) * 16 + d)
  | _, _, _, _ => none

/-- The complaint about a text in which four digits in base sixteen were wanted: it ends before four
bytes, or some of them are not digits. -/
def hexStop (text : List Symbol) : Stop :=
  ⟨if byteCount text < 4 then .endOfString else .invalidEscape, .after 4 text⟩

/-- Whether a number is the first half of a pair. -/
def isHighHalf (n : Nat) : Bool := 0xD800 ≤ n && n ≤ 0xDBFF

/-- Whether a number is the second half of a pair. -/
def isLowHalf (n : Nat) : Bool := 0xDC00 ≤ n && n ≤ 0xDFFF

/-- The character that a pair stands for. -/
def pairChar (high low : Nat) : Char :=
  Char.ofNat ((high - 0xD800) * 0x400 + (low - 0xDC00) + 0x10000)

/-- Reads on to the end of a string, where `found` holds the symbols found so far, last first. -/
def readSymbols (found : List Symbol) : Reader (List Symbol)
  | [] => .error ⟨.endOfString, .last⟩
  | .stray :: rest => readSymbols (.stray :: found) rest
  | .char '"' :: rest => .ok (found.reverse, rest)
  | .char '\\' :: .char 'u' :: a :: b :: c :: d :: rest =>
    match hexNumber? a b c d with
    | none => .error (hexStop (a :: b :: c :: d :: rest))
    | some high =>
      if isLowHalf high then .error ⟨.loneSurrogate, .after 0 rest⟩
      else if isHighHalf high then
        match rest with
        | [] => .error ⟨.endOfString, .last⟩
        | [.char '\\'] => .error ⟨.endOfString, .last⟩
        | .char '\\' :: .char 'u' :: a :: b :: c :: d :: rest =>
          match hexNumber? a b c d with
          | none => .error (hexStop (a :: b :: c :: d :: rest))
          | some low =>
            if isLowHalf low then readSymbols (.char (pairChar high low) :: found) rest
            else .error ⟨.loneSurrogate, .after 0 rest⟩
        | .char '\\' :: .char 'u' :: rest => .error (hexStop rest)
        | .char '\\' :: rest => .error ⟨.unfinishedPair, .after 1 rest⟩
        | rest => .error ⟨.unfinishedPair, .after 1 rest⟩
      else readSymbols (.char (Char.ofNat high) :: found) rest
  | .char '\\' :: .char 'u' :: rest => .error (hexStop rest)
  | [.char '\\'] => .error ⟨.endOfString, .last⟩
  | .char '\\' :: .stray :: rest => .error ⟨.invalidEscape, .after 0 rest⟩
  | .char '\\' :: .char c :: rest =>
    match escaped? c with
    | some c => readSymbols (.char c :: found) rest
    | none => .error ⟨.invalidEscape, .after 1 (.char c :: rest)⟩
  | .char c :: rest =>
    if c.toNat < 0x20 then .error ⟨.controlCharacter, .after 0 rest⟩
    else readSymbols (.char c :: found) rest

/-- The characters of a list of symbols, if there is nothing else. -/
def chars? : List Symbol → Option (List Char)
  | [] => some []
  | .char c :: rest => (chars? rest).map (c :: ·)
  | .stray :: _ => none

/-- Reads a string from after its opening quote. -/
def readString : Reader String := fun text =>
  match readSymbols [] text with
  | .error e => .error e
  | .ok (found, rest) =>
    match chars? found with
    | some chars => .ok (String.ofList chars, rest)
    | none => .error ⟨.invalidCodePoint, .after 0 rest⟩

/-- Passes over a string from after its opening quote. -/
def skipString : List Symbol → Except Stop (List Symbol)
  | [] => .error ⟨.endOfString, .last⟩
  | .stray :: rest => skipString rest
  | .char '"' :: rest => .ok rest
  | .char '\\' :: .char 'u' :: a :: b :: c :: d :: rest =>
    match hexNumber? a b c d with
    | some _ => skipString rest
    | none => .error (hexStop (a :: b :: c :: d :: rest))
  | .char '\\' :: .char 'u' :: rest => .error (hexStop rest)
  | [.char '\\'] => .error ⟨.endOfString, .last⟩
  | .char '\\' :: .stray :: rest => .error ⟨.invalidEscape, .after 0 rest⟩
  | .char '\\' :: .char c :: rest =>
    match escaped? c with
    | some _ => skipString rest
    | none => .error ⟨.invalidEscape, .after 1 (.char c :: rest)⟩
  | .char c :: rest =>
    if c.toNat < 0x20 then .error ⟨.controlCharacter, .facing (.char c :: rest)⟩
    else skipString rest

end CowLang.Json
