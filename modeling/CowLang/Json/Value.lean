import CowLang.Json.Number
import CowLang.Json.Text
/-!
# Values in JSON texts

Two things are done with a value whose kind is not the wanted one.  `skipValue` passes over a value
of any kind, at any depth, and `found` says of what kind the next value is, for use in an error
message.
-/

namespace CowLang.Json

/-- Passes over the letters of a word. -/
def skipWord : List Char → List Symbol → Except Stop (List Symbol)
  | [], text => .ok text
  | _ :: _, [] => .error ⟨.endOfValue, .last⟩
  | c :: word, s :: text =>
    if s = .char c then skipWord word text else .error ⟨.expectedWord, .after 1 (s :: text)⟩

/-- Passes over the colon after a key. -/
def skipColon (text : List Symbol) : Except Stop (List Symbol) :=
  match skipBlanks text with
  | .char ':' :: rest => .ok rest
  | [] => .error ⟨.endOfObject, .last⟩
  | rest => .error ⟨.expectedColon, .after 1 rest⟩

/-- Passes over a key together with its colon. -/
def skipKey (text : List Symbol) : Except Stop (List Symbol) :=
  match skipBlanks text with
  | .char '"' :: rest => do
    let rest ← skipString rest
    skipColon rest
  | [] => .error ⟨.endOfObject, .last⟩
  | rest => .error ⟨.keyNotString, .after 1 rest⟩

mutual

/-- Passes over a value.  Each call passes its duty on with less fuel, and no chain of calls is
longer than twice the text. -/
def skipValueWith : Nat → List Symbol → Except Stop (List Symbol)
  | 0, _ => .error ⟨.endOfValue, .last⟩
  | fuel + 1, text =>
    match skipBlanks text with
    | [] => .error ⟨.endOfValue, .last⟩
    | .char 'n' :: rest => skipWord ['u', 'l', 'l'] rest
    | .char 't' :: rest => skipWord ['r', 'u', 'e'] rest
    | .char 'f' :: rest => skipWord ['a', 'l', 's', 'e'] rest
    | .char '"' :: rest => skipString rest
    | .char '[' :: rest =>
      match skipBlanks rest with
      | [] => .error ⟨.endOfList, .last⟩
      | .char ']' :: rest => .ok rest
      | rest => skipElements fuel rest
    | .char '\x7b' :: rest =>
      match skipBlanks rest with
      | [] => .error ⟨.endOfObject, .last⟩
      | .char '\x7d' :: rest => .ok rest
      | rest => skipMembers fuel rest
    | text@(s :: _) =>
      if s = .char '-' || s.digit?.isSome then Number.skip text
      else .error ⟨.expectedValue, .after 1 text⟩

/-- Passes over the elements of an array and its end. -/
def skipElements : Nat → List Symbol → Except Stop (List Symbol)
  | 0, _ => .error ⟨.endOfValue, .last⟩
  | fuel + 1, text => do
    let rest ← skipValueWith fuel text
    match skipBlanks rest with
    | [] => .error ⟨.endOfList, .last⟩
    | .char ',' :: rest => skipElements fuel rest
    | .char ']' :: rest => .ok rest
    | rest => .error ⟨.expectedListEnd, .after 1 rest⟩

/-- Passes over the members of an object and its end. -/
def skipMembers : Nat → List Symbol → Except Stop (List Symbol)
  | 0, _ => .error ⟨.endOfValue, .last⟩
  | fuel + 1, text => do
    let rest ← skipKey text
    let rest ← skipValueWith fuel rest
    match skipBlanks rest with
    | [] => .error ⟨.endOfObject, .last⟩
    | .char ',' :: rest => skipMembers fuel rest
    | .char '\x7d' :: rest => .ok rest
    | rest => .error ⟨.expectedObjectEnd, .after 1 rest⟩

end

/-- Passes over a value of any kind. -/
def skipValue (text : List Symbol) : Except Stop (List Symbol) :=
  skipValueWith (2 * text.length + 2) text

/-- What the text at hand starts with, blanks having been passed over, and the place where this is
known.  Arrays and objects are recognised by their first character, which is left, and all else is
read to its end. -/
def found (text : List Symbol) : Except Stop (Found × Mark) :=
  match text with
  | [] => .error ⟨.endOfValue, .last⟩
  | .char 'n' :: rest => do
    let rest ← skipWord ['u', 'l', 'l'] rest
    return (.null, .after 0 rest)
  | .char 't' :: rest => do
    let rest ← skipWord ['r', 'u', 'e'] rest
    return (.boolean true, .after 0 rest)
  | .char 'f' :: rest => do
    let rest ← skipWord ['a', 'l', 's', 'e'] rest
    return (.boolean false, .after 0 rest)
  | .char '"' :: rest => do
    let (text, rest) ← readString rest
    return (.string text, .after 0 rest)
  | .char '[' :: _ => .ok (.sequence, .facing text)
  | .char '\x7b' :: _ => .ok (.map, .facing text)
  | s :: _ =>
    if s = .char '-' || s.digit?.isSome then do
      let (number, rest) ← Number.read text
      return (number.found, .facing rest)
    else .error ⟨.expectedValue, .after 1 text⟩

/-- The complaint that a value of another kind is wanted. -/
def refuse (text : List Symbol) (wanted : String) : Stop :=
  match found text with
  | .ok (found, mark) => ⟨.invalidType found wanted, mark⟩
  | .error stop => stop

/-- Reads a whole number of 64 bits. -/
def readWord (wanted : String) : Reader Nat := fun text =>
  match skipBlanks text with
  | [] => .error ⟨.endOfValue, .last⟩
  | text@(s :: _) =>
    if s = .char '-' || s.digit?.isSome then
      match Number.read text with
      | .ok (.natural value, rest) => .ok (value, rest)
      | .ok (.negative size, rest) => .error ⟨.invalidValue (.negative size) wanted, .facing rest⟩
      | .ok (.float value, rest) => .error ⟨.invalidType (.float value) wanted, .facing rest⟩
      | .error stop => .error stop
    else .error (refuse text wanted)

/-- Reads a whole number of 64 bits or `null`. -/
def readWord? (wanted : String) : Reader (Option Nat) := fun text =>
  match skipBlanks text with
  | .char 'n' :: rest =>
    match skipWord ['u', 'l', 'l'] rest with
    | .ok rest => .ok (none, rest)
    | .error stop => .error stop
  | text =>
    match readWord wanted text with
    | .ok (value, rest) => .ok (some value, rest)
    | .error stop => .error stop

/-- Passes over `null`. -/
def skipNull (wanted : String) (text : List Symbol) : Except Stop (List Symbol) :=
  match skipBlanks text with
  | [] => .error ⟨.endOfValue, .last⟩
  | .char 'n' :: rest => skipWord ['u', 'l', 'l'] rest
  | text => .error (refuse text wanted)

end CowLang.Json
