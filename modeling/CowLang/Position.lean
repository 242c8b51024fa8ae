/-!
# Places in a source text

A `Position` is where a reader of the text stands, a `Span` is the stretch that one token covers.
Offsets count bytes of the UTF-8 form, columns count characters, and lines and columns start at 1.
-/

namespace CowLang

/-- A place between two characters of a text. -/
structure Position where
  /-- The number of bytes before the place. -/
  offset : Nat
  /-- One more than the number of newlines before the place. -/
  line : Nat
  /-- One more than the number of characters since the last newline. -/
  column : Nat
deriving DecidableEq, Repr, Inhabited

namespace Position

/-- The place before the first character. -/
def start : Position := ⟨0, 1, 1⟩

/-- The place after one more character. -/
def advance (p : Position) (c : Char) : Position :=
  if c = '\n' then ⟨p.offset + c.utf8Size, p.line + 1, 1⟩
  else ⟨p.offset + c.utf8Size, p.line, p.column + 1⟩

/-- The place after a text. -/
def advanceAll (p : Position) (text : List Char) : Position :=
  text.foldl advance p

theorem advanceAll_append (p : Position) (s t : List Char) :
    p.advanceAll (s ++ t) = (p.advanceAll s).advanceAll t :=
  List.foldl_append

end Position

/-- The stretch of source text that a token covers; all zeros for a token without a source. -/
structure Span where
  /-- The byte offset of the first character. -/
  start : Nat
  /-- The byte offset after the last character. -/
  stop : Nat
  /-- The line of the first character. -/
  line : Nat
  /-- The column of the first character. -/
  column : Nat
deriving DecidableEq, Repr, Inhabited

namespace Span

/-- The span of a token that was never written down. -/
def nowhere : Span := ⟨0, 0, 0, 0⟩

/-- The span of a spelling that starts at a place: three characters of one byte each. -/
def ofSpelling (place : Position) : Span :=
  ⟨place.offset, place.offset + 3, place.line, place.column⟩

/-- The wording used inside error messages. -/
def text (s : Span) : String :=
  s!"line: {s.line}, column: {s.column}, start: {s.start}, end: {s.stop}"

end Span

end CowLang
