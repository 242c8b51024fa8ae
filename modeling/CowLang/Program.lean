import CowLang.Instruction
import CowLang.Position
/-!
# Programs

A program is a sequence of tokens, and a token is an instruction together with the place where it
was written.  Only the instructions matter when a program runs; the places serve error messages.
-/

namespace CowLang

/-- An instruction and the stretch of source that spells it. -/
structure Token where
  /-- What the token does. -/
  instruction : Instruction
  /-- Where the token was written. -/
  span : Span
deriving DecidableEq, Repr, Inhabited

/-- A sequence of tokens. -/
structure Program where
  /-- The tokens in source order. -/
  tokens : Array Token
deriving DecidableEq, Repr, Inhabited

namespace Program

/-- The number of tokens. -/
def size (p : Program) : Nat := p.tokens.size

/-- The instructions without their places. -/
def instructions (p : Program) : List Instruction :=
  p.tokens.toList.map Token.instruction

/-- The instruction at an index, if the index is inside the program. -/
def instruction? (p : Program) (index : Nat) : Option Instruction :=
  match p.tokens[index]? with
  | some token => some token.instruction
  | none => none

/-- The span at an index, if the index is inside the program. -/
def span? (p : Program) (index : Nat) : Option Span :=
  match p.tokens[index]? with
  | some token => some token.span
  | none => none

/-- The span at an index, and no place at all outside the program. -/
def spanAt (p : Program) (index : Nat) : Span :=
  (p.span? index).getD .nowhere

/-- A program that was not read from a source. -/
def ofInstructions (instructions : List Instruction) : Program :=
  ⟨(instructions.map fun i => ⟨i, .nowhere⟩).toArray⟩

/-- The program of the first `count` instructions, without their places. -/
def take (p : Program) (count : Nat) : Program :=
  ofInstructions (p.instructions.take count)

/-- The canonical source text: the spellings with one blank between neighbours. -/
def render (p : Program) : String :=
  String.intercalate " " (p.instructions.map Instruction.spelling)

@[simp]
theorem instructions_ofInstructions (is : List Instruction) :
    (ofInstructions is).instructions = is := by
  simp [ofInstructions, instructions, Function.comp_def]

@[simp]
theorem length_instructions (p : Program) : p.instructions.length = p.size := by
  simp [instructions, size]

theorem instruction?_eq_getElem? (p : Program) (index : Nat) :
    p.instruction? index = p.instructions[index]? := by
  simp only [instruction?, instructions, List.getElem?_map, Array.getElem?_toList]
  cases p.tokens[index]? <;> rfl

end Program

end CowLang
