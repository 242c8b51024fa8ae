/-!
# The twelve instructions of COW

Every instruction is spelled with three letters out of `m`, `M`, `o` and `O`, and every instruction
has a numeric code from 0 to 11.  Eight of them are the eight commands of brainfuck.

Main statements: `ofLetters?_eq_some_iff` (reading three letters inverts spelling) and
`ofCode?_code` (reading a code inverts `code`).
-/

namespace CowLang

/-- An instruction of COW, listed in the order of the numeric codes. -/
inductive Instruction where
  /-- `moo`: goes back to the matching `MOO` while the current cell is not zero. -/
  | loopClose
  /-- `mOo`: moves the pointer one cell to the left. -/
  | pointerLeft
  /-- `moO`: moves the pointer one cell to the right. -/
  | pointerRight
  /-- `mOO`: does nothing. -/
  | exec
  /-- `Moo`: reads a character into a zero cell, and writes the cell out otherwise. -/
  | conditionalIo
  /-- `MOo`: takes one from the current cell. -/
  | decrement
  /-- `MoO`: adds one to the current cell. -/
  | increment
  /-- `MOO`: skips past the matching `moo` when the current cell is zero. -/
  | loopOpen
  /-- `OOO`: clears the current cell. -/
  | reset
  /-- `MMM`: copies the current cell into the register, or the full register into the cell. -/
  | register
  /-- `OOM`: writes the current cell as a character. -/
  | output
  /-- `oom`: reads a character into the current cell. -/
  | input
deriving DecidableEq, Repr, Inhabited

namespace Instruction

/-- The instructions in the order of their codes. -/
def all : List Instruction :=
  [loopClose, pointerLeft, pointerRight, exec, conditionalIo, decrement, increment, loopOpen,
    reset, register, output, input]

/-- The three letters of the spelling. -/
def letters : Instruction → Char × Char × Char
  | loopClose => ('m', 'o', 'o')
  | pointerLeft => ('m', 'O', 'o')
  | pointerRight => ('m', 'o', 'O')
  | exec => ('m', 'O', 'O')
  | conditionalIo => ('M', 'o', 'o')
  | decrement => ('M', 'O', 'o')
  | increment => ('M', 'o', 'O')
  | loopOpen => ('M', 'O', 'O')
  | reset => ('O', 'O', 'O')
  | register => ('M', 'M', 'M')
  | output => ('O', 'O', 'M')
  | input => ('o', 'o', 'm')

/-- The letters of the spelling as a list. -/
def chars (i : Instruction) : List Char :=
  match i.letters with
  | (a, b, c) => [a, b, c]

/-- The spelling in source text, such as `MoO`. -/
def spelling (i : Instruction) : String :=
  String.ofList i.chars

/-- The instruction that three letters spell. -/
def ofLetters? : Char → Char → Char → Option Instruction
  | 'm', 'o', 'o' => some loopClose
  | 'm', 'O', 'o' => some pointerLeft
  | 'm', 'o', 'O' => some pointerRight
  | 'm', 'O', 'O' => some exec
  | 'M', 'o', 'o' => some conditionalIo
  | 'M', 'O', 'o' => some decrement
  | 'M', 'o', 'O' => some increment
  | 'M', 'O', 'O' => some loopOpen
  | 'O', 'O', 'O' => some reset
  | 'M', 'M', 'M' => some register
  | 'O', 'O', 'M' => some output
  | 'o', 'o', 'm' => some input
  | _, _, _ => none

/-- The instruction spelled at the head of a text, with the text after it. -/
def leading? : List Char → Option (Instruction × List Char)
  | a :: b :: c :: rest => (ofLetters? a b c).map (·, rest)
  | _ => none

/-- The instruction that a whole text spells. -/
def ofSpelling? (text : String) : Option Instruction :=
  match leading? text.toList with
  | some (i, []) => some i
  | _ => none

/-- The numeric code, from 0 to 11. -/
def code : Instruction → Nat
  | loopClose => 0
  | pointerLeft => 1
  | pointerRight => 2
  | exec => 3
  | conditionalIo => 4
  | decrement => 5
  | increment => 6
  | loopOpen => 7
  | reset => 8
  | register => 9
  | output => 10
  | input => 11

/-- The instruction with a given code. -/
def ofCode? (n : Nat) : Option Instruction :=
  all[n]?

/-- The brainfuck command that does the same, for the eight instructions that have one. -/
def brainfuck? : Instruction → Option Char
  | loopClose => some ']'
  | pointerLeft => some '<'
  | pointerRight => some '>'
  | decrement => some '-'
  | increment => some '+'
  | loopOpen => some '['
  | output => some '.'
  | input => some ','
  | exec | conditionalIo | reset | register => none

/-! ## Spellings and codes can be read back -/

/-- Three letters are read as an instruction exactly when they are its spelling. -/
theorem ofLetters?_eq_some_iff {a b c : Char} {i : Instruction} :
    ofLetters? a b c = some i ↔ i.letters = (a, b, c) := by
  constructor
  · intro h
    unfold ofLetters? at h
    split at h <;> simp_all [letters] <;> subst h <;> rfl
  · intro h
    cases i <;> simp only [letters, Prod.mk.injEq] at h <;> obtain ⟨rfl, rfl, rfl⟩ := h <;> rfl

/-- A spelling at the head of a text is read, and the text after it is left. -/
theorem leading?_chars_append (i : Instruction) (rest : List Char) :
    leading? (i.chars ++ rest) = some (i, rest) := by
  cases i <;> rfl

/-- What is read at the head of a text is a spelling. -/
theorem eq_of_leading?_eq_some {text rest : List Char} {i : Instruction}
    (h : leading? text = some (i, rest)) : text = i.chars ++ rest := by
  unfold leading? at h
  split at h
  · obtain ⟨j, hj, hpair⟩ := Option.map_eq_some_iff.mp h
    cases hpair
    simp [chars, ofLetters?_eq_some_iff.mp hj]
  · cases h

/-- Reading a code inverts `code`. -/
theorem ofCode?_code (i : Instruction) : ofCode? i.code = some i := by
  cases i <;> rfl

end Instruction

end CowLang
