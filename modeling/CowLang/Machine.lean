/-!
# The state of a run

A machine has a tape of cells with a pointer to one of them, an input with a cursor to the next
unread character, the output written so far, a register and a step counter.  The operations here
are the ones that instructions are made of; they are total, and none of them can leave the tape.

Limits of the computer are left out: there is room for a tape of any length, and the step counter
has no largest value.
-/

namespace CowLang

/-- The character that a cell stands for: the one with that code point, or U+FFFD where none has. -/
def cellChar (value : Nat) : Char :=
  if value.isValidChar then Char.ofNat value else '\uFFFD'

/-- All that changes during a run. -/
structure Machine where
  /-- The cells. -/
  tape : Array Nat
  /-- The index of the current cell. -/
  pointer : Nat
  /-- The characters to be read. -/
  input : Array Char
  /-- The number of characters read so far. -/
  cursor : Nat
  /-- The characters written so far. -/
  output : String
  /-- The content of the register, if there is any. -/
  register : Option Nat
  /-- The number of instructions executed so far. -/
  steps : Nat
deriving DecidableEq, Repr, Inhabited

namespace Machine

/-- A fresh machine: zero cells, at least one of them, and nothing read or written yet. -/
def start (tapeLen : Nat) (input : String) : Machine where
  tape := Array.replicate (max tapeLen 1) 0
  pointer := 0
  input := input.toList.toArray
  cursor := 0
  output := ""
  register := none
  steps := 0

/-- The number of cells. -/
def tapeLen (m : Machine) : Nat := m.tape.size

/-- The value of the current cell. -/
def current (m : Machine) : Nat := m.tape.getD m.pointer 0

/-- Gives the current cell a value. -/
def setCurrent (m : Machine) (value : Nat) : Machine :=
  match m with
  | ⟨tape, pointer, input, cursor, output, register, steps⟩ =>
    ⟨tape.setIfInBounds pointer value, pointer, input, cursor, output, register, steps⟩

/-- Moves the pointer to a cell. -/
def setPointer (m : Machine) (pointer : Nat) : Machine :=
  { m with pointer }

/-- Counts one executed instruction. -/
def tick (m : Machine) : Machine :=
  { m with steps := m.steps + 1 }

/-- Stores the next input character, as its code point modulo 256, in the current cell.  At the end
of the input it stores zero, and the cursor stays. -/
def read (m : Machine) : Machine :=
  match m.input[m.cursor]? with
  | some c => { m.setCurrent (c.toNat % 256) with cursor := m.cursor + 1 }
  | none => m.setCurrent 0

/-- Writes the current cell as a character. -/
def write (m : Machine) : Machine :=
  { m with output := m.output.push (cellChar m.current) }

/-- Moves a value between the current cell and the register: an empty register takes the cell's
value, a full one gives its value to the cell. -/
def transfer (m : Machine) : Machine :=
  match m.register with
  | some value => { m.setCurrent value with register := none }
  | none => { m with register := some m.current }

/-! ## What operations do to the tape -/

theorem tapeLen_start (tapeLen : Nat) (input : String) :
    (start tapeLen input).tapeLen = max tapeLen 1 := by
  simp [start, Machine.tapeLen]

theorem tapeLen_start_of_pos {tapeLen : Nat} (h : 0 < tapeLen) (input : String) :
    (start tapeLen input).tapeLen = tapeLen := by
  rw [tapeLen_start, Nat.max_eq_left h]

theorem getD_tape_start (tapeLen : Nat) (input : String) (index : Nat) :
    (start tapeLen input).tape.getD index 0 = 0 := by
  rw [start, Array.getD_eq_getD_getElem?, Array.getElem?_replicate]
  split <;> rfl

@[simp]
theorem tapeLen_setCurrent (m : Machine) (value : Nat) :
    (m.setCurrent value).tapeLen = m.tapeLen := by
  simp [setCurrent, tapeLen]

@[simp]
theorem tapeLen_read (m : Machine) : m.read.tapeLen = m.tapeLen := by
  unfold read
  split
  · exact tapeLen_setCurrent m _
  · exact tapeLen_setCurrent m _

@[simp]
theorem tapeLen_transfer (m : Machine) : m.transfer.tapeLen = m.tapeLen := by
  unfold transfer
  split
  · exact tapeLen_setCurrent m _
  · rfl

/-- The current cell has the value that it was given, as long as the pointer is on the tape. -/
theorem current_setCurrent (m : Machine) (value : Nat) (h : m.pointer < m.tapeLen) :
    (m.setCurrent value).current = value := by
  have hsize : m.pointer < m.tape.size := h
  simp [setCurrent, current, hsize]

/-! ## Reports -/

/-- The cells that are not zero, each with its index. -/
def nonzeroCells (m : Machine) : List (Nat × Nat) :=
  m.tape.toList.zipIdx.filterMap fun (value, index) =>
    if value = 0 then none else some (index, value)

end Machine

end CowLang
