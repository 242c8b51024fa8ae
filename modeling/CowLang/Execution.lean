import CowLang.Config
import CowLang.Fault
import CowLang.LoopTable
import CowLang.Machine
import CowLang.Scan
/-!
# Running programs

A run is a sequence of states, each a token index with a machine.  `Executable.next` makes one
step: it ends the run when the index has passed the last token, gives the run up when a limit is
reached or the instruction fails, and goes on otherwise.  `Executable.advance` makes a given number
of steps.

A program may run forever, so the number of steps is always an argument here; whoever needs the
result of a run asks for more steps until there is one.

Main statement: `advance_add` (steps can be made in portions).
-/

namespace CowLang

/-- A program with the loop table that its jumps consult. -/
structure Executable where
  /-- The tokens. -/
  program : Program
  /-- The partners of the loop instructions. -/
  loops : LoopTable
deriving DecidableEq, Repr, Inhabited

/-- The time, in nanoseconds, that a run has taken when it has made a given number of steps. -/
abbrev Clock := Nat → Nat

/-- A point in a run: the index of the next token, and the machine. -/
structure State where
  /-- The index of the token to be executed next. -/
  token : Nat
  /-- The machine before that token is executed. -/
  machine : Machine
deriving DecidableEq, Repr, Inhabited

/-- How far a run has come. -/
inductive Progress where
  /-- The run goes on from a state. -/
  | running (state : State)
  /-- The program has ended and leaves a machine. -/
  | finished (machine : Machine)
  /-- The run was given up. -/
  | failed (fault : Fault)
deriving DecidableEq, Repr, Inhabited

/-! ## Single instructions -/

namespace Machine

/-- The largest value of a byte. -/
def maxByte : Nat := 255

/-- The largest number of 32 bits, which is the largest value of a cell that is not a byte. -/
def maxCell : Nat := 0xFFFFFFFF

/-- Moves the pointer to the right. -/
def moveRight (policy : PointerPolicy) (token : Nat) (m : Machine) : Except Fault Machine :=
  if m.pointer + 1 < m.tapeLen then .ok (m.setPointer (m.pointer + 1))
  else
    match policy with
    | .strict => .error (.pointerOverflow token m.tapeLen)
    | .wrap => .ok (m.setPointer 0)

/-- Moves the pointer to the left. -/
def moveLeft (policy : PointerPolicy) (token : Nat) (m : Machine) : Except Fault Machine :=
  if 0 < m.pointer then .ok (m.setPointer (m.pointer - 1))
  else
    match policy with
    | .strict => .error (.pointerUnderflow token)
    | .wrap => .ok (m.setPointer (m.tapeLen - 1))

/-- Adds one to the current cell. -/
def increment (policy : OverflowPolicy) (token : Nat) (m : Machine) : Except Fault Machine :=
  match policy with
  | .wrap =>
    if maxByte ≤ m.current then .ok (m.setCurrent 0) else .ok (m.setCurrent (m.current + 1))
  | .unbounded =>
    if maxCell ≤ m.current then .error (.cellOverflow token m.pointer)
    else .ok (m.setCurrent (m.current + 1))

/-- Takes one from the current cell. -/
def decrement (policy : UnderflowPolicy) (token : Nat) (m : Machine) : Except Fault Machine :=
  if 0 < m.current then .ok (m.setCurrent (m.current - 1))
  else
    match policy with
    | .strict => .error (.cellUnderflow token m.pointer)
    | .wrap => .ok (m.setCurrent maxByte)

end Machine

namespace Executable

/-- Goes on after the partner of a loop instruction. -/
def jump (loops : LoopTable) (s : State) : Except Fault State :=
  match loops.target? s.token with
  | some partner => .ok { s with token := partner + 1 }
  | none => .error (.unresolvedJump s.token)

/-- Goes on with the next token, the machine having been changed or not. -/
def proceed (token : Nat) : Except Fault Machine → Except Fault State
  | .ok machine => .ok ⟨token + 1, machine⟩
  | .error fault => .error fault

/-- Executes one instruction, without counting it. -/
def execute (config : Config) (loops : LoopTable) (i : Instruction) (s : State) :
    Except Fault State :=
  match s with
  | ⟨token, m⟩ =>
    match i with
    | .pointerRight => proceed token (m.moveRight config.pointerPolicy token)
    | .pointerLeft => proceed token (m.moveLeft config.pointerPolicy token)
    | .increment => proceed token (m.increment config.overflowPolicy token)
    | .decrement => proceed token (m.decrement config.underflowPolicy token)
    | .input => .ok ⟨token + 1, m.read⟩
    | .output => .ok ⟨token + 1, m.write⟩
    | .loopOpen => if m.current = 0 then jump loops ⟨token, m⟩ else .ok ⟨token + 1, m⟩
    | .loopClose => if m.current = 0 then .ok ⟨token + 1, m⟩ else jump loops ⟨token, m⟩
    | .exec => .ok ⟨token + 1, m⟩
    | .reset => .ok ⟨token + 1, m.setCurrent 0⟩
    | .register =>
      match config.registerMode with
      | .inert => .ok ⟨token + 1, m⟩
      | .transfer => .ok ⟨token + 1, m.transfer⟩
    | .conditionalIo => if m.current = 0 then .ok ⟨token + 1, m.read⟩ else .ok ⟨token + 1, m.write⟩

/-! ## Whole runs -/

/-- The number of steps between two looks at the clock. -/
def deadlineInterval : Nat := 4096

/-- The limit that forbids a further step after `steps` of them.  The step budget is looked at
first, and the clock only now and then. -/
def limit? (config : Config) (clock : Clock) (steps : Nat) : Option Fault :=
  match config.maxSteps with
  | some limit =>
    if limit ≤ steps then some (.stepLimitExceeded limit) else deadline? config.timeout
  | none => deadline? config.timeout
where
  /-- The deadline, if it is looked at now and has passed. -/
  deadline? : Option Duration → Option Fault
    | some timeout =>
      if steps % deadlineInterval = 0 ∧ timeout.nanoseconds < clock steps then
        some (.deadlineExceeded timeout steps)
      else none
    | none => none

/-- Makes one step. -/
def next (x : Executable) (config : Config) (clock : Clock) (s : State) : Progress :=
  match x.program.instruction? s.token with
  | none => .finished s.machine
  | some i =>
    match limit? config clock s.machine.steps with
    | some fault => .failed fault
    | none =>
      match execute config x.loops i s with
      | .ok ⟨token, machine⟩ => .running ⟨token, machine.tick⟩
      | .error fault => .failed fault

/-- Makes up to `count` steps. -/
def advance (x : Executable) (config : Config) (clock : Clock) : Nat → State → Progress
  | 0, s => .running s
  | count + 1, s =>
    match x.next config clock s with
    | .running s => advance x config clock count s
    | .finished machine => .finished machine
    | .failed fault => .failed fault

/-- The state in which a run on an input starts. -/
def initial (config : Config) (input : String) : State :=
  ⟨0, .start config.tapeLen input⟩

/-- A program, made ready to run. -/
def ofProgram (program : Program) : Except LoopError Executable :=
  match LoopTable.ofProgram program with
  | .ok loops => .ok ⟨program, loops⟩
  | .error e => .error e

/-- The program in a source text, made ready to run. -/
def ofSource (source : String) : Except LoopError Executable :=
  ofProgram (.ofSource source)

/-- The run that starts in `s` ends with a result, after however many steps. -/
def EndsFrom (x : Executable) (config : Config) (clock : Clock) (s : State) :
    Except Fault Machine → Prop
  | .ok machine => ∃ count, x.advance config clock count s = .finished machine
  | .error fault => ∃ count, x.advance config clock count s = .failed fault

/-- Steps can be made in portions. -/
theorem advance_add (x : Executable) (config : Config) (clock : Clock) (m n : Nat) (s : State) :
    x.advance config clock (m + n) s =
      match x.advance config clock m s with
      | .running s => x.advance config clock n s
      | .finished machine => .finished machine
      | .failed fault => .failed fault := by
  induction m generalizing s with
  | zero => simp [advance]
  | succ m ih =>
    rw [Nat.succ_add, advance, advance]
    cases x.next config clock s with
    | running s => exact ih s
    | finished machine => rfl
    | failed fault => rfl

end Executable

end CowLang
