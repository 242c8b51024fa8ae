import CowLang.Proofs.Faults
import Mathlib.Data.ZMod.Basic
/-!
# The machine that wraps around

Where every policy is to wrap around, a tape of `n` cells is a ring of cells, each of them a ring of 256
values.  The pointer is a remainder modulo `n` and a cell is one modulo 256; the four instructions that move
the pointer or change a cell by one add one or minus one, without boundaries, and nothing but a step budget
can stop a run.

`ModularMachine` is that machine.  The machine that is run is its image under taking the smallest
representatives, in every state of every run.

Main statements: `ModularMachine.act_toMachine` (one instruction), `ModularState.next_toState` (one step) and
`ModularState.advance_toState` (a run).
-/

namespace CowLang

/-- Every policy is to wrap around. -/
structure Config.Wraps (config : Config) : Prop where
  pointer : config.pointerPolicy = .wrap
  underflow : config.underflowPolicy = .wrap
  overflow : config.overflowPolicy = .wrap

/-- A tape has at least one cell. -/
instance neZero_max_one (tapeLen : Nat) : NeZero (max tapeLen 1) :=
  ⟨Nat.ne_of_gt (Nat.lt_of_lt_of_le Nat.one_pos (Nat.le_max_right tapeLen 1))⟩

/-! ## Remainders -/

section Remainders

variable {n : Nat} [NeZero n] (z : ZMod n)

/-- One more is one more, but behind the largest remainder comes zero. -/
theorem val_add_one : (z + 1).val = if z.val + 1 < n then z.val + 1 else 0 := by
  have hlt := z.val_lt
  have hsum : z + 1 = ((z.val + 1 : Nat) : ZMod n) := by
    rw [Nat.cast_add, ZMod.natCast_zmod_val, Nat.cast_one]
  rw [hsum, ZMod.val_natCast]
  split
  · next h => exact Nat.mod_eq_of_lt h
  · next h =>
      have hn : z.val + 1 = n := by omega
      rw [hn, Nat.mod_self]

/-- One less is one less, but before zero comes the largest remainder. -/
theorem val_add_neg_one : (z + -1).val = if 0 < z.val then z.val - 1 else n - 1 := by
  have hlt := z.val_lt
  have hpos : 1 ≤ n := NeZero.one_le
  have hminus : (-1 : ZMod n) = ((n - 1 : Nat) : ZMod n) := by
    rw [Nat.cast_sub hpos, ZMod.natCast_self, Nat.cast_one, zero_sub]
  have hsum : z + -1 = ((z.val + (n - 1) : Nat) : ZMod n) := by
    rw [Nat.cast_add, ZMod.natCast_zmod_val, hminus]
  rw [hsum, ZMod.val_natCast]
  split
  · next h =>
      have hround : z.val + (n - 1) = z.val - 1 + n := by omega
      rw [hround, Nat.add_mod_right, Nat.mod_eq_of_lt (by omega)]
  · next h =>
      have hzero : z.val = 0 := by omega
      rw [hzero, Nat.zero_add, Nat.mod_eq_of_lt (by omega)]

end Remainders

/-! ## The machine over remainders -/

/-- A machine with a ring of `n` cells. -/
structure ModularMachine (n : Nat) where
  /-- The cells. -/
  cells : ZMod n → ZMod 256
  /-- The index of the current cell. -/
  pointer : ZMod n
  /-- The characters to be read. -/
  input : Array Char
  /-- The number of characters read so far. -/
  cursor : Nat
  /-- The characters written so far. -/
  output : String
  /-- The content of the register, if there is any. -/
  register : Option (ZMod 256)
  /-- The number of instructions executed so far. -/
  steps : Nat

namespace ModularMachine

variable {n : Nat}

/-- A fresh machine: zero cells, and nothing read or written yet. -/
def start (n : Nat) (input : String) : ModularMachine n where
  cells := fun _ => 0
  pointer := 0
  input := input.toList.toArray
  cursor := 0
  output := ""
  register := none
  steps := 0

/-- The value of the current cell. -/
def current (m : ModularMachine n) : ZMod 256 := m.cells m.pointer

/-- Gives the current cell a value. -/
def setCurrent (m : ModularMachine n) (value : ZMod 256) : ModularMachine n :=
  { m with cells := Function.update m.cells m.pointer value }

/-- Adds to the pointer. -/
def move (m : ModularMachine n) (distance : ZMod n) : ModularMachine n :=
  { m with pointer := m.pointer + distance }

/-- Adds to the current cell. -/
def addCurrent (m : ModularMachine n) (amount : ZMod 256) : ModularMachine n :=
  m.setCurrent (m.current + amount)

/-- Counts one executed instruction. -/
def tick (m : ModularMachine n) : ModularMachine n :=
  { m with steps := m.steps + 1 }

/-- Stores the next input character in the current cell, and zero at the end of the input. -/
def read (m : ModularMachine n) : ModularMachine n :=
  match m.input[m.cursor]? with
  | some c => { m.setCurrent c.toNat with cursor := m.cursor + 1 }
  | none => m.setCurrent 0

/-- Writes the current cell as a character. -/
def write (m : ModularMachine n) : ModularMachine n :=
  { m with output := m.output.push (cellChar m.current.val) }

/-- Moves a value between the current cell and the register. -/
def transfer (m : ModularMachine n) : ModularMachine n :=
  match m.register with
  | some value => { m.setCurrent value with register := none }
  | none => { m with register := some m.current }

/-- What an instruction does to the machine; none of them can fail. -/
def act (mode : RegisterMode) (m : ModularMachine n) : Instruction → ModularMachine n
  | .pointerRight => m.move 1
  | .pointerLeft => m.move (-1)
  | .increment => m.addCurrent 1
  | .decrement => m.addCurrent (-1)
  | .input => m.read
  | .output => m.write
  | .reset => m.setCurrent 0
  | .register =>
    match mode with
    | .inert => m
    | .transfer => m.transfer
  | .conditionalIo => if m.current = 0 then m.read else m.write
  | .exec | .loopOpen | .loopClose => m

/-! ## Smallest representatives -/

section ToMachine

/-- The machine with the smallest representatives of the remainders. -/
def toMachine (m : ModularMachine n) : Machine where
  tape := Array.ofFn fun i : Fin n => (m.cells (i : Nat)).val
  pointer := m.pointer.val
  input := m.input
  cursor := m.cursor
  output := m.output
  register := m.register.map ZMod.val
  steps := m.steps

variable {m : ModularMachine n} {config : Config}

theorem tapeLen_toMachine : m.toMachine.tapeLen = n :=
  Array.size_ofFn

variable [NeZero n]

theorem toMachine_start (tapeLen : Nat) (input : String) :
    (start (max tapeLen 1) input).toMachine = .start tapeLen input := by
  have htape : (Array.ofFn fun _ : Fin (max tapeLen 1) => 0) = Array.replicate (max tapeLen 1) 0 := by
    ext i hi hi'
    · simp
    · simp
  simp only [toMachine, start, Machine.start, ZMod.val_zero, htape, Option.map_none]

theorem current_toMachine : m.toMachine.current = m.current.val := by
  rw [Machine.current, toMachine, Array.getD_eq_getD_getElem?, Array.getElem?_ofFn]
  simp only [ZMod.val_lt, dite_true, Option.getD_some, ZMod.natCast_zmod_val, current]

theorem current_toMachine_eq_zero_iff : m.toMachine.current = 0 ↔ m.current = 0 := by
  rw [current_toMachine, ZMod.val_eq_zero]

theorem toMachine_setCurrent (value : ZMod 256) :
    (m.setCurrent value).toMachine = m.toMachine.setCurrent value.val := by
  have htape : (Array.ofFn fun i : Fin n => (Function.update m.cells m.pointer value (i : Nat)).val) =
      (Array.ofFn fun i : Fin n => (m.cells (i : Nat)).val).setIfInBounds m.pointer.val value.val := by
    ext i hi hi'
    · simp
    · have hlt : i < n := by simpa using hi
      have hindex : (i : ZMod n) = m.pointer ↔ m.pointer.val = i := by
        constructor
        · intro heq
          rw [← heq, ZMod.val_cast_of_lt hlt]
        · rintro rfl
          exact ZMod.natCast_zmod_val m.pointer
      rw [Array.getElem_setIfInBounds (by simpa using hlt)]
      simp only [Array.getElem_ofFn, Function.update_apply, hindex]
      split <;> rfl
  simp only [toMachine, setCurrent, Machine.setCurrent, htape]

theorem toMachine_move_one (token : Nat) :
    m.toMachine.moveRight .wrap token = .ok (m.move 1).toMachine := by
  have hpointer : m.toMachine.pointer = m.pointer.val := rfl
  rw [Machine.moveRight, tapeLen_toMachine, hpointer]
  simp only [toMachine, move, val_add_one, Machine.setPointer]
  split <;> rfl

theorem toMachine_move_neg_one (token : Nat) :
    m.toMachine.moveLeft .wrap token = .ok (m.move (-1)).toMachine := by
  have hpointer : m.toMachine.pointer = m.pointer.val := rfl
  rw [Machine.moveLeft, tapeLen_toMachine, hpointer]
  simp only [toMachine, move, val_add_neg_one, Machine.setPointer]
  split <;> rfl

theorem toMachine_addCurrent_one (token : Nat) :
    m.toMachine.increment .wrap token = .ok (m.addCurrent 1).toMachine := by
  rw [addCurrent, toMachine_setCurrent, val_add_one, Machine.increment, current_toMachine, Machine.maxByte]
  by_cases hfull : 255 ≤ m.current.val
  · rw [if_pos hfull, if_neg (by omega)]
  · rw [if_neg hfull, if_pos (by omega)]

theorem toMachine_addCurrent_neg_one (token : Nat) :
    m.toMachine.decrement .wrap token = .ok (m.addCurrent (-1)).toMachine := by
  rw [addCurrent, toMachine_setCurrent, val_add_neg_one, Machine.decrement, current_toMachine, Machine.maxByte]
  split <;> rfl

theorem toMachine_read : m.read.toMachine = m.toMachine.read := by
  have hinput : m.toMachine.input[m.toMachine.cursor]? = m.input[m.cursor]? := rfl
  rw [read, Machine.read, hinput]
  cases m.input[m.cursor]? with
  | none => exact toMachine_setCurrent 0
  | some c =>
      have hstore := toMachine_setCurrent (m := m) (c.toNat : ZMod 256)
      rw [ZMod.val_natCast] at hstore
      exact congrArg (fun machine : Machine => { machine with cursor := m.cursor + 1 }) hstore

theorem toMachine_write : m.write.toMachine = m.toMachine.write := by
  rw [Machine.write, current_toMachine]
  rfl

theorem toMachine_transfer : m.transfer.toMachine = m.toMachine.transfer := by
  have hregister : m.toMachine.register = m.register.map ZMod.val := rfl
  rw [transfer, Machine.transfer, hregister]
  cases m.register with
  | none =>
      rw [current_toMachine]
      rfl
  | some value =>
      have hstore := toMachine_setCurrent (m := m) value
      exact congrArg (fun machine : Machine => { machine with register := none }) hstore

/-- With wraparound, an instruction does what it does to the remainders. -/
theorem act_toMachine (h : config.Wraps) (token : Nat) (i : Instruction) :
    m.toMachine.act config token i = .ok (m.act config.registerMode i).toMachine := by
  cases i with
  | pointerRight =>
      rw [Machine.act, h.pointer]
      exact toMachine_move_one token
  | pointerLeft =>
      rw [Machine.act, h.pointer]
      exact toMachine_move_neg_one token
  | increment =>
      rw [Machine.act, h.overflow]
      exact toMachine_addCurrent_one token
  | decrement =>
      rw [Machine.act, h.underflow]
      exact toMachine_addCurrent_neg_one token
  | input => exact congrArg Except.ok toMachine_read.symm
  | output => exact congrArg Except.ok toMachine_write.symm
  | reset => exact congrArg Except.ok (toMachine_setCurrent 0).symm
  | register =>
      simp only [Machine.act, act, ← toMachine_transfer]
      cases config.registerMode <;> rfl
  | conditionalIo =>
      simp only [Machine.act, act, current_toMachine_eq_zero_iff, ← toMachine_read, ← toMachine_write,
        ← apply_ite toMachine]
  | exec | loopOpen | loopClose => rfl

end ToMachine

end ModularMachine

/-! ## Runs over remainders -/

/-- A point in a run of the machine over remainders. -/
structure ModularState (n : Nat) where
  /-- The index of the token to be executed next. -/
  token : Nat
  /-- The machine before that token is executed. -/
  machine : ModularMachine n

/-- How far a run of the machine over remainders has come; only a step budget gives it up. -/
inductive ModularProgress (n : Nat) where
  | running (state : ModularState n)
  | finished (machine : ModularMachine n)
  | exhausted (limit : Nat)

namespace ModularState

variable {n : Nat}

/-- Where the run goes on: after the partner of a loop instruction that jumps, and otherwise after the
token. -/
def successor (loops : LoopTable) (s : ModularState n) : Instruction → Nat
  | .loopOpen => if s.machine.current = 0 then partner + 1 else s.token + 1
  | .loopClose => if s.machine.current = 0 then s.token + 1 else partner + 1
  | _ => s.token + 1
where
  /-- The partner of the token, which a loop instruction has. -/
  partner : Nat := (loops.target? s.token).getD s.token

/-- Makes one step. -/
def next (x : Executable) (config : Config) (s : ModularState n) : ModularProgress n :=
  match x.program.instruction? s.token with
  | none => .finished s.machine
  | some i =>
    match config.maxSteps.filter (· ≤ s.machine.steps) with
    | some limit => .exhausted limit
    | none => .running ⟨s.successor x.loops i, (s.machine.act config.registerMode i).tick⟩

/-- Makes up to `count` steps. -/
def advance (x : Executable) (config : Config) : Nat → ModularState n → ModularProgress n
  | 0, s => .running s
  | count + 1, s =>
    match s.next x config with
    | .running s => advance x config count s
    | .finished machine => .finished machine
    | .exhausted limit => .exhausted limit

/-- The state in which a run on an input starts. -/
def initial (n : Nat) (input : String) : ModularState n :=
  ⟨0, .start n input⟩

/-- The state with the smallest representatives of the remainders. -/
def toState (s : ModularState n) : State :=
  ⟨s.token, s.machine.toMachine⟩

end ModularState

/-- The progress with the smallest representatives of the remainders. -/
def ModularProgress.toProgress {n : Nat} : ModularProgress n → Progress
  | .running s => .running s.toState
  | .finished m => .finished m.toMachine
  | .exhausted limit => .failed (.stepLimitExceeded limit)

theorem ModularProgress.exists_of_toProgress_eq_running {n : Nat} {p : ModularProgress n} {s : State}
    (h : p.toProgress = .running s) : ∃ a : ModularState n, s = a.toState := by
  cases p with
  | running a => exact ⟨a, (Progress.running.inj h).symm⟩
  | finished m => cases h
  | exhausted limit => cases h

theorem ModularProgress.eq_of_toProgress_eq_ofResult {n : Nat} {p : ModularProgress n}
    {result : Except Fault Machine} (h : p.toProgress = .ofResult result) :
    (∃ m : ModularMachine n, p = .finished m ∧ result = .ok m.toMachine) ∨
      ∃ limit, p = .exhausted limit ∧ result = .error (.stepLimitExceeded limit) := by
  cases p with
  | running a => exact absurd h.symm (Progress.ofResult_ne_running result _)
  | finished m => exact .inl ⟨m, rfl, Progress.ofResult_injective h.symm⟩
  | exhausted limit => exact .inr ⟨limit, rfl, Progress.ofResult_injective h.symm⟩

namespace ModularState

variable {n : Nat} {s : ModularState n} {x : Executable} {config : Config} {clock : Clock}

theorem successor_simple {loops : LoopTable} {i : Instruction} (plain : i.isLoop = false) :
    s.successor loops i = s.token + 1 := by
  cases i with
  | loopOpen | loopClose => cases plain
  | _ => rfl

/-- A jump that the table knows leads where it does over remainders. -/
theorem successor_eq [NeZero n] {loops : LoopTable} {i : Instruction} {token : Nat}
    (h : Executable.successor? loops s.token s.machine.toMachine i = some token) :
    s.successor loops i = token := by
  have hjump (htarget : (loops.target? s.token).map (· + 1) = some token) :
      successor.partner loops s + 1 = token := by
    obtain ⟨last, hlast, rfl⟩ := Option.map_eq_some_iff.1 htarget
    rw [successor.partner, hlast, Option.getD_some]
  by_cases plain : i.isLoop = false
  · rw [Executable.successor?_simple plain] at h
    rw [successor_simple plain, Option.some.inj h]
  · cases i with
    | loopOpen =>
        simp only [Executable.successor?, ModularMachine.current_toMachine_eq_zero_iff] at h
        rw [successor]
        split at h
        · next hzero => rw [if_pos hzero, hjump h]
        · next hzero => rw [if_neg hzero, Option.some.inj h]
    | loopClose =>
        simp only [Executable.successor?, ModularMachine.current_toMachine_eq_zero_iff] at h
        rw [successor]
        split at h
        · next hzero => rw [if_pos hzero, Option.some.inj h]
        · next hzero => rw [if_neg hzero, hjump h]
    | _ => exact absurd rfl plain

/-- Without a budget, the run goes on wherever there is an instruction. -/
theorem next_eq_running {i : Instruction} (hmax : config.maxSteps = none)
    (hi : x.program.instruction? s.token = some i) :
    s.next x config =
      .running ⟨s.successor x.loops i, (s.machine.act config.registerMode i).tick⟩ := by
  simp only [next, hi, hmax, Option.filter_none]

theorem next_ne_exhausted (hmax : config.maxSteps = none) (limit : Nat) :
    s.next x config ≠ .exhausted limit := by
  cases hi : x.program.instruction? s.token with
  | none =>
      simp only [next, hi]
      exact nofun
  | some i =>
      rw [next_eq_running hmax hi]
      exact nofun

variable [NeZero n]

/-- With wraparound, a step does what it does over remainders. -/
theorem next_toState (hloops : LoopTable.ofProgram x.program = .ok x.loops) (h : config.Wraps)
    (htimeout : config.timeout = none) :
    x.next config clock s.toState = (s.next x config).toProgress := by
  have htoken : s.toState.token = s.token := rfl
  have hlimit : Executable.limit? config clock s.machine.steps =
      (config.maxSteps.filter (· ≤ s.machine.steps)).map Fault.stepLimitExceeded := by
    rw [Executable.limit?_eq_exhausted? htimeout, Config.exhausted?]
    cases config.maxSteps with
    | none => rfl
    | some limit => by_cases hused : limit ≤ s.machine.steps <;> simp [Option.filter, hused]
  cases hi : x.program.instruction? s.token with
  | none =>
      simp only [Executable.next, next, htoken, hi]
      rfl
  | some i =>
      cases hspent : config.maxSteps.filter (· ≤ s.machine.steps) with
      | some limit =>
          rw [hspent, Option.map_some] at hlimit
          rw [Executable.next_eq_failed_of_limit hi hlimit]
          simp only [next, hi, hspent]
          rfl
      | none =>
          rw [hspent, Option.map_none] at hlimit
          obtain ⟨token, hsucc⟩ := Executable.exists_successor?_eq_some hloops hi s.machine.toMachine
          have hact := ModularMachine.act_toMachine (m := s.machine) h s.token i
          have hnext : x.next config clock s.toState = .running
              ⟨token, (s.machine.act config.registerMode i).toMachine.tick⟩ :=
            Executable.next_eq_running_iff.2 ⟨i, _, hi, hlimit, hact, hsucc, rfl⟩
          rw [hnext]
          simp only [next, hi, hspent, successor_eq hsucc]
          rfl

/-- With wraparound, a run is the run over remainders. -/
theorem advance_toState (hloops : LoopTable.ofProgram x.program = .ok x.loops) (h : config.Wraps)
    (htimeout : config.timeout = none) (count : Nat) (s : ModularState n) :
    x.advance config clock count s.toState = (s.advance x config count).toProgress := by
  induction count generalizing s with
  | zero => rfl
  | succ count ih =>
      rw [Executable.advance, advance, next_toState hloops h htimeout]
      cases s.next x config with
      | running s => exact ih s
      | finished m => rfl
      | exhausted limit => rfl

theorem toState_initial (config : Config) (input : String) :
    (initial (max config.tapeLen 1) input).toState = Executable.initial config input :=
  congrArg (State.mk 0) (ModularMachine.toMachine_start config.tapeLen input)

end ModularState

end CowLang
