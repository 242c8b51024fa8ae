import CowLang.Proofs.Budget
import CowLang.Proofs.Pairing
import Mathlib.Algebra.Ring.Nat
/-!
# Bounds on the state of a run

Whatever the program, its loop table, the configuration and the input are, a run stays within bounds: the
tape keeps its length, the pointer stays on it, the cursor stays within the input, and cells and register
hold no more than the configuration allows.  `Machine.InBounds` says so of one machine.

The machine computes with numbers that have no largest one.  Within bounds, words of a fixed number of bits
give the same results.

Main statements: `Machine.Effect.inBounds` (no instruction leads out of bounds),
`Machine.InBounds.actInWords_eq` (arithmetic in words gives the same numbers) and
`Executable.inBounds_of_reached` (the bounds in every state of every run).
-/

namespace CowLang

namespace Machine

variable {config : Config} {input : String} {m m' : Machine} {token : Nat} {i : Instruction}

/-- What holds of the machine in every state of a run on an input. -/
structure InBounds (config : Config) (input : String) (m : Machine) : Prop where
  tapeLen_eq : m.tapeLen = max config.tapeLen 1
  pointer_lt : m.pointer < m.tapeLen
  input_eq : m.input = input.toList.toArray
  cursor_le : m.cursor ≤ input.length
  cell_le : ∀ value ∈ m.tape, value ≤ config.largestCell
  register_le : ∀ value ∈ m.register, value ≤ config.largestCell
  register_eq_none : config.registerMode = .inert → m.register = none

/-! ## Machines within bounds -/

theorem inBounds_start (config : Config) (input : String) :
    (start config.tapeLen input).InBounds config input where
  tapeLen_eq := tapeLen_start config.tapeLen input
  pointer_lt := by
    rw [tapeLen_start]
    exact Nat.lt_of_lt_of_le Nat.one_pos (Nat.le_max_right _ _)
  input_eq := rfl
  cursor_le := Nat.zero_le _
  cell_le := by
    intro value hvalue
    obtain ⟨-, rfl⟩ := Array.mem_replicate.1 hvalue
    exact Nat.zero_le _
  register_le := by
    intro value hvalue
    cases hvalue
  register_eq_none := fun _ => rfl

theorem getElem?_pointer (h : m.pointer < m.tapeLen) : m.tape[m.pointer]? = some m.current := by
  have hsize : m.pointer < m.tape.size := h
  rw [current, Array.getD_eq_getD_getElem?, Array.getElem?_eq_getElem hsize, Option.getD_some]

namespace InBounds

theorem current_le (h : m.InBounds config input) : m.current ≤ config.largestCell :=
  h.cell_le _ (Array.mem_of_getElem? (getElem?_pointer h.pointer_lt))

theorem tapeLen_pos (h : m.InBounds config input) : 0 < m.tapeLen :=
  Nat.zero_lt_of_lt h.pointer_lt

theorem tick (h : m.InBounds config input) : m.tick.InBounds config input :=
  ⟨h.tapeLen_eq, h.pointer_lt, h.input_eq, h.cursor_le, h.cell_le, h.register_le,
    h.register_eq_none⟩

/-- A cell may take any value that is not too large. -/
theorem setCurrent (h : m.InBounds config input) {value : Nat} (bound : value ≤ config.largestCell) :
    (m.setCurrent value).InBounds config input where
  tapeLen_eq := (tapeLen_setCurrent m value).trans h.tapeLen_eq
  pointer_lt := (tapeLen_setCurrent m value).symm ▸ h.pointer_lt
  input_eq := h.input_eq
  cursor_le := h.cursor_le
  cell_le := by
    intro v hv
    rcases Array.mem_or_eq_of_mem_setIfInBounds hv with hold | rfl
    · exact h.cell_le v hold
    · exact bound
  register_le := h.register_le
  register_eq_none := h.register_eq_none

end InBounds

/-- Nothing that an instruction can do leads out of bounds. -/
theorem Effect.inBounds (h : Effect config m m') (hm : m.InBounds config input) :
    m'.InBounds config input := by
  cases h with
  | stay => exact hm
  | move bound => exact { hm with pointer_lt := bound hm.pointer_lt }
  | store bound => exact hm.setCurrent (bound hm.current_le)
  | take bound unread =>
      have hlt : m.cursor < input.length := by
        rwa [hm.input_eq, List.size_toArray, String.length_toList] at unread
      exact { hm.setCurrent bound with cursor_le := hlt }
  | write => exact { hm with }
  | copy enabled =>
      -- An inert register would not have taken the value.
      refine { hm with register_le := fun value hvalue => ?_, register_eq_none := fun hinert => ?_ }
      · cases hvalue
        exact hm.current_le
      · rw [enabled] at hinert
        cases hinert
  | paste full =>
      refine { hm.setCurrent (hm.register_le _ full) with
        register_le := fun value hvalue => ?_, register_eq_none := fun _ => rfl }
      cases hvalue

/-! ## Arithmetic in words -/

/-- One more, in words of so many bits. -/
def wordSucc (bits n : Nat) : Nat := (BitVec.ofNat bits n + BitVec.ofNat bits 1).toNat

/-- One less, in words of so many bits. -/
def wordPred (bits n : Nat) : Nat := (BitVec.ofNat bits n - BitVec.ofNat bits 1).toNat

theorem wordSucc_eq {bits n : Nat} (h : n + 1 < 2 ^ bits) : wordSucc bits n = n + 1 := by
  have hone : 1 % 2 ^ bits = 1 := Nat.mod_eq_of_lt (by omega)
  have hn : n % 2 ^ bits = n := Nat.mod_eq_of_lt (by omega)
  rw [wordSucc, BitVec.toNat_add, BitVec.toNat_ofNat, BitVec.toNat_ofNat, hone, hn,
    Nat.mod_eq_of_lt h]

theorem wordPred_eq {bits n : Nat} (hpos : 0 < n) (h : n < 2 ^ bits) : wordPred bits n = n - 1 := by
  have hone : 1 % 2 ^ bits = 1 := Nat.mod_eq_of_lt (by omega)
  have hn : n % 2 ^ bits = n := Nat.mod_eq_of_lt h
  have hround : 2 ^ bits - 1 + n = n - 1 + 2 ^ bits := by omega
  rw [wordPred, BitVec.toNat_sub, BitVec.toNat_ofNat, BitVec.toNat_ofNat, hone, hn, hround,
    Nat.add_mod_right, Nat.mod_eq_of_lt (by omega)]

/-- What the instruction at index `token` does when an index is a word of `bits` bits and a cell is one of
32 bits. -/
def actInWords (bits : Nat) (config : Config) (token : Nat) (m : Machine) :
    Instruction → Except Fault Machine
  | .pointerRight =>
    if wordSucc bits m.pointer < m.tapeLen then .ok (m.setPointer (wordSucc bits m.pointer))
    else
      match config.pointerPolicy with
      | .strict => .error (.pointerOverflow token m.tapeLen)
      | .wrap => .ok (m.setPointer 0)
  | .pointerLeft =>
    if 0 < m.pointer then .ok (m.setPointer (wordPred bits m.pointer))
    else
      match config.pointerPolicy with
      | .strict => .error (.pointerUnderflow token)
      | .wrap => .ok (m.setPointer (wordPred bits m.tapeLen))
  | .increment =>
    match config.overflowPolicy with
    | .wrap =>
      if maxByte ≤ m.current then .ok (m.setCurrent 0)
      else .ok (m.setCurrent (wordSucc 32 m.current))
    | .unbounded =>
      if maxCell ≤ m.current then .error (.cellOverflow token m.pointer)
      else .ok (m.setCurrent (wordSucc 32 m.current))
  | .decrement =>
    if 0 < m.current then .ok (m.setCurrent (wordPred 32 m.current))
    else
      match config.underflowPolicy with
      | .strict => .error (.cellUnderflow token m.pointer)
      | .wrap => .ok (m.setCurrent maxByte)
  | i => m.act config token i

/-- Within bounds no sum and no difference leaves the range of the words. -/
theorem InBounds.actInWords_eq (hm : m.InBounds config input) {bits : Nat}
    (hlen : m.tapeLen < 2 ^ bits) : m.actInWords bits config token i = m.act config token i := by
  have hpointer := hm.pointer_lt
  have hcell : m.current ≤ maxCell := hm.current_le.trans config.largestCell_le_maxCell
  have hword : maxCell < 2 ^ 32 := by decide
  cases i with
  | pointerRight =>
      -- The tape is a word long, so there is room for one place behind its last cell.
      have hright : wordSucc bits m.pointer = m.pointer + 1 := wordSucc_eq (by omega)
      cases hpolicy : config.pointerPolicy <;> simp only [actInWords, act, moveRight, hright, hpolicy]
  | pointerLeft =>
      have hlast : wordPred bits m.tapeLen = m.tapeLen - 1 := wordPred_eq hm.tapeLen_pos hlen
      by_cases hpos : 0 < m.pointer
      · have hleft : wordPred bits m.pointer = m.pointer - 1 := wordPred_eq hpos (by omega)
        simp only [actInWords, act, moveLeft, if_pos hpos, hleft]
      · cases hpolicy : config.pointerPolicy <;>
          simp only [actInWords, act, moveLeft, if_neg hpos, hlast, hpolicy]
  | increment =>
      have hmore (h : ¬ maxCell ≤ m.current) : wordSucc 32 m.current = m.current + 1 :=
        wordSucc_eq (by omega)
      cases hpolicy : config.overflowPolicy with
      | wrap =>
          have hbyte : maxByte < maxCell := by decide
          by_cases hlarge : maxByte ≤ m.current
          · simp only [actInWords, act, increment, hpolicy, if_pos hlarge]
          · simp only [actInWords, act, increment, hpolicy, if_neg hlarge, hmore (by omega)]
      | unbounded =>
          by_cases hlarge : maxCell ≤ m.current
          · simp only [actInWords, act, increment, hpolicy, if_pos hlarge]
          · simp only [actInWords, act, increment, hpolicy, if_neg hlarge, hmore hlarge]
  | decrement =>
      by_cases hpos : 0 < m.current
      · have hless : wordPred 32 m.current = m.current - 1 := wordPred_eq hpos (by omega)
        simp only [actInWords, act, decrement, if_pos hpos, hless]
      · cases hpolicy : config.underflowPolicy <;>
          simp only [actInWords, act, decrement, if_neg hpos, hpolicy]
  | _ => rfl

end Machine

/-! ## Whole runs -/

namespace Executable

variable {x : Executable} {config : Config} {clock : Clock} {input : String}

theorem inBounds_of_next {s s' : State} (hs : s.machine.InBounds config input)
    (h : x.next config clock s = .running s') : s'.machine.InBounds config input := by
  obtain ⟨i, m, -, -, hact, -, hmachine⟩ := next_eq_running_iff.1 h
  rw [hmachine]
  exact ((Machine.effect_act hact).inBounds hs).tick

theorem inBounds_of_advance {count : Nat} {s : State}
    (h : x.advance config clock count (initial config input) = .running s) :
    s.machine.InBounds config input :=
  invariant_of_advance (P := fun s => s.machine.InBounds config input)
    (fun _ _ => inBounds_of_next) (Machine.inBounds_start config input) h

theorem lt_size_of_instruction? {p : Program} {token : Nat} {i : Instruction}
    (h : p.instruction? token = some i) : token < p.size := by
  rw [Program.instruction?_eq_getElem?] at h
  obtain ⟨hlt, -⟩ := List.getElem?_eq_some_iff.1 h
  rwa [Program.length_instructions] at hlt

/-- A program's own table never leads out of the program. -/
theorem target?_lt_size {p : Program} {loops : LoopTable} (h : LoopTable.ofProgram p = .ok loops)
    {token last : Nat} (htarget : loops.target? token = some last) : last < p.size := by
  -- The program is the text of a block, and a jump leads to the other end of one of its loops.
  obtain ⟨b, hb, rfl⟩ := LoopTable.ofProgram_eq_ok_iff.1 h
  rw [Block.target?_loopTable] at htarget
  obtain ⟨i, c, hloop, hends⟩ := Block.exists_loopAt_of_partner? htarget
  have hclose := hloop.close_lt
  rw [← Program.length_instructions, ← hb, Block.length_flatten]
  omega

theorem successor?_le_size {p : Program} {loops : LoopTable}
    (h : LoopTable.ofProgram p = .ok loops) {token token' : Nat} {m : Machine} {i : Instruction}
    (hi : p.instruction? token = some i) (hsucc : successor? loops token m i = some token') :
    token' ≤ p.size := by
  have hnext : token + 1 ≤ p.size := lt_size_of_instruction? hi
  have hjump (hmap : (loops.target? token).map (· + 1) = some token') : token' ≤ p.size := by
    obtain ⟨last, htarget, rfl⟩ := Option.map_eq_some_iff.1 hmap
    exact target?_lt_size h htarget
  -- Only the loop instructions follow the table.
  by_cases plain : i.isLoop = false
  · rw [successor?_simple plain] at hsucc
    cases hsucc
    exact hnext
  · cases i with
    | loopOpen =>
        rw [successor?] at hsucc
        split at hsucc
        · exact hjump hsucc
        · cases hsucc
          exact hnext
    | loopClose =>
        rw [successor?] at hsucc
        split at hsucc
        · cases hsucc
          exact hnext
        · exact hjump hsucc
    | _ => exact absurd rfl plain

/-- With the program's own table, the run never goes on behind the end of the program. -/
theorem token_le_size_of_advance {count : Nat} {s s' : State}
    (hloops : LoopTable.ofProgram x.program = .ok x.loops) (hs : s.token ≤ x.program.size)
    (h : x.advance config clock count s = .running s') : s'.token ≤ x.program.size := by
  refine invariant_of_advance (P := fun s => s.token ≤ x.program.size) ?_ hs h
  intro s s' _ hnext
  obtain ⟨i, m, hi, -, -, hsucc, -⟩ := next_eq_running_iff.1 hnext
  exact successor?_le_size hloops hi hsucc

/-- The state that any run on any input reaches after `count` steps is within bounds and has counted these
steps.  The pointer is at a cell; words are large enough for whatever the next instruction computes, as
long as the length of the tape is one; the next step, if there is one, is made at a token of the program
and changes no more than a step may; and if there is none, the machine is the result.  The program's own
table keeps the token index within the program, and other tables need not. -/
theorem inBounds_of_reached (x : Executable) (config : Config) (clock : Clock) (input : String)
    (count : Nat) (s : State)
    (h : x.advance config clock count (initial config input) = .running s) :
    s.machine.InBounds config input ∧
    s.machine.steps = count ∧
    s.machine.tape[s.machine.pointer]? = some s.machine.current ∧
    (∀ bits, s.machine.tapeLen < 2 ^ bits → ∀ token i,
      s.machine.actInWords bits config token i = s.machine.act config token i) ∧
    (∀ s', x.next config clock s = .running s' →
      s.token < x.program.size ∧ s.machine.Follows s'.machine) ∧
    (∀ m, x.next config clock s = .finished m → m = s.machine) ∧
    (LoopTable.ofProgram x.program = .ok x.loops → s.token ≤ x.program.size) := by
  have hbounds := inBounds_of_advance h
  refine ⟨hbounds, ?_, Machine.getElem?_pointer hbounds.pointer_lt,
    fun bits hlen token i => hbounds.actInWords_eq hlen, fun s' hnext => ?_, fun m hend => ?_,
    fun hloops => token_le_size_of_advance hloops (Nat.zero_le _) h⟩
  · exact (steps_of_advance_running h).trans (Nat.zero_add count)
  · obtain ⟨i, m, hi, -, hact, -, hmachine⟩ := next_eq_running_iff.1 hnext
    rw [hmachine]
    exact ⟨lt_size_of_instruction? hi, (Machine.effect_act hact).follows⟩
  · exact (next_eq_finished_iff.1 hend).2.symm

/-- On a tape that is asked to have no cells, `MOo MMM moo` takes 255 into the register and then follows a
table made for another program, to a token far behind its end. -/
theorem inBounds_of_reached_behind_end :
    let x : Executable := ⟨.ofInstructions [.decrement, .register, .loopClose],
      ⟨#[none, none, some 7, none, none, none, none, some 2], 1⟩⟩
    let config : Config := { tapeLen := 0, underflowPolicy := .wrap, registerMode := .transfer }
    let s : State := ⟨8, ⟨#[255], 0, #[], 0, "", some 255, 3⟩⟩
    x.advance config (fun _ => 0) 3 (initial config "") = .running s ∧
      s.machine.InBounds config "" ∧ s.machine.steps = 3 ∧ s.machine.tape[0]? = some 255 := by
  intro x config s
  have hrun : x.advance config (fun _ => 0) 3 (initial config "") = .running s := rfl
  obtain ⟨hbounds, hsteps, hcell, -⟩ :=
    inBounds_of_reached x config (fun _ => 0) "" 3 s hrun
  exact ⟨hrun, hbounds, hsteps, hcell⟩

end Executable

end CowLang
