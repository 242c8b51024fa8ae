import CowLang.Proofs.Bounds
/-!
# Runs on longer tapes

The length of the tape matters at its last cell and, when the pointer wraps around, at the first one.  Under
a strict policy only a move beyond the last cell asks for it, and that move fails.  So a run that does not
fail there is the same run on a longer tape, with more zero cells behind the others.

The pointer starts at the first cell and moves by one cell a step, so a run of a few steps leaves all but as
many cells alone.

Main statements: `Machine.act_extend` (one instruction on a longer tape), `Executable.endsFrom_withTape_iff`
(how a run ends on a longer tape), `Executable.isNear_of_advance` (the cells that a run can have come to) and
`Executable.endsFrom_longer_tape` (all of it together).
-/

namespace CowLang

/-- The same configuration with another length of the tape. -/
def Config.withTape (config : Config) (tapeLen : Nat) : Config := { config with tapeLen }

/-- Whether a fault is one of a pointer that would have passed the last cell. -/
def Fault.isPointerOverflow : Fault → Bool
  | .pointerOverflow _ _ => true
  | _ => false

/-! ## Single instructions -/

namespace Machine

variable {config : Config} {m m' : Machine} {token extra tapeLen : Nat} {i : Instruction}
  {fault : Fault}

/-- The same machine with more zero cells behind its tape. -/
def extend (m : Machine) (extra : Nat) : Machine :=
  { m with tape := m.tape ++ Array.replicate extra 0 }

theorem start_extend {tapeLen' : Nat} (h : max tapeLen 1 ≤ tapeLen') (input : String) :
    (start tapeLen input).extend (tapeLen' - max tapeLen 1) = start tapeLen' input := by
  have htape : max tapeLen 1 + (tapeLen' - max tapeLen 1) = max tapeLen' 1 := by omega
  simp only [extend, start, Array.replicate_append_replicate, htape]

theorem tapeLen_extend : (m.extend extra).tapeLen = m.tapeLen + extra := by
  simp [extend, Machine.tapeLen]

/-- Where there was no cell, there is a zero cell now or none as before. -/
@[simp]
theorem current_extend : (m.extend extra).current = m.current := by
  simp only [current, extend, Array.getD_eq_getD_getElem?, Array.getElem?_append,
    Array.getElem?_replicate]
  by_cases hcell : m.pointer < m.tape.size
  · rw [if_pos hcell]
  · have hnone : m.tape[m.pointer]? = none := Array.getElem?_eq_none (Nat.le_of_not_lt hcell)
    rw [if_neg hcell, hnone]
    split <;> rfl

theorem setCurrent_extend (hpointer : m.pointer < m.tapeLen) (value : Nat) :
    (m.extend extra).setCurrent value = (m.setCurrent value).extend extra := by
  have hcell : m.pointer < m.tape.size := hpointer
  simp only [setCurrent, extend, Array.setIfInBounds_append_left hcell]

theorem read_extend (hpointer : m.pointer < m.tapeLen) :
    (m.extend extra).read = m.read.extend extra := by
  have hinput : (m.extend extra).input[(m.extend extra).cursor]? = m.input[m.cursor]? := rfl
  rw [read, read, hinput]
  cases m.input[m.cursor]? with
  | none => exact setCurrent_extend hpointer 0
  | some c =>
      dsimp only
      rw [setCurrent_extend hpointer]
      rfl

theorem write_extend : (m.extend extra).write = m.write.extend extra := by
  rw [write, write, current_extend]
  rfl

theorem transfer_extend (hpointer : m.pointer < m.tapeLen) :
    (m.extend extra).transfer = m.transfer.extend extra := by
  have hregister : (m.extend extra).register = m.register := rfl
  rw [transfer, transfer, hregister]
  cases m.register with
  | none =>
      dsimp only
      rw [current_extend]
      rfl
  | some value =>
      dsimp only
      rw [setCurrent_extend hpointer]
      rfl

/-- Under a strict policy, a move to the right that does not fail ends on the shorter tape. -/
theorem moveRight_extend
    (hinside : ∀ fault, m.moveRight .strict token = .error fault → fault.isPointerOverflow = false) :
    (m.extend extra).moveRight .strict token =
      (m.moveRight .strict token).map (·.extend extra) := by
  by_cases hright : m.pointer + 1 < m.tapeLen
  · have hright' : (m.extend extra).pointer + 1 < (m.extend extra).tapeLen := by
      rw [tapeLen_extend]
      exact Nat.lt_add_right extra hright
    simp only [moveRight, if_pos hright, if_pos hright']
    rfl
  · have hfails : m.moveRight .strict token = .error (.pointerOverflow token m.tapeLen) := by
      simp only [moveRight, if_neg hright]
    exact absurd (hinside _ hfails) (by simp [Fault.isPointerOverflow])

/-- An instruction does the same on a longer tape, unless it fails beyond the last cell. -/
theorem act_extend (hpointer : m.pointer < m.tapeLen) (hstrict : config.pointerPolicy = .strict)
    (hinside : ∀ fault, m.act config token i = .error fault → fault.isPointerOverflow = false) :
    (m.extend extra).act (config.withTape tapeLen) token i =
      (m.act config token i).map (·.extend extra) := by
  cases i with
  | pointerRight =>
      rw [act, hstrict] at hinside
      rw [act, act, Config.withTape, hstrict]
      exact moveRight_extend hinside
  | pointerLeft =>
      -- The last cell is looked for only by a pointer that wraps around.
      rw [act, act, Config.withTape, hstrict, moveLeft, moveLeft, apply_ite (Except.map _)]
      rfl
  | increment =>
      simp only [act, Config.withTape, increment, current_extend, setCurrent_extend hpointer]
      cases config.overflowPolicy <;> dsimp only <;> split <;> rfl
  | decrement =>
      simp only [act, Config.withTape, decrement, current_extend, setCurrent_extend hpointer]
      split
      · rfl
      · cases config.underflowPolicy <;> rfl
  | reset => exact congrArg Except.ok (setCurrent_extend hpointer 0)
  | input => exact congrArg Except.ok (read_extend hpointer)
  | output => exact congrArg Except.ok write_extend
  | register =>
      simp only [act, Config.withTape, transfer_extend hpointer]
      cases config.registerMode <;> rfl
  | conditionalIo =>
      simp only [act, current_extend, read_extend hpointer, write_extend]
      split <;> rfl
  | exec | loopOpen | loopClose => rfl

/-! ## The cells within reach -/

/-- The pointer is no further to the right than the machine has made steps, and cells further to the right
are zero. -/
structure IsNear (m : Machine) : Prop where
  pointer_le : m.pointer ≤ m.steps
  cell_eq_zero : ∀ index, m.steps < index → ∀ value ∈ m.tape[index]?, value = 0

theorem isNear_start (tapeLen : Nat) (input : String) : (start tapeLen input).IsNear where
  pointer_le := le_rfl
  cell_eq_zero := by
    intro index _ value hvalue
    exact (Array.mem_replicate.1 (Array.mem_of_getElem? hvalue)).2

theorem pointer_read : m.read.pointer = m.pointer := by
  rw [read]
  split <;> rfl

theorem pointer_transfer : m.transfer.pointer = m.pointer := by
  rw [transfer]
  split <;> rfl

/-- Under a strict policy, an instruction moves the pointer to the right by one cell at most. -/
theorem pointer_le_of_act (hstrict : config.pointerPolicy = .strict)
    (h : m.act config token i = .ok m') : m'.pointer ≤ m.pointer + 1 := by
  have hstays (hpointer : m'.pointer = m.pointer) : m'.pointer ≤ m.pointer + 1 := by omega
  cases i with
  | pointerRight =>
      rw [act, hstrict, moveRight] at h
      split at h <;> cases h
      exact le_rfl
  | pointerLeft =>
      rw [act, hstrict, moveLeft] at h
      split at h <;> cases h
      exact (Nat.sub_le _ _).trans (Nat.le_succ _)
  | increment =>
      simp only [act, increment] at h
      split at h <;> split at h <;> cases h
      all_goals exact hstays rfl
  | decrement =>
      simp only [act, decrement] at h
      split at h
      · cases h
        exact hstays rfl
      · split at h <;> cases h
        exact hstays rfl
  | register =>
      rw [act] at h
      split at h <;> cases h
      · exact hstays rfl
      · exact hstays pointer_transfer
  | conditionalIo =>
      rw [act, Except.ok.injEq] at h
      split at h <;> cases h
      · exact hstays pointer_read
      · exact hstays rfl
  | input =>
      cases h
      exact hstays pointer_read
  | output | reset | exec | loopOpen | loopClose =>
      cases h
      exact hstays rfl

/-- Under a strict policy, an instruction that is counted keeps all but the cells within reach zero. -/
theorem IsNear.of_act (hm : m.IsNear) (hstrict : config.pointerPolicy = .strict)
    (h : m.act config token i = .ok m') : m'.tick.IsNear := by
  have hfollows := (effect_act h).follows
  have hsteps : m'.tick.steps = m.steps + 1 := hfollows.steps_eq
  have hpointer : m'.pointer ≤ m.pointer + 1 := pointer_le_of_act hstrict h
  constructor
  · have hnear := hm.pointer_le
    rw [hsteps]
    exact hpointer.trans (Nat.succ_le_succ hnear)
  · intro index hindex value hvalue
    -- The cell that has changed, if any, was at the pointer.
    have hnear := hm.pointer_le
    rw [hfollows.cell_eq index (by omega)] at hvalue
    exact hm.cell_eq_zero index (by omega) value hvalue

end Machine

/-! ## Steps and runs -/

namespace Executable

variable {x : Executable} {config : Config} {clock : Clock} {input : String} {s : State}
  {extra tapeLen : Nat}

/-- A step on a longer tape, unless it fails beyond the last cell. -/
theorem next_extend (hpointer : s.machine.pointer < s.machine.tapeLen)
    (hstrict : config.pointerPolicy = .strict)
    (hinside : ∀ fault, x.next config clock s = .failed fault → fault.isPointerOverflow = false) :
    x.next (config.withTape tapeLen) clock ⟨s.token, s.machine.extend extra⟩ =
      (x.next config clock s).map (·.extend extra) := by
  refine next_map (g := (·.extend extra)) rfl Machine.current_extend (fun _ => rfl)
    fun i hi hlimit => ?_
  refine Machine.act_extend hpointer hstrict fun fault hfault => hinside fault ?_
  rw [next_eq_stepped hi hlimit, hfault]
  rfl

theorem initial_extend {tapeLen' : Nat} (h : max config.tapeLen 1 ≤ tapeLen') (input : String) :
    initial (config.withTape tapeLen') input =
      ⟨(initial config input).token,
        (initial config input).machine.extend (tapeLen' - max config.tapeLen 1)⟩ :=
  congrArg (State.mk 0) (Machine.start_extend h input).symm

/-- A run that never fails beyond the last cell is the same on a longer tape, as far as one likes. -/
theorem advance_extend (hstrict : config.pointerPolicy = .strict)
    (htape : max config.tapeLen 1 ≤ tapeLen)
    (hinside : ∀ fault, x.EndsFrom config clock (initial config input) (.error fault) →
      fault.isPointerOverflow = false) (count : Nat) :
    x.advance (config.withTape tapeLen) clock count (initial (config.withTape tapeLen) input) =
      (x.advance config clock count (initial config input)).map
        (·.extend (tapeLen - max config.tapeLen 1)) := by
  rw [initial_extend htape]
  refine advance_map (F := Progress.map (·.extend (tapeLen - max config.tapeLen 1)))
    (g := fun s => ⟨s.token, s.machine.extend (tapeLen - max config.tapeLen 1)⟩)
    (fun _ => rfl) (fun result => ⟨_, Progress.map_ofResult _ result⟩) fun k _ s hrun => ?_
  refine next_extend (inBounds_of_advance hrun).pointer_lt hstrict fun fault hfailed => ?_
  exact hinside fault (endsFrom_iff_exists_endsAfter.2 ⟨k, s, hrun, hfailed⟩)

/-- A run that never fails beyond the last cell ends on a longer tape as it does on its own. -/
theorem endsFrom_withTape_iff (hstrict : config.pointerPolicy = .strict)
    (htape : max config.tapeLen 1 ≤ tapeLen)
    (hinside : ∀ fault, x.EndsFrom config clock (initial config input) (.error fault) →
      fault.isPointerOverflow = false) {result' : Except Fault Machine} :
    x.EndsFrom (config.withTape tapeLen) clock (initial (config.withTape tapeLen) input) result' ↔
      ∃ result, x.EndsFrom config clock (initial config input) result ∧
        result' = result.map (·.extend (tapeLen - max config.tapeLen 1)) := by
  simp only [endsFrom_iff_reaches, Reaches, advance_extend hstrict htape hinside]
  constructor
  · rintro ⟨count, hcount⟩
    obtain ⟨result, hresult, heq⟩ := Progress.map_eq_ofResult_iff.1 hcount
    exact ⟨result, ⟨count, hresult⟩, heq⟩
  · rintro ⟨result, ⟨count, hcount⟩, heq⟩
    exact ⟨count, Progress.map_eq_ofResult_iff.2 ⟨result, hcount, heq⟩⟩

theorem isNear_of_advance (hstrict : config.pointerPolicy = .strict) {count : Nat}
    (h : x.advance config clock count (initial config input) = .running s) : s.machine.IsNear := by
  refine invariant_of_advance (P := fun s => s.machine.IsNear) (fun s s' hs hnext => ?_)
    (Machine.isNear_start config.tapeLen input) h
  obtain ⟨i, m, -, -, hact, -, hmachine⟩ := next_eq_running_iff.1 hnext
  rw [hmachine]
  exact hs.of_act hstrict hact

/-- Under a strict policy for the pointer, a run that ends in anything but a fault beyond the last cell ends
in the same way on a longer tape, with zeros in the cells that are added, and a run without an end has none
there either.  In every state on the way, the pointer is within as many cells as steps have been made, and
the cells further on are zero. -/
theorem endsFrom_longer_tape (x : Executable) (config : Config) (clock : Clock) (input : String)
    (tapeLen : Nat) (hstrict : config.pointerPolicy = .strict)
    (htape : max config.tapeLen 1 ≤ tapeLen) :
    (∀ result, x.EndsFrom config clock (initial config input) result →
      (∀ fault, result = .error fault → fault.isPointerOverflow = false) →
        ∀ result', x.EndsFrom (config.withTape tapeLen) clock
            (initial (config.withTape tapeLen) input) result' ↔
          result' = result.map (·.extend (tapeLen - max config.tapeLen 1))) ∧
    ((∀ result, ¬ x.EndsFrom config clock (initial config input) result) →
      ∀ result, ¬ x.EndsFrom (config.withTape tapeLen) clock
        (initial (config.withTape tapeLen) input) result) ∧
    (∀ count s, x.advance config clock count (initial config input) = .running s →
      s.machine.steps = count ∧ s.machine.pointer ≤ count ∧
        ∀ index, count < index → ∀ value ∈ s.machine.tape[index]?, value = 0) := by
  refine ⟨fun result hends hresult result' => ?_, fun hendless result' hends => ?_,
    fun count s hrun => ?_⟩
  · have hinside (fault : Fault)
        (hfault : x.EndsFrom config clock (initial config input) (.error fault)) :
        fault.isPointerOverflow = false :=
      hresult fault (hends.iff_eq.1 hfault).symm
    rw [endsFrom_withTape_iff hstrict htape hinside]
    constructor
    · rintro ⟨result₁, hends₁, rfl⟩
      rw [hends.iff_eq.1 hends₁]
    · rintro rfl
      exact ⟨result, hends, rfl⟩
  · rw [endsFrom_withTape_iff hstrict htape fun fault hfault => absurd hfault (hendless _)] at hends
    obtain ⟨result, hresult, -⟩ := hends
    exact hendless result hresult
  · have hsteps : s.machine.steps = count := (steps_of_advance_running hrun).trans (Nat.zero_add count)
    have hnear := isNear_of_advance hstrict hrun
    exact ⟨hsteps, hsteps ▸ hnear.pointer_le, hsteps ▸ hnear.cell_eq_zero⟩

/-- `MoO moO MOo` fails at its third token on two cells and, in the same way, on four.  Without that token it
leaves the same machine on both tapes, up to two zero cells. -/
theorem endsFrom_longer_tape_two_cells :
    let fails : Executable :=
      ⟨.ofInstructions [.increment, .pointerRight, .decrement], ⟨#[none, none, none], 0⟩⟩
    let ends : Executable := ⟨.ofInstructions [.increment, .pointerRight], ⟨#[none, none], 0⟩⟩
    let config : Config := { tapeLen := 2 }
    let longer := config.withTape 4
    config.pointerPolicy = .strict ∧
      fails.EndsFrom longer (fun _ => 0) (initial longer "") (.error (.cellUnderflow 2 1)) ∧
      ends.EndsFrom longer (fun _ => 0) (initial longer "")
        (.ok ⟨#[1, 0, 0, 0], 1, #[], 0, "", none, 2⟩) := by
  intro fails ends config longer
  have hfails : fails.EndsFrom config (fun _ => 0) (initial config "")
      (.error (.cellUnderflow 2 1)) := ⟨3, rfl⟩
  have hends : ends.EndsFrom config (fun _ => 0) (initial config "")
      (.ok ⟨#[1, 0], 1, #[], 0, "", none, 2⟩) := ⟨3, rfl⟩
  obtain ⟨hfails', -, -⟩ := endsFrom_longer_tape fails config (fun _ => 0) "" 4 rfl (by decide)
  obtain ⟨hends', -, -⟩ := endsFrom_longer_tape ends config (fun _ => 0) "" 4 rfl (by decide)
  refine ⟨rfl, (hfails' _ hfails (fun fault hfault => ?_) _).2 rfl,
    (hends' _ hends (fun fault hfault => ?_) _).2 rfl⟩
  · cases hfault
    rfl
  · cases hfault

end Executable

end CowLang
