import CowLang.Proofs.Bounds
import CowLang.Proofs.Structured
/-!
# Why a run fails

A run fails in a step, and a step has three ways to fail: a limit forbids it, its instruction does not get
past a boundary, or the loop table does not say where it leads.  With the program's own table the last of
these does not happen.  So without a timeout there are five faults, and each tells the state in which the
run was given up.

Main statements: `Machine.act_eq_error_iff` (the instructions that fail, and where),
`Executable.next_eq_failed_iff` (the three ways to fail), `Executable.exists_successor?_eq_some` (the
program's own table has an answer for every loop instruction) and
`Executable.endsFrom_error_iff_reaches_cause` (runs fail where there is a cause, and nowhere else).
-/

namespace CowLang

/-! ## Single instructions -/

/-- The token at which a run failed, if it failed at one. -/
def Fault.token? : Fault → Option Nat
  | .pointerOverflow token _ | .pointerUnderflow token | .cellUnderflow token _
  | .cellOverflow token _ | .unresolvedJump token => some token
  | .stepLimitExceeded _ | .deadlineExceeded _ _ => none

/-- The wording of a fault ends with the token at which the run failed. -/
theorem Fault.message_of_token? {fault : Fault} {token : Nat} (h : fault.token? = some token) :
    ∃ what, fault.message = what ++ "token " ++ Nat.repr token := by
  cases fault with
  | pointerOverflow _ tapeLen =>
      cases h
      refine ⟨"Pointer moved past the end of the tape (" ++ Nat.repr tapeLen ++ " cells) at ", ?_⟩
      show _ ++ (" cells) at " ++ "token ") ++ _ = _
      rw [← String.append_assoc]
      rfl
  | pointerUnderflow =>
      cases h
      exact ⟨"Pointer moved left of cell 0 at ", rfl⟩
  | cellUnderflow _ pointer =>
      cases h
      refine ⟨"Cell " ++ Nat.repr pointer ++ " decremented below zero at ", ?_⟩
      show _ ++ (" decremented below zero at " ++ "token ") ++ _ = _
      rw [← String.append_assoc]
      rfl
  | cellOverflow _ pointer =>
      cases h
      refine ⟨"Cell " ++ Nat.repr pointer ++ " exceeded the maximum cell value at ", ?_⟩
      show _ ++ (" exceeded the maximum cell value at " ++ "token ") ++ _ = _
      rw [← String.append_assoc]
      rfl
  | stepLimitExceeded | deadlineExceeded => cases h
  | unresolvedJump =>
      cases h
      exact ⟨"No jump target for loop ", rfl⟩

/-- Every fault in words. -/
example :
    [Fault.pointerOverflow 3 8, .pointerUnderflow 3, .cellUnderflow 3 2, .cellOverflow 3 2, .stepLimitExceeded 5,
      .deadlineExceeded (.ofMilliseconds 250) 4096, .unresolvedJump 3].map Fault.message =
    ["Pointer moved past the end of the tape (8 cells) at token 3", "Pointer moved left of cell 0 at token 3",
      "Cell 2 decremented below zero at token 3", "Cell 2 exceeded the maximum cell value at token 3",
      "Step limit of 5 exceeded", "Deadline of 250ms exceeded after 4096 steps",
      "No jump target for loop token 3"] := by
  decide +kernel

namespace Machine

variable {config : Config} {m : Machine} {input : String} {token : Nat} {i : Instruction}
  {fault : Fault}

/-- The instruction at index `token` is at a boundary that the configuration does not let it pass; the fault
says which. -/
inductive Violates (config : Config) (token : Nat) (m : Machine) : Instruction → Fault → Prop where
  | lastCell (strict : config.pointerPolicy = .strict) (last : m.pointer = config.tapeLen - 1) :
      Violates config token m .pointerRight (.pointerOverflow token config.tapeLen)
  | firstCell (strict : config.pointerPolicy = .strict) (first : m.pointer = 0) :
      Violates config token m .pointerLeft (.pointerUnderflow token)
  | zeroCell (strict : config.underflowPolicy = .strict) (zero : m.current = 0) :
      Violates config token m .decrement (.cellUnderflow token m.pointer)
  | fullCell (unbounded : config.overflowPolicy = .unbounded) (full : m.current = 2 ^ 32 - 1) :
      Violates config token m .increment (.cellOverflow token m.pointer)

/-- Where every policy is to wrap around, there is no boundary. -/
theorem not_violates_of_wrap (hpointer : config.pointerPolicy = .wrap)
    (hunderflow : config.underflowPolicy = .wrap) (hoverflow : config.overflowPolicy = .wrap) :
    ¬ m.Violates config token i fault := by
  intro h
  cases h with
  | lastCell strict | firstCell strict =>
      rw [hpointer] at strict
      cases strict
  | zeroCell strict =>
      rw [hunderflow] at strict
      cases strict
  | fullCell unbounded =>
      rw [hoverflow] at unbounded
      cases unbounded

theorem moveRight_eq_error_iff (hpointer : m.pointer < m.tapeLen) {policy : PointerPolicy} :
    m.moveRight policy token = .error fault ↔
      policy = .strict ∧ m.pointer = m.tapeLen - 1 ∧ fault = .pointerOverflow token m.tapeLen := by
  unfold moveRight
  split
  · simp only [reduceCtorEq, false_iff]
    omega
  · have hlast : m.pointer = m.tapeLen - 1 := by omega
    cases policy <;> simp [← hlast, eq_comm]

theorem moveLeft_eq_error_iff {policy : PointerPolicy} :
    m.moveLeft policy token = .error fault ↔
      policy = .strict ∧ m.pointer = 0 ∧ fault = .pointerUnderflow token := by
  unfold moveLeft
  split
  · simp only [reduceCtorEq, false_iff]
    omega
  · have hfirst : m.pointer = 0 := by omega
    cases policy <;> simp [hfirst, eq_comm]

theorem decrement_eq_error_iff {policy : UnderflowPolicy} :
    m.decrement policy token = .error fault ↔
      policy = .strict ∧ m.current = 0 ∧ fault = .cellUnderflow token m.pointer := by
  unfold decrement
  split
  · simp only [reduceCtorEq, false_iff]
    omega
  · have hzero : m.current = 0 := by omega
    cases policy <;> simp [hzero, eq_comm]

theorem increment_eq_error_iff (hcell : m.current ≤ maxCell) {policy : OverflowPolicy} :
    m.increment policy token = .error fault ↔
      policy = .unbounded ∧ m.current = maxCell ∧ fault = .cellOverflow token m.pointer := by
  unfold increment
  cases policy with
  | wrap => by_cases hbyte : maxByte ≤ m.current <;> simp [hbyte]
  | unbounded =>
      by_cases hfull : maxCell ≤ m.current
      · have heq : m.current = maxCell := Nat.le_antisymm hcell hfull
        simp [heq, eq_comm]
      · have hne : m.current ≠ maxCell := by omega
        simp [hfull, hne]

/-- Within bounds, an instruction fails exactly at a boundary that it may not pass. -/
theorem act_eq_error_iff (hm : m.InBounds config input) (hlen : 0 < config.tapeLen) :
    m.act config token i = .error fault ↔ m.Violates config token i fault := by
  have htape : m.tapeLen = config.tapeLen := by
    rw [hm.tapeLen_eq]
    exact Nat.max_eq_left hlen
  have hmax : maxCell = 2 ^ 32 - 1 := rfl
  cases i with
  | pointerRight =>
      rw [act, moveRight_eq_error_iff hm.pointer_lt, htape]
      constructor
      · rintro ⟨strict, last, rfl⟩
        exact .lastCell strict last
      · intro h
        cases h with
        | lastCell strict last => exact ⟨strict, last, rfl⟩
  | pointerLeft =>
      rw [act, moveLeft_eq_error_iff]
      constructor
      · rintro ⟨strict, first, rfl⟩
        exact .firstCell strict first
      · intro h
        cases h with
        | firstCell strict first => exact ⟨strict, first, rfl⟩
  | decrement =>
      rw [act, decrement_eq_error_iff]
      constructor
      · rintro ⟨strict, zero, rfl⟩
        exact .zeroCell strict zero
      · intro h
        cases h with
        | zeroCell strict zero => exact ⟨strict, zero, rfl⟩
  | increment =>
      have hcell : m.current ≤ maxCell := hm.current_le.trans config.largestCell_le_maxCell
      rw [act, increment_eq_error_iff hcell, hmax]
      constructor
      · rintro ⟨unbounded, full, rfl⟩
        exact .fullCell unbounded full
      · intro h
        cases h with
        | fullCell unbounded full => exact ⟨unbounded, full, rfl⟩
  | register =>
      -- Neither register mode lets the instruction fail.
      constructor
      · intro h
        simp only [act] at h
        split at h <;> cases h
      · intro h
        cases h
  | _ =>
      constructor
      · intro h
        cases h
      · intro h
        cases h

/-- An instruction that fails names its own token. -/
theorem token?_of_act (h : m.act config token i = .error fault) : fault.token? = some token := by
  cases i with
  | pointerRight =>
      simp only [act, moveRight] at h
      split at h
      · cases h
      · split at h <;> cases h
        rfl
  | pointerLeft =>
      simp only [act, moveLeft] at h
      split at h
      · cases h
      · split at h <;> cases h
        rfl
  | increment =>
      simp only [act, increment] at h
      split at h <;> split at h <;> cases h
      rfl
  | decrement =>
      simp only [act, decrement] at h
      split at h
      · cases h
      · split at h <;> cases h
        rfl
  | register =>
      simp only [act] at h
      split at h <;> cases h
  | _ => cases h

end Machine

/-! ## Single steps -/

section Budget

variable {config : Config} {steps : Nat} {fault : Fault}
  (hwithin : ∀ limit, config.maxSteps = some limit → steps ≤ limit)

include hwithin

/-- A budget that has not been exceeded forbids a step when exactly that many have been made. -/
theorem Config.exhausted?_eq_some_iff :
    config.exhausted? steps = some fault ↔
      config.maxSteps = some steps ∧ fault = .stepLimitExceeded steps := by
  unfold exhausted?
  cases hmax : config.maxSteps with
  | none => simp
  | some limit =>
      have hle := hwithin limit hmax
      by_cases hused : limit ≤ steps
      · obtain rfl : limit = steps := Nat.le_antisymm hused hle
        simp [eq_comm]
      · have hne : limit ≠ steps := by omega
        simp [hused, hne]

theorem Config.exhausted?_eq_none_iff :
    config.exhausted? steps = none ↔ config.maxSteps ≠ some steps := by
  rw [Option.eq_none_iff_forall_ne_some]
  simp only [ne_eq, Config.exhausted?_eq_some_iff hwithin, not_and]
  exact ⟨fun h hmax => h _ hmax rfl, fun h fault hmax => absurd hmax h⟩

end Budget

namespace Executable

variable {x : Executable} {config : Config} {clock : Clock} {input : String} {s : State}
  {fault : Fault}

/-- The ways in which a step fails. -/
theorem next_eq_failed_iff :
    x.next config clock s = .failed fault ↔
      ∃ i, x.program.instruction? s.token = some i ∧
        (limit? config clock s.machine.steps = some fault ∨
          limit? config clock s.machine.steps = none ∧
            (s.machine.act config s.token i = .error fault ∨
              (∃ m, s.machine.act config s.token i = .ok m) ∧
                successor? x.loops s.token s.machine i = none ∧
                fault = .unresolvedJump s.token)) := by
  cases hi : x.program.instruction? s.token with
  | none => simp [next, hi]
  | some i =>
      simp only [Option.some.injEq, exists_eq_left']
      cases hlimit : limit? config clock s.machine.steps with
      | some limit =>
          rw [next_eq_failed_of_limit hi hlimit]
          simp
      | none =>
          rw [next_eq_stepped hi hlimit]
          cases hact : s.machine.act config s.token i with
          | error fault' => simp [Progress.stepped]
          | ok m =>
              cases hsucc : successor? x.loops s.token s.machine i with
              | none => simp [Progress.stepped, eq_comm]
              | some token => simp [Progress.stepped]

/-- Without limits, a step fails at its own token. -/
theorem token?_of_next (hmax : config.maxSteps = none) (htimeout : config.timeout = none)
    (h : x.next config clock s = .failed fault) : fault.token? = some s.token := by
  obtain ⟨i, -, hlimit | ⟨-, hact | ⟨-, -, rfl⟩⟩⟩ := next_eq_failed_iff.1 h
  · rw [limit?_eq_none hmax htimeout] at hlimit
    cases hlimit
  · exact Machine.token?_of_act hact
  · rfl

/-- The program's own table says of every loop instruction where it leads. -/
theorem exists_successor?_eq_some {p : Program} {loops : LoopTable}
    (h : LoopTable.ofProgram p = .ok loops) {token : Nat} {i : Instruction}
    (hi : p.instruction? token = some i) (m : Machine) :
    ∃ token', successor? loops token m i = some token' := by
  by_cases plain : i.isLoop = false
  · exact ⟨token + 1, successor?_simple plain⟩
  · obtain ⟨b, hb, rfl⟩ := LoopTable.ofProgram_eq_ok_iff.1 h
    rw [Program.instruction?_eq_getElem?, ← hb] at hi
    have hsome : (b.partner? 0 token).isSome = true :=
      ((Block.isMatching_partner? b).isSome_iff token).2 ⟨i, hi, by simpa using plain⟩
    obtain ⟨partner, hpartner⟩ := Option.isSome_iff_exists.1 hsome
    rw [← Block.target?_loopTable] at hpartner
    cases i with
    | loopOpen | loopClose =>
        rw [successor?, hpartner]
        split <;> exact ⟨_, rfl⟩
    | _ => exact absurd rfl plain

/-- There is a cause for the fault in the state: the budget is used up, or else the next instruction is at a
boundary.  Behind the end of the program there is none. -/
def HasCause (x : Executable) (config : Config) (s : State) (fault : Fault) : Prop :=
  ∃ i, x.program.instruction? s.token = some i ∧
    (config.maxSteps = some s.machine.steps ∧ fault = .stepLimitExceeded s.machine.steps ∨
      config.maxSteps ≠ some s.machine.steps ∧ s.machine.Violates config s.token i fault)

/-- With the program's own table and without a timeout, a step fails exactly for a cause. -/
theorem next_eq_failed_iff_hasCause (hloops : LoopTable.ofProgram x.program = .ok x.loops)
    (htimeout : config.timeout = none) (hlen : 0 < config.tapeLen)
    (hm : s.machine.InBounds config input)
    (hwithin : ∀ limit, config.maxSteps = some limit → s.machine.steps ≤ limit) :
    x.next config clock s = .failed fault ↔ x.HasCause config s fault := by
  rw [next_eq_failed_iff, HasCause]
  refine exists_congr fun i => and_congr_right fun hi => ?_
  rw [limit?_eq_exhausted? htimeout, Config.exhausted?_eq_some_iff hwithin,
    Config.exhausted?_eq_none_iff hwithin, Machine.act_eq_error_iff hm hlen]
  refine or_congr_right (and_congr_right fun _ => or_iff_left ?_)
  rintro ⟨-, hnone, -⟩
  obtain ⟨token, hsome⟩ := exists_successor?_eq_some hloops hi s.machine
  rw [hnone] at hsome
  cases hsome

/-- A cause is the budget or a boundary. -/
theorem HasCause.cases (h : x.HasCause config s fault) :
    config.maxSteps = some s.machine.steps ∧ fault = .stepLimitExceeded s.machine.steps ∨
      ∃ i, s.machine.Violates config s.token i fault := by
  obtain ⟨i, -, hbudget | ⟨-, hviolates⟩⟩ := h
  · exact .inl hbudget
  · exact .inr ⟨i, hviolates⟩

theorem not_hasCause_unresolvedJump {token : Nat} :
    ¬ x.HasCause config s (.unresolvedJump token) := by
  intro h
  obtain ⟨-, hbudget⟩ | ⟨i, hviolates⟩ := h.cases
  · cases hbudget
  · cases hviolates

theorem not_hasCause_deadlineExceeded {timeout : Duration} {steps : Nat} :
    ¬ x.HasCause config s (.deadlineExceeded timeout steps) := by
  intro h
  obtain ⟨-, hbudget⟩ | ⟨i, hviolates⟩ := h.cases
  · cases hbudget
  · cases hviolates

/-- Where every policy is to wrap around, the only cause is the budget. -/
theorem HasCause.of_wrap (h : x.HasCause config s fault) (hpointer : config.pointerPolicy = .wrap)
    (hunderflow : config.underflowPolicy = .wrap) (hoverflow : config.overflowPolicy = .wrap) :
    ∃ limit, config.maxSteps = some limit ∧ fault = .stepLimitExceeded limit := by
  obtain hbudget | ⟨i, hviolates⟩ := h.cases
  · exact ⟨s.machine.steps, hbudget⟩
  · exact absurd hviolates (Machine.not_violates_of_wrap hpointer hunderflow hoverflow)

/-! ## Whole runs -/

/-- A program that has been made ready to run, under a configuration that can be used and without a timeout,
fails exactly when its run comes to a state with a cause, and then with the fault of that cause.  Its jumps
always lead somewhere and no deadline passes, and with wraparound only a budget can end the run. -/
theorem endsFrom_error_iff_reaches_cause (source : String) (x : Executable) (config : Config)
    (clock : Clock) (input : String) (hx : ofSource source = .ok x)
    (hvalid : config.validate = .ok config) (htimeout : config.timeout = none) :
    (∀ fault, x.EndsFrom config clock (initial config input) (.error fault) ↔
      ∃ s, x.Reaches config clock (initial config input) (.running s) ∧
        x.HasCause config s fault) ∧
    (∀ token, ¬ x.EndsFrom config clock (initial config input) (.error (.unresolvedJump token))) ∧
    (∀ timeout steps,
      ¬ x.EndsFrom config clock (initial config input) (.error (.deadlineExceeded timeout steps))) ∧
    (config.pointerPolicy = .wrap → config.underflowPolicy = .wrap →
      config.overflowPolicy = .wrap →
        ∀ fault, x.EndsFrom config clock (initial config input) (.error fault) →
          ∃ limit, config.maxSteps = some limit ∧ fault = .stepLimitExceeded limit) := by
  obtain ⟨hprogram, hloops⟩ := ofProgram_eq_ok_iff.1 hx
  rw [← hprogram] at hloops
  have hlen : 0 < config.tapeLen := by
    rw [Nat.pos_iff_ne_zero]
    intro hzero
    simp [Config.validate, Config.defect?, hzero] at hvalid
  have hnext {count : Nat} {s : State}
      (hrun : x.advance config clock count (initial config input) = .running s) (fault : Fault) :
      x.next config clock s = .failed fault ↔ x.HasCause config s fault :=
    next_eq_failed_iff_hasCause hloops htimeout hlen (inBounds_of_advance hrun) fun limit hmax =>
      steps_le_of_advance_running htimeout hmax (Nat.zero_le limit) hrun
  have hfails (fault : Fault) : x.EndsFrom config clock (initial config input) (.error fault) ↔
      ∃ s, x.Reaches config clock (initial config input) (.running s) ∧
        x.HasCause config s fault := by
    rw [endsFrom_iff_exists_endsAfter]
    constructor
    · rintro ⟨count, s, hrun, hfailed⟩
      exact ⟨s, ⟨count, hrun⟩, (hnext hrun fault).1 hfailed⟩
    · rintro ⟨s, ⟨count, hrun⟩, hcause⟩
      exact ⟨count, s, hrun, (hnext hrun fault).2 hcause⟩
  refine ⟨hfails, fun token h => ?_, fun timeout steps h => ?_,
    fun hpointer hunderflow hoverflow fault h => ?_⟩
  · obtain ⟨s, -, hcause⟩ := (hfails _).1 h
    exact not_hasCause_unresolvedJump hcause
  · obtain ⟨s, -, hcause⟩ := (hfails _).1 h
    exact not_hasCause_deadlineExceeded hcause
  · obtain ⟨s, -, hcause⟩ := (hfails _).1 h
    exact hcause.of_wrap hpointer hunderflow hoverflow

/-- `MoO moO moO` on two cells fails at its third token, unless a budget of two steps is used up there. -/
theorem endsFrom_error_iff_reaches_cause_last_cell :
    ∃ x, ofSource "MoO moO moO" = .ok x ∧
      x.EndsFrom { tapeLen := 2 } (fun _ => 0) (initial { tapeLen := 2 } "")
        (.error (.pointerOverflow 2 2)) ∧
      x.EndsFrom { tapeLen := 2, maxSteps := some 2 } (fun _ => 0)
        (initial { tapeLen := 2, maxSteps := some 2 } "") (.error (.stepLimitExceeded 2)) := by
  have hx : ofSource "MoO moO moO" =
      .ok ⟨.ofSource "MoO moO moO", ⟨#[none, none, none], 0⟩⟩ := by
    decide +kernel
  refine ⟨_, hx, ?_, ?_⟩
  · refine ((endsFrom_error_iff_reaches_cause _ _ { tapeLen := 2 } (fun _ => 0) "" hx rfl rfl).1 _).2 ?_
    refine ⟨⟨2, ⟨#[1, 0], 1, #[], 0, "", none, 2⟩⟩, ⟨2, by decide +kernel⟩, .pointerRight, ?_, ?_⟩
    · decide +kernel
    · exact .inr ⟨by decide, .lastCell rfl rfl⟩
  · refine ((endsFrom_error_iff_reaches_cause _ _ { tapeLen := 2, maxSteps := some 2 } (fun _ => 0) ""
      hx rfl rfl).1 _).2 ?_
    refine ⟨⟨2, ⟨#[1, 0], 1, #[], 0, "", none, 2⟩⟩, ⟨2, by decide +kernel⟩, .pointerRight, ?_, ?_⟩
    · decide +kernel
    · exact .inl ⟨rfl, rfl⟩

end Executable

end CowLang
