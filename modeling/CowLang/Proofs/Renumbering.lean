import CowLang.Proofs.Steps
/-!
# Runs under other token numbers

A token index occurs in a run in three ways: it selects the instruction, the table turns it into another
one, and faults report it.  The machine never sees it.  So where the tokens of one program are found in
another one under other numbers, the machine does the same there, and only the numbers differ.

Main statements: `Machine.act_renumber` (one instruction under another number),
`Executable.next_renumber` (one step), `Executable.advance_renumber` (a run, as far as the programs agree)
and `Executable.endsFrom_renumber_iff` (how a run ends under other numbers).
-/

namespace CowLang

variable {f : Nat → Nat}

/-- The same fault with another token number. -/
def Fault.renumber (f : Nat → Nat) : Fault → Fault
  | .pointerOverflow token tapeLen => .pointerOverflow (f token) tapeLen
  | .pointerUnderflow token => .pointerUnderflow (f token)
  | .cellUnderflow token pointer => .cellUnderflow (f token) pointer
  | .cellOverflow token pointer => .cellOverflow (f token) pointer
  | .stepLimitExceeded limit => .stepLimitExceeded limit
  | .deadlineExceeded timeout steps => .deadlineExceeded timeout steps
  | .unresolvedJump token => .unresolvedJump (f token)

@[simp]
theorem Fault.renumber_id (fault : Fault) : fault.renumber id = fault := by
  cases fault <;> rfl

/-- The same state with another token number. -/
def State.renumber (f : Nat → Nat) (s : State) : State := ⟨f s.token, s.machine⟩

@[simp]
theorem State.renumber_id (s : State) : s.renumber id = s := rfl

/-- The same progress with other token numbers. -/
def Progress.renumber (f : Nat → Nat) : Progress → Progress
  | .running s => .running (s.renumber f)
  | .finished m => .finished m
  | .failed fault => .failed (fault.renumber f)

@[simp]
theorem Progress.renumber_id (p : Progress) : p.renumber id = p := by
  cases p <;> simp [renumber]

theorem Progress.renumber_ofResult (result : Except Fault Machine) :
    (ofResult result).renumber f = ofResult (result.mapError (Fault.renumber f)) := by
  cases result <;> rfl

theorem Progress.renumber_eq_ofResult_iff {p : Progress} {result : Except Fault Machine} :
    p.renumber f = .ofResult result ↔
      ∃ result', p = .ofResult result' ∧ result = result'.mapError (Fault.renumber f) := by
  constructor
  · intro h
    cases p with
    | running s => exact absurd h.symm (ofResult_ne_running result _)
    | finished m => exact ⟨.ok m, rfl, ofResult_injective h.symm⟩
    | failed fault => exact ⟨.error fault, rfl, ofResult_injective h.symm⟩
  · rintro ⟨result', rfl, rfl⟩
    exact renumber_ofResult result'

/-! ## Single instructions -/

/-- An instruction does the same under another number. -/
theorem Machine.act_renumber {config : Config} {token : Nat} {m : Machine} {i : Instruction} :
    m.act config (f token) i = (m.act config token i).mapError (Fault.renumber f) := by
  cases i with
  | pointerRight =>
      simp only [act, moveRight]
      split
      · rfl
      · cases config.pointerPolicy <;> rfl
  | pointerLeft =>
      simp only [act, moveLeft]
      split
      · rfl
      · cases config.pointerPolicy <;> rfl
  | increment =>
      simp only [act, increment]
      cases config.overflowPolicy
      all_goals
        dsimp only
        split <;> rfl
  | decrement =>
      simp only [act, decrement]
      split
      · rfl
      · cases config.underflowPolicy <;> rfl
  | register =>
      rw [act, act]
      cases config.registerMode <;> rfl
  | _ => rfl

namespace Executable

variable {x y : Executable} {config : Config} {clock : Clock}

/-- Limits are not about tokens. -/
theorem renumber_of_limit? {steps : Nat} {fault : Fault}
    (h : limit? config clock steps = some fault) : fault.renumber f = fault := by
  have hdeadline (h : limit?.deadline? clock steps config.timeout = some fault) :
      fault.renumber f = fault := by
    unfold limit?.deadline? at h
    split at h
    · split at h
      · cases h
        rfl
      · cases h
    · cases h
  unfold limit? at h
  split at h
  · split at h
    · cases h
      rfl
    · exact hdeadline h
  · exact hdeadline h

/-! ## Steps and runs -/

/-- What `x` has at a token, `y` has at the number that `f` gives it: the instruction, the partner, and the
tokens after itself and after the partner. -/
structure AgreesAt (f : Nat → Nat) (x y : Executable) (token : Nat) : Prop where
  instruction?_eq : y.program.instruction? (f token) = x.program.instruction? token
  after_eq : f (token + 1) = f token + 1
  target?_eq : y.loops.target? (f token) = (x.loops.target? token).map f
  after_target_eq : ∀ last, x.loops.target? token = some last → f (last + 1) = f last + 1

theorem AgreesAt.successor?_eq {token : Nat} (h : AgreesAt f x y token) (m : Machine)
    (i : Instruction) : successor? y.loops (f token) m i = (successor? x.loops token m i).map f := by
  have hnext : some (f token + 1) = (some (token + 1)).map f := by
    rw [Option.map_some, h.after_eq]
  have hjump : (y.loops.target? (f token)).map (· + 1) =
      ((x.loops.target? token).map (· + 1)).map f := by
    rw [h.target?_eq]
    cases htarget : x.loops.target? token with
    | none => rfl
    | some last => simp [h.after_target_eq last htarget]
  by_cases plain : i.isLoop = false
  · rw [successor?_simple plain, successor?_simple plain, hnext]
  · cases i with
    | loopOpen | loopClose => rw [successor?, successor?, hnext, hjump, apply_ite (Option.map f)]
    | _ => exact absurd rfl plain

/-- A step leads behind a token whose number is followed by that of the next one. -/
theorem AgreesAt.exists_eq_succ {token token' : Nat} {m : Machine} {i : Instruction}
    (h : AgreesAt f x y token) (hsucc : successor? x.loops token m i = some token') :
    ∃ last, token' = last + 1 ∧ f (last + 1) = f last + 1 := by
  have hnext (hnext : some (token + 1) = some token') :
      ∃ last, token' = last + 1 ∧ f (last + 1) = f last + 1 :=
    ⟨token, (Option.some.inj hnext).symm, h.after_eq⟩
  have hjump (hjump : (x.loops.target? token).map (· + 1) = some token') :
      ∃ last, token' = last + 1 ∧ f (last + 1) = f last + 1 := by
    obtain ⟨last, hlast, rfl⟩ := Option.map_eq_some_iff.1 hjump
    exact ⟨last, rfl, h.after_target_eq last hlast⟩
  by_cases plain : i.isLoop = false
  · rw [successor?_simple plain] at hsucc
    exact hnext hsucc
  · cases i with
    | loopOpen =>
        rw [successor?] at hsucc
        split at hsucc
        · exact hjump hsucc
        · exact hnext hsucc
    | loopClose =>
        rw [successor?] at hsucc
        split at hsucc
        · exact hnext hsucc
        · exact hjump hsucc
    | _ => exact absurd rfl plain

/-- A step at a token on which the programs agree. -/
theorem next_renumber {s : State} (h : AgreesAt f x y s.token) :
    y.next config clock (s.renumber f) = (x.next config clock s).renumber f := by
  cases hi : x.program.instruction? s.token with
  | none =>
      have hi' : y.program.instruction? (s.renumber f).token = none := h.instruction?_eq.trans hi
      simp only [next, hi, hi']
      rfl
  | some i =>
      have hi' : y.program.instruction? (s.renumber f).token = some i := h.instruction?_eq.trans hi
      cases hlimit : limit? config clock s.machine.steps with
      | some fault =>
          rw [next_eq_failed_of_limit hi hlimit, next_eq_failed_of_limit hi' hlimit,
            Progress.renumber, renumber_of_limit? hlimit]
      | none =>
          rw [next_eq_stepped hi hlimit, next_eq_stepped hi' hlimit, State.renumber,
            h.successor?_eq, Machine.act_renumber]
          cases s.machine.act config s.token i with
          | error fault => rfl
          | ok m => cases successor? x.loops s.token s.machine i <;> rfl

/-- A run on whose way the programs agree. -/
theorem advance_renumber {n : Nat} {s : State}
    (h : ∀ k, k < n → ∀ s', x.advance config clock k s = .running s' → AgreesAt f x y s'.token) :
    y.advance config clock n (s.renumber f) = (x.advance config clock n s).renumber f := by
  refine advance_map (fun _ => rfl) (fun result => ?_) fun k hk s' hrun => next_renumber (h k hk s' hrun)
  exact ⟨_, Progress.renumber_ofResult result⟩

/-- Programs that agree everywhere have runs that end alike. -/
theorem endsFrom_renumber_iff (h : ∀ token, AgreesAt f x y token) {s : State}
    {result : Except Fault Machine} :
    y.EndsFrom config clock (s.renumber f) result ↔
      ∃ result', x.EndsFrom config clock s result' ∧
        result = result'.mapError (Fault.renumber f) := by
  simp only [endsFrom_iff_reaches, Reaches]
  constructor
  · rintro ⟨n, hn⟩
    rw [advance_renumber fun _ _ s' _ => h s'.token] at hn
    obtain ⟨result', hresult, heq⟩ := Progress.renumber_eq_ofResult_iff.1 hn
    exact ⟨result', ⟨n, hresult⟩, heq⟩
  · rintro ⟨result', ⟨n, hn⟩, heq⟩
    refine ⟨n, ?_⟩
    rw [advance_renumber fun _ _ s' _ => h s'.token]
    exact Progress.renumber_eq_ofResult_iff.2 ⟨result', hn, heq⟩

end Executable

end CowLang
