import CowLang.Proofs.Bounds
/-!
# Policies at the boundaries

Three policies say what happens when an instruction would leave the tape, take a cell below zero or take it
beyond a byte.  Nothing else depends on them: until an instruction meets such a boundary, runs under
different policies are the same run.  The strict policies let no run get past a boundary, so a run that
does not fail at one never meets one, and wrapping around would have made no difference to it.

Main statements: `Machine.act_withBoundaries` (an instruction off the boundaries does not depend on the
policies) and `Executable.advance_eq_until_boundary` (neither does a run before the first boundary).
-/

namespace CowLang

/-- The same configuration with other policies at the boundaries. -/
def Config.withBoundaries (config : Config) (pointer : PointerPolicy) (underflow : UnderflowPolicy)
    (overflow : OverflowPolicy) : Config :=
  { config with pointerPolicy := pointer, underflowPolicy := underflow, overflowPolicy := overflow }

/-- Whether a fault is one that only a strict policy raises: at an end of the tape or below zero. -/
def Fault.isStrict : Fault → Bool
  | .pointerOverflow _ _ | .pointerUnderflow _ | .cellUnderflow _ _ => true
  | _ => false

/-! ## Single instructions -/

namespace Machine

variable {config : Config} {m : Machine} {token : Nat} {i : Instruction}
  {pointer : PointerPolicy} {underflow : UnderflowPolicy} {overflow : OverflowPolicy}

/-- The instruction meets a boundary at which two configurations have different policies. -/
def MeetsBoundary (config config' : Config) (m : Machine) : Instruction → Prop
  | .pointerRight => config.pointerPolicy ≠ config'.pointerPolicy ∧ m.pointer + 1 = m.tapeLen
  | .pointerLeft => config.pointerPolicy ≠ config'.pointerPolicy ∧ m.pointer = 0
  | .decrement => config.underflowPolicy ≠ config'.underflowPolicy ∧ m.current = 0
  | .increment => config.overflowPolicy ≠ config'.overflowPolicy ∧ maxByte ≤ m.current
  | _ => False

/-- A byte that is not the largest is incremented in the same way under both policies. -/
theorem increment_of_lt (h : m.current < maxByte) :
    m.increment overflow token = .ok (m.setCurrent (m.current + 1)) := by
  have hcell : m.current < maxCell := h.trans (by decide)
  cases overflow with
  | wrap => simp only [increment, if_neg (Nat.not_le.2 h)]
  | unbounded => simp only [increment, if_neg (Nat.not_le.2 hcell)]

/-- Off the boundaries an instruction does the same under all policies. -/
theorem act_withBoundaries (hpointer : m.pointer < m.tapeLen)
    (h : ¬ m.MeetsBoundary config (config.withBoundaries pointer underflow overflow) i) :
    m.act (config.withBoundaries pointer underflow overflow) token i = m.act config token i := by
  cases i with
  | pointerRight =>
      by_cases hright : m.pointer + 1 < m.tapeLen
      · simp only [act, moveRight, if_pos hright]
      · -- At the last cell the policy decides, so it must be the same one.
        have hsame : config.pointerPolicy = pointer :=
          not_not.1 fun hne => h ⟨hne, Nat.le_antisymm hpointer (Nat.le_of_not_lt hright)⟩
        rw [act, act, hsame]
        rfl
  | pointerLeft =>
      by_cases hleft : 0 < m.pointer
      · simp only [act, moveLeft, if_pos hleft]
      · have hsame : config.pointerPolicy = pointer :=
          not_not.1 fun hne => h ⟨hne, Nat.eq_zero_of_not_pos hleft⟩
        rw [act, act, hsame]
        rfl
  | decrement =>
      by_cases hpos : 0 < m.current
      · simp only [act, decrement, if_pos hpos]
      · have hsame : config.underflowPolicy = underflow :=
          not_not.1 fun hne => h ⟨hne, Nat.eq_zero_of_not_pos hpos⟩
        rw [act, act, hsame]
        rfl
  | increment =>
      by_cases hlarge : maxByte ≤ m.current
      · have hsame : config.overflowPolicy = overflow := not_not.1 fun hne => h ⟨hne, hlarge⟩
        rw [act, act, hsame]
        rfl
      · rw [act, act, increment_of_lt (Nat.not_le.1 hlarge), increment_of_lt (Nat.not_le.1 hlarge)]
  | _ => rfl

/-- Where strict policies would be given up for others, an instruction at a boundary fails. -/
theorem exists_act_eq_error_of_meetsBoundary (token : Nat) (hpolicy : config.pointerPolicy = .strict)
    (hunderflow : config.underflowPolicy = .strict)
    (h : m.MeetsBoundary config (config.withBoundaries pointer underflow config.overflowPolicy) i) :
    ∃ fault, m.act config token i = .error fault ∧ fault.isStrict = true := by
  cases i with
  | pointerRight =>
      have hedge : ¬ m.pointer + 1 < m.tapeLen := h.2 ▸ Nat.lt_irrefl _
      refine ⟨.pointerOverflow token m.tapeLen, ?_, rfl⟩
      simp only [act, moveRight, if_neg hedge, hpolicy]
  | pointerLeft =>
      have hedge : ¬ 0 < m.pointer := h.2 ▸ Nat.lt_irrefl _
      refine ⟨.pointerUnderflow token, ?_, rfl⟩
      simp only [act, moveLeft, if_neg hedge, hpolicy]
  | decrement =>
      have hedge : ¬ 0 < m.current := h.2 ▸ Nat.lt_irrefl _
      refine ⟨.cellUnderflow token m.pointer, ?_, rfl⟩
      simp only [act, decrement, if_neg hedge, hunderflow]
  | increment => exact absurd rfl h.1
  | _ => exact h.elim

end Machine

/-! ## Steps and runs -/

namespace Executable

variable {x : Executable} {config : Config} {clock : Clock} {input : String} {s : State}
  {pointer : PointerPolicy} {underflow : UnderflowPolicy} {overflow : OverflowPolicy}

/-- The next instruction meets a boundary at which two configurations have different policies. -/
def AtBoundary (x : Executable) (config config' : Config) (s : State) : Prop :=
  ∃ i, x.program.instruction? s.token = some i ∧ s.machine.MeetsBoundary config config' i

/-- Off the boundaries a step does not depend on the policies. -/
theorem next_withBoundaries (hpointer : s.machine.pointer < s.machine.tapeLen)
    (h : ¬ x.AtBoundary config (config.withBoundaries pointer underflow overflow) s) :
    x.next (config.withBoundaries pointer underflow overflow) clock s = x.next config clock s :=
  next_congr rfl fun i hi _ => Machine.act_withBoundaries hpointer fun hmeets => h ⟨i, hi, hmeets⟩

/-- A step that strict policies do not forbid is the same under other ones. -/
theorem next_withBoundaries_of_strict (hpointer : s.machine.pointer < s.machine.tapeLen)
    (hpolicy : config.pointerPolicy = .strict) (hunderflow : config.underflowPolicy = .strict)
    (h : ∀ fault, x.next config clock s = .failed fault → fault.isStrict = false) :
    x.next (config.withBoundaries pointer underflow config.overflowPolicy) clock s =
      x.next config clock s := by
  refine next_congr rfl fun i hi hlimit => Machine.act_withBoundaries hpointer fun hmeets => ?_
  -- An instruction that meets a boundary fails, and so does its step.
  obtain ⟨fault, hact, hstrict⟩ :=
    Machine.exists_act_eq_error_of_meetsBoundary s.token hpolicy hunderflow hmeets
  have hnext : x.next config clock s = .failed fault := by
    rw [next_eq_stepped hi hlimit, hact]
    rfl
  have hother := h fault hnext
  rw [hstrict] at hother
  cases hother

/-- Two runs under configurations that differ only in the policies at the boundaries are the same for as
many steps as meet no boundary at which the policies differ.  And what a run under strict policies comes to,
other than a fault that only these raise, it comes to under any policies for pointer and underflow: with
wraparound it succeeds with the same machine, or uses up its budget as before. -/
theorem advance_eq_until_boundary (x : Executable) (config : Config) (clock : Clock)
    (input : String) (pointer : PointerPolicy) (underflow : UnderflowPolicy)
    (overflow : OverflowPolicy) :
    (∀ count,
      (∀ k, k < count → ∀ s, x.advance config clock k (initial config input) = .running s →
        ¬ x.AtBoundary config (config.withBoundaries pointer underflow overflow) s) →
      x.advance (config.withBoundaries pointer underflow overflow) clock count
          (initial (config.withBoundaries pointer underflow overflow) input) =
        x.advance config clock count (initial config input)) ∧
    (config.pointerPolicy = .strict → config.underflowPolicy = .strict →
      ∀ result, (∀ fault, result = .error fault → fault.isStrict = false) →
        x.EndsFrom config clock (initial config input) result →
          ∀ result',
            x.EndsFrom (config.withBoundaries pointer underflow config.overflowPolicy) clock
                (initial (config.withBoundaries pointer underflow config.overflowPolicy) input)
                result' ↔
              result' = result) := by
  constructor
  · intro count h
    refine advance_congr fun k hk s hrun => ?_
    exact next_withBoundaries (inBounds_of_advance hrun).pointer_lt (h k hk s hrun)
  · intro hpolicy hunderflow result hresult hends
    have hrun (n : Nat) :
        x.advance (config.withBoundaries pointer underflow config.overflowPolicy) clock n
            (initial config input) =
          x.advance config clock n (initial config input) := by
      refine advance_congr fun k _ s hrun => ?_
      refine next_withBoundaries_of_strict (inBounds_of_advance hrun).pointer_lt hpolicy hunderflow
        fun fault hfailed => ?_
      -- A fault on the way would be the result.
      have hfault : x.EndsFrom config clock (initial config input) (.error fault) :=
        endsFrom_iff_exists_endsAfter.2 ⟨k, s, hrun, hfailed⟩
      exact hresult fault (hends.iff_eq.1 hfault).symm
    refine fun result' => EndsFrom.iff_eq (endsFrom_iff_reaches.2 ?_)
    obtain ⟨n, hn⟩ := endsFrom_iff_reaches.1 hends
    exact ⟨n, (hrun n).trans hn⟩

/-- On two cells, `MoO moO mOo` meets no boundary and ends in the same way with wraparound.  With one more
`mOo` after it the two runs are the same for three steps, and then only the strict one fails. -/
theorem advance_eq_until_boundary_left :
    let inside : Executable :=
      ⟨.ofInstructions [.increment, .pointerRight, .pointerLeft], ⟨#[none, none, none], 0⟩⟩
    let across : Executable :=
      ⟨.ofInstructions [.increment, .pointerRight, .pointerLeft, .pointerLeft],
        ⟨#[none, none, none, none], 0⟩⟩
    let strict : Config := { tapeLen := 2 }
    let wrapping := strict.withBoundaries .wrap .wrap .wrap
    inside.EndsFrom wrapping (fun _ => 0) (initial wrapping "")
        (.ok ⟨#[1, 0], 0, #[], 0, "", none, 3⟩) ∧
      across.advance wrapping (fun _ => 0) 3 (initial wrapping "") =
        across.advance strict (fun _ => 0) 3 (initial strict "") ∧
      across.advance wrapping (fun _ => 0) 4 (initial wrapping "") ≠
        across.advance strict (fun _ => 0) 4 (initial strict "") := by
  intro inside across strict wrapping
  refine ⟨?_, ?_, by decide⟩
  · refine ((advance_eq_until_boundary inside strict (fun _ => 0) "" .wrap .wrap .wrap).2 rfl rfl
      (.ok ⟨#[1, 0], 0, #[], 0, "", none, 3⟩) (fun _ h => ?_) ⟨4, rfl⟩ _).2 rfl
    cases h
  · refine (advance_eq_until_boundary across strict (fun _ => 0) "" .wrap .wrap .wrap).1 3
      fun k hk s hrun => ?_
    rintro ⟨i, hi, hmeets⟩
    obtain rfl | rfl | rfl : k = 0 ∨ k = 1 ∨ k = 2 := by omega
    all_goals
      cases hrun
      cases hi
      exact absurd hmeets.2 (by decide)

end Executable

end CowLang
