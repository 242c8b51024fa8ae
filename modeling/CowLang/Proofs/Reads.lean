import CowLang.Proofs.InputValues
import CowLang.Proofs.Budget
/-!
# What a run reads

Two instructions read: `oom`, and `Moo` on a zero cell.  A run on another input has the same states, with
the other input and its cursor in them, for as long as what it reads has the same value.  So a run depends on
its input only through the values that it has read.

Main statements: `Executable.next_onInput` (one step on another input),
`Executable.advance_onInput` (a run on another input) and `Executable.advance_eq_of_values` (what inputs with
the same values have in common).
-/

namespace CowLang

/-! ## Single instructions -/

namespace Machine

variable {config : Config} {m : Machine} {token : Nat} {i : Instruction}
  {input input' : String} {reads : Nat}

/-- Whether the instruction reads. -/
def readsOn (m : Machine) : Instruction → Bool
  | .input => true
  | .conditionalIo => m.current = 0
  | _ => false

/-- The same machine on another input, of which as much as possible was read by `reads` reads. -/
def onInput (m : Machine) (input : String) (reads : Nat) : Machine :=
  { m with input := input.toList.toArray, cursor := min reads input.length }

theorem start_onInput (tapeLen : Nat) (input input' : String) :
    (start tapeLen input).onInput input' 0 = start tapeLen input' := by
  rw [onInput, Nat.zero_min]
  rfl

/-- An instruction that reads never fails, and it is no loop instruction. -/
theorem act_of_readsOn (h : m.readsOn i = true) :
    m.act config token i = .ok m.read ∧ i.isLoop = false := by
  cases i with
  | input => exact ⟨rfl, rfl⟩
  | conditionalIo =>
      have hzero : m.current = 0 := of_decide_eq_true h
      exact ⟨by rw [act, if_pos hzero], rfl⟩
  | _ => cases h

theorem read_onInput (m : Machine) (input : String) (reads : Nat) :
    (m.onInput input reads).read =
      (m.setCurrent (inputValue input reads)).onInput input (reads + 1) :=
  read_eq_of_reads rfl rfl

theorem moveRight_onInput (policy : PointerPolicy) :
    (m.onInput input reads).moveRight policy token =
      (m.moveRight policy token).map (·.onInput input reads) := by
  -- Neither the condition nor a branch looks at the input.
  cases policy
  all_goals
    rw [moveRight, moveRight, apply_ite (Except.map _)]
    rfl

theorem moveLeft_onInput (policy : PointerPolicy) :
    (m.onInput input reads).moveLeft policy token =
      (m.moveLeft policy token).map (·.onInput input reads) := by
  cases policy
  all_goals
    rw [moveLeft, moveLeft, apply_ite (Except.map _)]
    rfl

theorem decrement_onInput (policy : UnderflowPolicy) :
    (m.onInput input reads).decrement policy token =
      (m.decrement policy token).map (·.onInput input reads) := by
  cases policy
  all_goals
    rw [decrement, decrement, apply_ite (Except.map _)]
    rfl

theorem increment_onInput (policy : OverflowPolicy) :
    (m.onInput input reads).increment policy token =
      (m.increment policy token).map (·.onInput input reads) := by
  cases policy
  all_goals
    rw [increment, increment, apply_ite (Except.map _)]
    rfl

theorem transfer_onInput (m : Machine) :
    (m.onInput input reads).transfer = m.transfer.onInput input reads := by
  have hregister : (m.onInput input reads).register = m.register := rfl
  rw [transfer, transfer, hregister]
  cases m.register <;> rfl

/-- An instruction that does not read does the same on another input. -/
theorem act_onInput_of_not_readsOn (h : m.readsOn i = false) :
    (m.onInput input reads).act config token i =
      (m.act config token i).map (·.onInput input reads) := by
  cases i with
  | pointerRight => exact moveRight_onInput config.pointerPolicy
  | pointerLeft => exact moveLeft_onInput config.pointerPolicy
  | increment => exact increment_onInput config.overflowPolicy
  | decrement => exact decrement_onInput config.underflowPolicy
  | register =>
      simp only [act, transfer_onInput]
      cases config.registerMode <;> rfl
  | input => cases h
  | conditionalIo =>
      have hnonzero : ¬ m.current = 0 := of_decide_eq_false h
      have hnonzero' : ¬ (m.onInput input reads).current = 0 := hnonzero
      rw [act, act, if_neg hnonzero, if_neg hnonzero']
      rfl
  | _ => rfl

/-- An instruction does the same on another input, if what it reads there has the same value. -/
theorem act_onInput (hm : m.onInput input reads = m)
    (hvalue : m.readsOn i = true → inputValue input reads = inputValue input' reads) :
    (m.onInput input' reads).act config token i =
      (m.act config token i).map (·.onInput input' (reads + (m.readsOn i).toNat)) := by
  cases hread : m.readsOn i with
  | false => exact act_onInput_of_not_readsOn hread
  | true =>
      have hread' : (m.onInput input' reads).readsOn i = true := hread
      rw [(act_of_readsOn hread).1, (act_of_readsOn hread').1, read_onInput, ← hvalue hread]
      have hhere : m.read = (m.setCurrent (inputValue input reads)).onInput input (reads + 1) := by
        rw [← read_onInput, hm]
      rw [hhere]
      rfl

end Machine

/-! ## Steps and runs -/

namespace Executable

variable {x : Executable} {config : Config} {clock : Clock} {input input' : String} {reads : Nat}

/-- Whether the next instruction reads. -/
def readsAt (x : Executable) (s : State) : Bool :=
  match x.program.instruction? s.token with
  | some i => s.machine.readsOn i
  | none => false

/-- The number of reads among the first `count` steps of a run. -/
def readCount (x : Executable) (config : Config) (clock : Clock) (count : Nat) (s : State) : Nat :=
  (x.trace config clock count s).countP x.readsAt

/-- A step on another input, which does not fail because of what it reads. -/
theorem next_onInput {s : State} (hs : s.machine.onInput input reads = s.machine)
    (hvalue : ∀ s', x.next config clock s = .running s' → x.readsAt s = true →
      inputValue input reads = inputValue input' reads) :
    x.next config clock ⟨s.token, s.machine.onInput input' reads⟩ =
      (x.next config clock s).map (·.onInput input' (reads + (x.readsAt s).toNat)) := by
  cases hi : x.program.instruction? s.token with
  | none =>
      have hread : x.readsAt s = false := by rw [readsAt, hi]
      have hend : x.next config clock s = .finished s.machine :=
        next_eq_finished_iff.2 ⟨hi, rfl⟩
      rw [hend, hread]
      exact next_eq_finished_iff.2 ⟨hi, rfl⟩
  | some i =>
      have hread : x.readsAt s = s.machine.readsOn i := by rw [readsAt, hi]
      have hi' : x.program.instruction? (⟨s.token, s.machine.onInput input' reads⟩ : State).token =
        some i := hi
      cases hlimit : limit? config clock s.machine.steps with
      | some fault =>
          rw [next_eq_failed_of_limit hi hlimit, next_eq_failed_of_limit hi' hlimit]
          rfl
      | none =>
          -- Where a loop instruction leads depends on the current cell.
          have hsucc : successor? x.loops s.token (s.machine.onInput input' reads) i =
              successor? x.loops s.token s.machine i := by
            cases i <;> rfl
          have hact : (s.machine.onInput input' reads).act config s.token i =
              (s.machine.act config s.token i).map
                (·.onInput input' (reads + (s.machine.readsOn i).toNat)) := by
            refine Machine.act_onInput hs fun hreadsOn => ?_
            -- An instruction that reads lets the run go on, so what it reads is known.
            obtain ⟨hok, plain⟩ := Machine.act_of_readsOn hreadsOn
            have hnext : x.next config clock s = .running ⟨s.token + 1, s.machine.read.tick⟩ := by
              rw [next_eq_stepped hi hlimit, hok, successor?_simple plain]
              rfl
            exact hvalue _ hnext (hread.trans hreadsOn)
          rw [next_eq_stepped hi hlimit, next_eq_stepped hi' hlimit, hsucc, hact, hread]
          cases s.machine.act config s.token i with
          | error fault => rfl
          | ok m => cases successor? x.loops s.token s.machine i <;> rfl

/-- On its own input a run stays where the number of its reads puts it. -/
theorem onInput_self_of_next {s s' : State} (hs : s.machine.onInput input reads = s.machine)
    (h : x.next config clock s = .running s') :
    s'.machine.onInput input (reads + (x.readsAt s).toNat) = s'.machine := by
  have hown : x.next config clock ⟨s.token, s.machine.onInput input reads⟩ =
      (x.next config clock s).map (·.onInput input (reads + (x.readsAt s).toNat)) :=
    next_onInput hs fun _ _ _ => rfl
  -- On its own input the step is the step itself.
  rw [hs] at hown
  have hsame := h.symm.trans (hown.trans (congrArg (Progress.map _) h))
  exact (congrArg State.machine (Progress.running.inj hsame)).symm

theorem readCount_succ_of_running {count : Nat} {s s' : State}
    (h : x.next config clock s = .running s') :
    x.readCount config clock (count + 1) s =
      (x.readsAt s).toNat + x.readCount config clock count s' := by
  rw [readCount, readCount, trace_succ_of_running h, List.countP_cons, Nat.add_comm]
  cases x.readsAt s <;> rfl

theorem readCount_succ_of_ends {count : Nat} {s : State} (result : Except Fault Machine)
    (h : x.next config clock s = .ofResult result) :
    x.readCount config clock (count + 1) s = 0 := by
  rw [readCount, trace_succ_of_ends result h, List.countP_nil]

/-- A run on another input that agrees in the first `n` values, as long as no more than these are read.
The run starts after `reads` reads. -/
theorem advance_onInput {n : Nat} (hvalues : ∀ i, i < n → inputValue input i = inputValue input' i)
    {count : Nat} {s : State} (hs : s.machine.onInput input reads = s.machine)
    (hreads : reads + x.readCount config clock count s ≤ n) :
    x.advance config clock count ⟨s.token, s.machine.onInput input' reads⟩ =
        (x.advance config clock count s).map
          (·.onInput input' (reads + x.readCount config clock count s)) ∧
      x.readCount config clock count ⟨s.token, s.machine.onInput input' reads⟩ =
        x.readCount config clock count s := by
  induction count generalizing reads s with
  | zero => exact ⟨rfl, rfl⟩
  | succ count ih =>
      have hnext' : x.next config clock ⟨s.token, s.machine.onInput input' reads⟩ =
          (x.next config clock s).map (·.onInput input' (reads + (x.readsAt s).toNat)) := by
        refine next_onInput hs fun s₁ hnext hread => hvalues reads ?_
        rw [readCount_succ_of_running hnext, hread, Bool.toNat_true] at hreads
        omega
      have hreadsAt : x.readsAt ⟨s.token, s.machine.onInput input' reads⟩ = x.readsAt s := rfl
      rw [advance_succ_eq_resume, advance_succ_eq_resume, hnext']
      cases hnext : x.next config clock s with
      | running s₁ =>
          rw [hnext] at hnext'
          rw [readCount_succ_of_running hnext, readCount_succ_of_running hnext', hreadsAt,
            ← Nat.add_assoc]
          rw [readCount_succ_of_running hnext, ← Nat.add_assoc] at hreads
          obtain ⟨hrun, hcount⟩ := ih (onInput_self_of_next hs hnext) hreads
          exact ⟨hrun, congrArg _ hcount⟩
      | finished m =>
          -- Behind the last instruction nothing is read any more.
          obtain ⟨hi, -⟩ := next_eq_finished_iff.1 hnext
          have hread : x.readsAt s = false := by rw [readsAt, hi]
          rw [hnext] at hnext'
          rw [readCount_succ_of_ends (.ok _) hnext, readCount_succ_of_ends (.ok _) hnext', hread]
          exact ⟨rfl, rfl⟩
      | failed fault =>
          rw [hnext] at hnext'
          rw [readCount_succ_of_ends (.error fault) hnext,
            readCount_succ_of_ends (.error fault) hnext']
          exact ⟨rfl, rfl⟩

/-- The runs on two inputs end alike: what one of them comes to the other comes to, with its own input and
a cursor in that. -/
def EndAlike (x : Executable) (config : Config) (clock : Clock) (input input' : String) : Prop :=
  (∀ result, x.EndsFrom config clock (initial config input) result →
    ∃ reads, x.EndsFrom config clock (initial config input') (result.map (·.onInput input' reads))) ∧
  (∀ result, x.EndsFrom config clock (initial config input') result →
    ∃ reads, x.EndsFrom config clock (initial config input) (result.map (·.onInput input reads)))

theorem advance_initial_onInput {n : Nat}
    (hvalues : ∀ i, i < n → inputValue input i = inputValue input' i) {count : Nat}
    (hreads : x.readCount config clock count (initial config input) ≤ n) :
    x.advance config clock count (initial config input') =
        (x.advance config clock count (initial config input)).map
          (·.onInput input' (x.readCount config clock count (initial config input))) ∧
      x.readCount config clock count (initial config input') =
        x.readCount config clock count (initial config input) := by
  have hown : (initial config input).machine.onInput input 0 = (initial config input).machine :=
    Machine.start_onInput config.tapeLen input input
  have hother : initial config input' =
      ⟨(initial config input).token, (initial config input).machine.onInput input' 0⟩ := by
    rw [initial, initial, Machine.start_onInput]
  have hreads' : 0 + x.readCount config clock count (initial config input) ≤ n := by
    rwa [Nat.zero_add]
  have hrun := advance_onInput hvalues hown hreads'
  rwa [Nat.zero_add, ← hother] at hrun

/-- What the run on one input comes to, the run on another one with the same values comes to. -/
theorem endsFrom_of_values (hvalues : ∀ i, inputValue input i = inputValue input' i)
    {result : Except Fault Machine}
    (h : x.EndsFrom config clock (initial config input) result) :
    ∃ reads,
      x.EndsFrom config clock (initial config input') (result.map (·.onInput input' reads)) := by
  obtain ⟨count, hcount⟩ := endsFrom_iff_reaches.1 h
  have hrun : x.advance config clock count (initial config input') =
      (x.advance config clock count (initial config input)).map
        (·.onInput input' (x.readCount config clock count (initial config input))) :=
    (advance_initial_onInput (fun i _ => hvalues i) le_rfl).1
  rw [hcount, Progress.map_ofResult] at hrun
  exact ⟨_, endsFrom_iff_reaches.2 ⟨count, hrun⟩⟩

theorem endAlike_of_values (hvalues : ∀ i, inputValue input i = inputValue input' i) :
    x.EndAlike config clock input input' :=
  ⟨fun _ => endsFrom_of_values hvalues, fun _ => endsFrom_of_values fun i => (hvalues i).symm⟩

/-- If two inputs have the same first `n` values, then for as many steps as make no more than `n` reads, and
with whatever result these steps come to, the run on one is the run on the other, with its own input and
cursor.  If all their values are the same, the runs end alike; so they do when the inputs differ by
characters at the end whose values are zero, or by a character in place of another with the same value. -/
theorem advance_eq_of_values (x : Executable) (config : Config) (clock : Clock) :
    (∀ input input' n, (∀ i, i < n → inputValue input i = inputValue input' i) →
      ∀ count, x.readCount config clock count (initial config input) ≤ n →
        x.advance config clock count (initial config input') =
            (x.advance config clock count (initial config input)).map
              (·.onInput input' (x.readCount config clock count (initial config input))) ∧
          x.readCount config clock count (initial config input') =
            x.readCount config clock count (initial config input)) ∧
    (∀ input input', (∀ i, inputValue input i = inputValue input' i) →
      x.EndAlike config clock input input') ∧
    (∀ input suffix, (∀ c ∈ suffix.toList, cellValue c = 0) →
      x.EndAlike config clock input (input ++ suffix)) ∧
    (∀ before after c c', cellValue c = cellValue c' →
      x.EndAlike config clock (String.ofList (before ++ c :: after))
        (String.ofList (before ++ c' :: after))) := by
  refine ⟨fun input input' n hvalues count hreads => advance_initial_onInput hvalues hreads,
    fun input input' hvalues => endAlike_of_values hvalues, fun input suffix hzero => ?_,
    fun before after c c' hvalue => ?_⟩
  · exact endAlike_of_values fun i => (inputValue_append hzero i).symm
  · exact endAlike_of_values (inputValue_replace hvalue)

/-- `oom OOM oom` prints the same for `A` and for the character 256 places after it.  For two inputs that begin
with `A` it prints the same before it reads again. -/
theorem advance_eq_of_values_on_letters :
    let x : Executable := ⟨.ofInstructions [.input, .output, .input], ⟨#[none, none, none], 0⟩⟩
    let config : Config := { tapeLen := 1 }
    (∃ cursor, x.EndsFrom config (fun _ => 0) (initial config "\u0141")
      (.ok ⟨#[0], 0, #['\u0141'], cursor, "A", none, 3⟩)) ∧
    x.advance config (fun _ => 0) 2 (initial config "AC") =
      .running ⟨2, ⟨#[65], 0, #['A', 'C'], 1, "A", none, 2⟩⟩ := by
  intro x config
  have hletter : x.EndsFrom config (fun _ => 0) (initial config "A")
      (.ok ⟨#[0], 0, #['A'], 1, "A", none, 3⟩) := ⟨4, by decide +kernel⟩
  have hvalue : cellValue 'A' = cellValue '\u0141' := rfl
  obtain ⟨hagree, -, -, hreplace⟩ := advance_eq_of_values x config fun _ => 0
  obtain ⟨reads, hends⟩ := (hreplace [] [] 'A' '\u0141' hvalue).1 _ hletter
  refine ⟨⟨_, hends⟩, ?_⟩
  have hfirst : ∀ i, i < 1 → inputValue "AB" i = inputValue "AC" i := by decide +kernel
  have hreads : x.readCount config (fun _ => 0) 2 (initial config "AB") = 1 := by decide +kernel
  rw [(hagree "AB" "AC" 1 hfirst 2 hreads.le).1, hreads]
  decide +kernel

end Executable

end CowLang
