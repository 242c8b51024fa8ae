import CowLang.Execution
import CowLang.Proofs.Block
/-!
# Single steps of a run

What one step of a run does, said once.  A step has two parts: `Machine.act` is what the instruction
does to the machine, and `successor?` is the choice of the next token.  All that is known about runs is
derived from these two, by induction on the number of steps.

Main statements: `next_eq_running_iff` (all that a step can do), `next_simple`, `next_loopOpen` and
`next_loopClose` (where a step leads), `invariant_of_advance` (what every step keeps, a run keeps),
`advance_map` (runs correspond if their steps do) and `Reaches.trans` (runs can be put together).
-/

namespace CowLang

/-! ## One counted step -/

/-- The fault that forbids a further step after `steps` of them, if the step budget is used up. -/
def Config.exhausted? (config : Config) (steps : Nat) : Option Fault :=
  match config.maxSteps with
  | some limit => if limit ≤ steps then some (.stepLimitExceeded limit) else none
  | none => none

namespace Machine

/-- What the instruction at index `token` does to the machine.  Loop instructions only look at the
current cell, so they leave the machine as it is. -/
def act (config : Config) (token : Nat) (m : Machine) : Instruction → Except Fault Machine
  | .pointerRight => m.moveRight config.pointerPolicy token
  | .pointerLeft => m.moveLeft config.pointerPolicy token
  | .increment => m.increment config.overflowPolicy token
  | .decrement => m.decrement config.underflowPolicy token
  | .input => .ok m.read
  | .output => .ok m.write
  | .reset => .ok (m.setCurrent 0)
  | .register =>
    match config.registerMode with
    | .inert => .ok m
    | .transfer => .ok m.transfer
  | .conditionalIo => .ok (if m.current = 0 then m.read else m.write)
  | .exec | .loopOpen | .loopClose => .ok m

/-- One counted step: the budget is consulted, the instruction acts, and the step is counted. -/
def perform (config : Config) (token : Nat) (m : Machine) (i : Instruction) :
    Except Fault Machine :=
  match config.exhausted? m.steps with
  | some fault => .error fault
  | none => (m.act config token i).map tick

end Machine

/-! ## Runs by token index -/

/-- A step that leads to a token, or fails. -/
def Progress.after (token : Nat) : Except Fault Machine → Progress
  | .ok m => .running ⟨token, m⟩
  | .error fault => .failed fault

/-- A step after the machine's share of it: the run goes on at the successor, if there is one. -/
def Progress.stepped (token : Nat) (successor : Option Nat) : Except Fault Machine → Progress
  | .error fault => .failed fault
  | .ok m =>
    match successor with
    | some token' => .running ⟨token', m.tick⟩
    | none => .failed (.unresolvedJump token)

/-- The end of a run with a result. -/
def Progress.ofResult : Except Fault Machine → Progress
  | .ok m => .finished m
  | .error fault => .failed fault

theorem Progress.ofResult_ne_running (result : Except Fault Machine) (s : State) :
    ofResult result ≠ .running s := by
  cases result <;> simp [ofResult]

theorem Progress.ofResult_injective : Function.Injective ofResult := by
  intro result result' h
  cases result <;> cases result' <;> simp_all [ofResult]

/-- The same progress with another machine in it. -/
def Progress.map (f : Machine → Machine) : Progress → Progress
  | .running s => .running ⟨s.token, f s.machine⟩
  | .finished m => .finished (f m)
  | .failed fault => .failed fault

theorem Progress.map_ofResult (f : Machine → Machine) (result : Except Fault Machine) :
    (ofResult result).map f = ofResult (result.map f) := by
  cases result <;> rfl

theorem Progress.map_eq_ofResult_iff {f : Machine → Machine} {p : Progress}
    {result : Except Fault Machine} :
    p.map f = .ofResult result ↔ ∃ result', p = .ofResult result' ∧ result = result'.map f := by
  constructor
  · intro h
    cases p with
    | running s => exact absurd h.symm (ofResult_ne_running result _)
    | finished m => exact ⟨.ok m, rfl, ofResult_injective h.symm⟩
    | failed fault => exact ⟨.error fault, rfl, ofResult_injective h.symm⟩
  · rintro ⟨result', rfl, rfl⟩
    exact map_ofResult f result'

namespace Executable

variable {x : Executable} {config : Config} {clock : Clock}

/-- Goes on for up to `count` steps, unless the run has ended. -/
def resume (x : Executable) (config : Config) (clock : Clock) (count : Nat) : Progress → Progress
  | .running s => x.advance config clock count s
  | .finished machine => .finished machine
  | .failed fault => .failed fault

theorem advance_add_eq_resume (m n : Nat) (s : State) :
    x.advance config clock (m + n) s = x.resume config clock n (x.advance config clock m s) := by
  rw [advance_add]
  cases x.advance config clock m s <;> rfl

theorem advance_succ_eq_resume (n : Nat) (s : State) :
    x.advance config clock (n + 1) s = x.resume config clock n (x.next config clock s) := by
  rw [advance]
  cases x.next config clock s <;> rfl

/-- What goes on afterwards has not ended before. -/
theorem exists_running_of_resume {n : Nat} {p : Progress} {s' : State}
    (h : x.resume config clock n p = .running s') :
    ∃ s, p = .running s ∧ x.advance config clock n s = .running s' := by
  cases p with
  | running s => exact ⟨s, rfl, h⟩
  | finished m => cases h
  | failed fault => cases h

/-- The run from a state comes to a progress. -/
def Reaches (x : Executable) (config : Config) (clock : Clock) (s : State) (p : Progress) : Prop :=
  ∃ count, x.advance config clock count s = p

theorem Reaches.refl (s : State) : x.Reaches config clock s (.running s) :=
  ⟨0, rfl⟩

theorem Reaches.trans {s s' : State} {p : Progress} (h : x.Reaches config clock s (.running s'))
    (h' : x.Reaches config clock s' p) : x.Reaches config clock s p := by
  obtain ⟨m, hm⟩ := h
  obtain ⟨n, hn⟩ := h'
  exact ⟨m + n, by rw [advance_add_eq_resume, hm, resume, hn]⟩

theorem Reaches.of_next {s : State} (p : Progress) (h : x.next config clock s = p) :
    x.Reaches config clock s p := by
  refine ⟨1, ?_⟩
  rw [advance, h]
  cases p <;> rfl

/-- A run that ends and whose first step is known goes on from that step. -/
theorem exists_resume_of_next {n : Nat} {s : State} {p p' : Progress}
    (hrun : x.advance config clock n s = p) (hend : ∀ s, p ≠ .running s)
    (hnext : x.next config clock s = p') : ∃ k, k < n ∧ x.resume config clock k p' = p := by
  cases n with
  | zero => exact absurd hrun.symm (hend s)
  | succ n => exact ⟨n, Nat.lt_succ_self n, by rw [← hnext, ← advance_succ_eq_resume, hrun]⟩

/-- A run that has ended makes no further steps. -/
theorem resume_ofResult (n : Nat) (result : Except Fault Machine) :
    x.resume config clock n (.ofResult result) = .ofResult result := by
  cases result <;> rfl

/-- A run ends in one way at most. -/
theorem Reaches.ofResult_inj {s : State} {result result' : Except Fault Machine}
    (h : x.Reaches config clock s (.ofResult result))
    (h' : x.Reaches config clock s (.ofResult result')) : result = result' := by
  obtain ⟨m, hm⟩ := h
  obtain ⟨n, hn⟩ := h'
  have hmn : x.advance config clock (m + n) s = .ofResult result := by
    rw [advance_add_eq_resume, hm, resume_ofResult]
  have hnm : x.advance config clock (n + m) s = .ofResult result' := by
    rw [advance_add_eq_resume, hn, resume_ofResult]
  rw [Nat.add_comm, hnm] at hmn
  exact (Progress.ofResult_injective hmn).symm

theorem endsFrom_iff_reaches {s : State} {result : Except Fault Machine} :
    x.EndsFrom config clock s result ↔ x.Reaches config clock s (.ofResult result) := by
  cases result <;> rfl

theorem EndsFrom.iff_eq {s : State} {result result' : Except Fault Machine}
    (h : x.EndsFrom config clock s result) :
    x.EndsFrom config clock s result' ↔ result' = result := by
  constructor
  · intro h'
    exact (endsFrom_iff_reaches.1 h').ofResult_inj (endsFrom_iff_reaches.1 h)
  · rintro rfl
    exact h

/-- A run ends as it does from any state on its way. -/
theorem Reaches.endsFrom_iff {s s' : State} (h : x.Reaches config clock s (.running s'))
    {result : Except Fault Machine} :
    x.EndsFrom config clock s result ↔ x.EndsFrom config clock s' result := by
  rw [endsFrom_iff_reaches, endsFrom_iff_reaches]
  constructor
  · rintro ⟨n, hn⟩
    obtain ⟨m, hm⟩ := h
    refine ⟨n, ?_⟩
    -- The run has ended after `n` steps, so it has after the `m` that lead to `s'` and `n` more.
    have hlater : x.advance config clock (n + m) s = .ofResult result := by
      rw [advance_add_eq_resume, hn, resume_ofResult]
    rwa [Nat.add_comm, advance_add_eq_resume, hm, resume] at hlater
  · exact h.trans

/-- Without a timeout the clock is never looked at. -/
theorem limit?_eq_exhausted? (h : config.timeout = none) (steps : Nat) :
    limit? config clock steps = config.exhausted? steps := by
  cases hmax : config.maxSteps <;> simp [limit?, limit?.deadline?, Config.exhausted?, hmax, h]

theorem limit?_eq_none (hmax : config.maxSteps = none) (htimeout : config.timeout = none)
    (steps : Nat) : limit? config clock steps = none := by
  rw [limit?_eq_exhausted? htimeout, Config.exhausted?, hmax]

/-- A simple instruction acts on the machine and hands on to the next token. -/
theorem execute_simple {loops : LoopTable} {token : Nat} {i : Instruction}
    (plain : i.isLoop = false) (m : Machine) :
    execute config loops i ⟨token, m⟩ = proceed token (m.act config token i) := by
  cases i with
  | loopOpen => cases plain
  | loopClose => cases plain
  | register =>
      simp only [execute, Machine.act]
      cases config.registerMode <;> rfl
  | conditionalIo =>
      simp only [execute, Machine.act]
      split <;> rfl
  | _ => rfl

/-- Where the run goes on after the token at an index.  A loop instruction that jumps goes on after its
partner, if it has one. -/
def successor? (loops : LoopTable) (token : Nat) (m : Machine) : Instruction → Option Nat
  | .loopOpen => if m.current = 0 then (loops.target? token).map (· + 1) else some (token + 1)
  | .loopClose => if m.current = 0 then some (token + 1) else (loops.target? token).map (· + 1)
  | _ => some (token + 1)

theorem successor?_simple {loops : LoopTable} {token : Nat} {m : Machine} {i : Instruction}
    (plain : i.isLoop = false) : successor? loops token m i = some (token + 1) := by
  cases i with
  | loopOpen => cases plain
  | loopClose => cases plain
  | _ => rfl

/-- Where the run goes on depends on the machine through its current cell only. -/
theorem successor?_congr {loops : LoopTable} {token : Nat} {m m' : Machine}
    (h : m'.current = m.current) (i : Instruction) :
    successor? loops token m' i = successor? loops token m i := by
  cases i <;> simp only [successor?, h]

/-- Once no limit forbids it, a step acts on the machine and looks for the next token. -/
theorem next_eq_stepped {s : State} {i : Instruction}
    (hi : x.program.instruction? s.token = some i)
    (hlimit : limit? config clock s.machine.steps = none) :
    x.next config clock s =
      .stepped s.token (successor? x.loops s.token s.machine i)
        (s.machine.act config s.token i) := by
  obtain ⟨token, m⟩ := s
  by_cases plain : i.isLoop = false
  · simp only [next, hi, hlimit, execute_simple plain, successor?_simple plain]
    cases m.act config token i <;> rfl
  · cases i with
    | loopOpen =>
        simp only [next, hi, hlimit, execute, jump, successor?, Machine.act]
        by_cases hzero : m.current = 0
        · simp only [if_pos hzero]
          cases x.loops.target? token <;> rfl
        · simp only [if_neg hzero]
          rfl
    | loopClose =>
        simp only [next, hi, hlimit, execute, jump, successor?, Machine.act]
        by_cases hzero : m.current = 0
        · simp only [if_pos hzero]
          rfl
        · simp only [if_neg hzero]
          cases x.loops.target? token <;> rfl
    | _ => exact absurd rfl plain

/-- A limit forbids the step, whatever the instruction is. -/
theorem next_eq_failed_of_limit {s : State} {i : Instruction} {fault : Fault}
    (hi : x.program.instruction? s.token = some i)
    (hlimit : limit? config clock s.machine.steps = some fault) :
    x.next config clock s = .failed fault := by
  simp only [next, hi, hlimit]

/-- What a step after which the run goes on has done. -/
theorem next_eq_running_iff {s s' : State} :
    x.next config clock s = .running s' ↔
      ∃ i m, x.program.instruction? s.token = some i ∧
        limit? config clock s.machine.steps = none ∧
        s.machine.act config s.token i = .ok m ∧
        successor? x.loops s.token s.machine i = some s'.token ∧ s'.machine = m.tick := by
  constructor
  · intro h
    cases hi : x.program.instruction? s.token with
    | none =>
        simp only [next, hi] at h
        cases h
    | some i =>
        cases hlimit : limit? config clock s.machine.steps with
        | some fault =>
            rw [next_eq_failed_of_limit hi hlimit] at h
            cases h
        | none =>
            rw [next_eq_stepped hi hlimit] at h
            cases hact : s.machine.act config s.token i with
            | error fault =>
                rw [hact] at h
                cases h
            | ok m =>
                cases hsucc : successor? x.loops s.token s.machine i with
                | none =>
                    rw [hact, hsucc] at h
                    cases h
                | some token =>
                    rw [hact, hsucc] at h
                    cases h
                    exact ⟨i, m, rfl, rfl, hact, hsucc, rfl⟩
  · rintro ⟨i, m, hi, hlimit, hact, hsucc, hmachine⟩
    rw [next_eq_stepped hi hlimit, hact, hsucc, Progress.stepped, ← hmachine]

/-- Without a timeout, a step is a counted step of the machine and leads to the successor. -/
theorem next_eq_after (clock : Clock) {s : State} {i : Instruction} {token : Nat}
    (h : config.timeout = none) (hi : x.program.instruction? s.token = some i)
    (hsucc : successor? x.loops s.token s.machine i = some token) :
    x.next config clock s = .after token (s.machine.perform config s.token i) := by
  have hlimit : limit? config clock s.machine.steps = config.exhausted? s.machine.steps :=
    limit?_eq_exhausted? h s.machine.steps
  cases hexhausted : config.exhausted? s.machine.steps with
  | some fault =>
      rw [next_eq_failed_of_limit hi (hlimit.trans hexhausted), Machine.perform, hexhausted]
      rfl
  | none =>
      rw [next_eq_stepped hi (hlimit.trans hexhausted), Machine.perform, hexhausted, hsucc]
      cases s.machine.act config s.token i <;> rfl

/-- A simple instruction acts and leads to the next token. -/
theorem next_simple (clock : Clock) {token : Nat} {i : Instruction} (h : config.timeout = none)
    (hi : x.program.instruction? token = some i) (plain : i.isLoop = false) (m : Machine) :
    x.next config clock ⟨token, m⟩ = .after (token + 1) (m.perform config token i) :=
  next_eq_after clock h hi (successor?_simple plain)

/-- `MOO` leads past its partner when the current cell is zero. -/
theorem next_loopOpen (clock : Clock) {token last : Nat} (h : config.timeout = none)
    (hi : x.program.instruction? token = some .loopOpen)
    (htarget : x.loops.target? token = some last) (m : Machine) :
    x.next config clock ⟨token, m⟩ =
      .after (if m.current = 0 then last + 1 else token + 1) (m.perform config token .loopOpen) := by
  refine next_eq_after clock h hi ?_
  rw [successor?, htarget]
  split <;> rfl

/-- `moo` leads past its partner unless the current cell is zero. -/
theorem next_loopClose (clock : Clock) {token first : Nat} (h : config.timeout = none)
    (hi : x.program.instruction? token = some .loopClose)
    (htarget : x.loops.target? token = some first) (m : Machine) :
    x.next config clock ⟨token, m⟩ =
      .after (if m.current = 0 then token + 1 else first + 1)
        (m.perform config token .loopClose) := by
  refine next_eq_after clock h hi ?_
  rw [successor?, htarget]
  split <;> rfl

/-! ## From steps to runs -/

/-- What every step keeps, a whole run keeps. -/
theorem invariant_of_advance {P : State → Prop}
    (hstep : ∀ s s', P s → x.next config clock s = .running s' → P s') {n : Nat} {s s' : State}
    (hs : P s) (hrun : x.advance config clock n s = .running s') : P s' := by
  induction n generalizing s with
  | zero =>
      cases hrun
      exact hs
  | succ n ih =>
      rw [advance_succ_eq_resume] at hrun
      obtain ⟨s₁, hnext, hrest⟩ := exists_running_of_resume hrun
      exact ih (hstep s s₁ hs hnext) hrest

/-- The states in which the first `count` steps of a run were made, in order. -/
def trace (x : Executable) (config : Config) (clock : Clock) : Nat → State → List State
  | 0, _ => []
  | count + 1, s =>
    match x.next config clock s with
    | .running s' => s :: x.trace config clock count s'
    | .finished _ | .failed _ => []

theorem trace_succ_of_running {count : Nat} {s s' : State}
    (h : x.next config clock s = .running s') :
    x.trace config clock (count + 1) s = s :: x.trace config clock count s' := by
  rw [trace, h]

/-- Where a run ends, no step is made. -/
theorem trace_succ_of_ends {count : Nat} {s : State} (result : Except Fault Machine)
    (h : x.next config clock s = .ofResult result) : x.trace config clock (count + 1) s = [] := by
  rw [trace, h]
  cases result <;> rfl

/-- The states of a run are those of its first portion and those of what follows it. -/
theorem trace_add {m n : Nat} {s s' : State} (h : x.advance config clock m s = .running s') :
    x.trace config clock (m + n) s = x.trace config clock m s ++ x.trace config clock n s' := by
  induction m generalizing s with
  | zero =>
      cases h
      rw [Nat.zero_add, trace, List.nil_append]
  | succ m ih =>
      rw [advance_succ_eq_resume] at h
      obtain ⟨s₁, hnext, hrest⟩ := exists_running_of_resume h
      rw [Nat.add_right_comm, trace_succ_of_running hnext, trace_succ_of_running hnext, ih hrest,
        List.cons_append]

/-- One more step adds the state in which it was made. -/
theorem trace_concat {count : Nat} {init s s' : State}
    (hrun : x.advance config clock count init = .running s)
    (hnext : x.next config clock s = .running s') :
    x.trace config clock (count + 1) init = x.trace config clock count init ++ [s] := by
  rw [trace_add hrun, trace_succ_of_running hnext, trace]

/-- Two configurations give the same step if they set the same limit and, unless it forbids the step, let
the instruction do the same. -/
theorem next_congr {config' : Config} {s : State}
    (hlimit : limit? config' clock s.machine.steps = limit? config clock s.machine.steps)
    (hact : ∀ i, x.program.instruction? s.token = some i →
      limit? config clock s.machine.steps = none →
        s.machine.act config' s.token i = s.machine.act config s.token i) :
    x.next config' clock s = x.next config clock s := by
  cases hi : x.program.instruction? s.token with
  | none => simp only [next, hi]
  | some i =>
      cases hfault : limit? config clock s.machine.steps with
      | some fault =>
          rw [next_eq_failed_of_limit hi hfault, next_eq_failed_of_limit hi (hlimit.trans hfault)]
      | none =>
          rw [next_eq_stepped hi hfault, next_eq_stepped hi (hlimit.trans hfault),
            hact i hi hfault]

/-- A step on the image of a machine, if limits, the current cell and what instructions do carry over to
the image. -/
theorem next_map {config' : Config} {g : Machine → Machine} {s : State}
    (hlimit : limit? config' clock (g s.machine).steps = limit? config clock s.machine.steps)
    (hcurrent : (g s.machine).current = s.machine.current) (htick : ∀ m, (g m).tick = g m.tick)
    (hact : ∀ i, x.program.instruction? s.token = some i →
      limit? config clock s.machine.steps = none →
        (g s.machine).act config' s.token i = (s.machine.act config s.token i).map g) :
    x.next config' clock ⟨s.token, g s.machine⟩ = (x.next config clock s).map g := by
  cases hi : x.program.instruction? s.token with
  | none =>
      simp only [next, hi]
      rfl
  | some i =>
      have hi' : x.program.instruction? (⟨s.token, g s.machine⟩ : State).token = some i := hi
      cases hfault : limit? config clock s.machine.steps with
      | some fault =>
          rw [next_eq_failed_of_limit hi hfault, next_eq_failed_of_limit hi' (hlimit.trans hfault)]
          rfl
      | none =>
          rw [next_eq_stepped hi hfault, next_eq_stepped hi' (hlimit.trans hfault),
            hact i hi hfault, successor?_congr hcurrent]
          cases s.machine.act config s.token i with
          | error fault => rfl
          | ok m =>
              cases successor? x.loops s.token s.machine i with
              | none => rfl
              | some token => exact congrArg (fun m => Progress.running ⟨token, m⟩) (htick m)

/-- A run whose steps are the images of those of another run is itself the image of that run. -/
theorem advance_map {y : Executable} {config' : Config} {F : Progress → Progress}
    {g : State → State} (hrunning : ∀ s, F (.running s) = .running (g s))
    (hended : ∀ result, ∃ result', F (.ofResult result) = .ofResult result') {n : Nat} {s : State}
    (h : ∀ k, k < n → ∀ s', x.advance config clock k s = .running s' →
      y.next config' clock (g s') = F (x.next config clock s')) :
    y.advance config' clock n (g s) = F (x.advance config clock n s) := by
  induction n generalizing s with
  | zero => exact (hrunning s).symm
  | succ n ih =>
      have hresume (result : Except Fault Machine) :
          y.resume config' clock n (F (.ofResult result)) = F (.ofResult result) := by
        obtain ⟨result', hresult'⟩ := hended result
        rw [hresult', resume_ofResult]
      have hfirst := h 0 (Nat.succ_pos n) s rfl
      rw [advance_succ_eq_resume, advance_succ_eq_resume, hfirst]
      cases hnext : x.next config clock s with
      | running s₁ =>
          rw [hrunning]
          refine ih fun k hk s' hrun => ?_
          refine h (k + 1) (Nat.succ_lt_succ hk) s' ?_
          rw [advance_succ_eq_resume, hnext, resume, hrun]
      | finished m => exact hresume (.ok m)
      | failed fault => exact hresume (.error fault)

/-- Two configurations give the same run as far as they give the same steps. -/
theorem advance_congr {config' : Config} {n : Nat} {s : State}
    (h : ∀ k, k < n → ∀ s', x.advance config clock k s = .running s' →
      x.next config' clock s' = x.next config clock s') :
    x.advance config' clock n s = x.advance config clock n s :=
  advance_map (F := id) (g := id) (fun _ => rfl) (fun result => ⟨result, rfl⟩) h

end Executable

end CowLang
