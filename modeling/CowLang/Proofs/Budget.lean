import CowLang.Proofs.Effects
/-!
# Step budgets

A budget is consulted before a step and nowhere else, so as long as it is not used up a run goes on
as it would without one.  The step counter tells how far that is: every step counts once.

Main statements: `advance_running_of_unlimited` (a run and the run without a budget agree while the
budget lasts), `endsFrom_stepLimitExceeded` (a run that comes to a further step beyond its budget is
given up) and `endsFrom_limited_iff` (what a budget makes of a run that succeeds, of one that fails and of
one that never ends).
-/

namespace CowLang

/-- The same configuration without a step budget. -/
def Config.unlimited (config : Config) : Config := { config with maxSteps := none }

/-- The same configuration with a given step budget. -/
def Config.limited (config : Config) (limit : Nat) : Config := { config with maxSteps := some limit }

theorem Config.unlimited_eq_self {config : Config} (h : config.maxSteps = none) :
    config.unlimited = config := by
  rw [unlimited, ← h]

theorem Config.exhausted?_of_lt {config : Config} {limit steps : Nat}
    (hmax : config.maxSteps = some limit) (h : steps < limit) : config.exhausted? steps = none := by
  simp only [exhausted?, hmax, if_neg (Nat.not_le.2 h)]

theorem Config.exhausted?_of_le {config : Config} {limit steps : Nat}
    (hmax : config.maxSteps = some limit) (h : limit ≤ steps) :
    config.exhausted? steps = some (.stepLimitExceeded limit) := by
  simp only [exhausted?, hmax, if_pos h]

/-! ## Every step counts once -/

namespace Executable

variable {x : Executable} {config : Config} {clock : Clock}

/-- A step after which the run goes on has been counted. -/
theorem steps_of_next_running {s s' : State} (h : x.next config clock s = .running s') :
    s'.machine.steps = s.machine.steps + 1 := by
  obtain ⟨i, m, -, -, hact, -, hmachine⟩ := next_eq_running_iff.1 h
  rw [hmachine]
  exact congrArg (· + 1) (Machine.effect_act hact).steps_eq

theorem steps_of_advance_running {n : Nat} {s s' : State}
    (h : x.advance config clock n s = .running s') :
    s'.machine.steps = s.machine.steps + n := by
  induction n generalizing s with
  | zero =>
      cases h
      rfl
  | succ n ih =>
      rw [advance_succ_eq_resume] at h
      obtain ⟨s₁, hnext, hrun⟩ := exists_running_of_resume h
      have hrest := ih hrun
      have hfirst := steps_of_next_running hnext
      omega

theorem next_eq_finished_iff {s : State} {m : Machine} :
    x.next config clock s = .finished m ↔
      x.program.instruction? s.token = none ∧ s.machine = m := by
  constructor
  · intro h
    simp only [next] at h
    split at h
    · next hi => exact ⟨hi, Progress.finished.inj h⟩
    · split at h
      · cases h
      · split at h <;> cases h
  · rintro ⟨hi, rfl⟩
    simp only [next, hi]

/-- A run that goes on can be halted on the way. -/
theorem exists_running_of_advance_add {m n : Nat} {s s' : State}
    (h : x.advance config clock (m + n) s = .running s') :
    ∃ s₁, x.advance config clock m s = .running s₁ ∧ x.advance config clock n s₁ = .running s' := by
  rw [advance_add_eq_resume] at h
  exact exists_running_of_resume h

/-- A run that ends does so in the step after some state. -/
theorem exists_running_of_advance_ends {n : Nat} {s : State} {result : Except Fault Machine}
    (h : x.advance config clock n s = .ofResult result) :
    ∃ k s', x.advance config clock k s = .running s' ∧
      x.next config clock s' = .ofResult result := by
  induction n generalizing s with
  | zero => exact absurd h.symm (Progress.ofResult_ne_running result s)
  | succ n ih =>
      rw [advance_succ_eq_resume] at h
      cases hnext : x.next config clock s with
      | running s₁ =>
          rw [hnext] at h
          obtain ⟨k, s', hrun, hend⟩ := ih h
          exact ⟨k + 1, s', by rw [advance_succ_eq_resume, hnext, resume, hrun], hend⟩
      | finished m =>
          rw [hnext] at h
          exact ⟨0, s, rfl, hnext.trans h⟩
      | failed fault =>
          rw [hnext] at h
          exact ⟨0, s, rfl, hnext.trans h⟩

/-- The run from a state ends with a result after `count` completed steps. -/
def EndsAfter (x : Executable) (config : Config) (clock : Clock) (s : State) (count : Nat)
    (result : Except Fault Machine) : Prop :=
  ∃ s', x.advance config clock count s = .running s' ∧ x.next config clock s' = .ofResult result

/-- A run that ends does so after some number of completed steps. -/
theorem endsFrom_iff_exists_endsAfter {s : State} {result : Except Fault Machine} :
    x.EndsFrom config clock s result ↔ ∃ count, x.EndsAfter config clock s count result := by
  rw [endsFrom_iff_reaches]
  constructor
  · rintro ⟨n, hn⟩
    exact exists_running_of_advance_ends hn
  · rintro ⟨count, s', hrun, hend⟩
    exact Reaches.trans ⟨count, hrun⟩ (.of_next _ hend)

/-- A run that succeeds has done so as soon as it may make one step more than it counts. -/
theorem advance_eq_finished {count : Nat} {s : State} {m : Machine}
    (h : x.EndsFrom config clock s (.ok m)) (hcount : m.steps < s.machine.steps + count) :
    x.advance config clock count s = .finished m := by
  obtain ⟨n, s', hrun, hend⟩ := endsFrom_iff_exists_endsAfter.1 h
  obtain ⟨-, rfl⟩ := next_eq_finished_iff.1 hend
  have hsteps := steps_of_advance_running hrun
  obtain ⟨rest, rfl⟩ : ∃ rest, count = n + (rest + 1) := ⟨count - n - 1, by omega⟩
  rw [advance_add_eq_resume, hrun, resume, advance_succ_eq_resume, hend]
  rfl

/-- A run that never ends can be followed as far as one likes. -/
theorem exists_running_of_endless {s : State} (h : ∀ result, ¬ x.EndsFrom config clock s result)
    (n : Nat) : ∃ s', x.advance config clock n s = .running s' := by
  cases hrun : x.advance config clock n s with
  | running s' => exact ⟨s', rfl⟩
  | finished m => exact absurd ⟨n, hrun⟩ (h (.ok m))
  | failed fault => exact absurd ⟨n, hrun⟩ (h (.error fault))

/-- Where the program has not ended, there is an instruction. -/
theorem exists_instruction {s : State} (h : ∀ m, x.next config clock s ≠ .finished m) :
    ∃ i, x.program.instruction? s.token = some i := by
  cases hi : x.program.instruction? s.token with
  | none => exact absurd (next_eq_finished_iff.2 ⟨hi, rfl⟩) (h s.machine)
  | some i => exact ⟨i, rfl⟩

/-! ## While the budget lasts -/

/-- A step within the budget is made as it would be without one. -/
theorem next_eq_unlimited {s : State} (htimeout : config.timeout = none)
    (hwithin : config.exhausted? s.machine.steps = none) :
    x.next config clock s = x.next config.unlimited clock s := by
  have htimeout' : config.unlimited.timeout = none := htimeout
  have hwithin' : config.unlimited.exhausted? s.machine.steps = none := rfl
  refine next_congr ?_ fun i _ _ => ?_
  · rw [limit?_eq_exhausted? htimeout, limit?_eq_exhausted? htimeout', hwithin, hwithin']
  · cases i <;> rfl

/-- A step that the budget forbids is not made. -/
theorem next_eq_failed_of_exhausted {s : State} {i : Instruction} {fault : Fault}
    (htimeout : config.timeout = none) (hi : x.program.instruction? s.token = some i)
    (hexhausted : config.exhausted? s.machine.steps = some fault) :
    x.next config clock s = .failed fault :=
  next_eq_failed_of_limit hi ((limit?_eq_exhausted? htimeout _).trans hexhausted)

section Limit

variable {limit : Nat} (htimeout : config.timeout = none) (hmax : config.maxSteps = some limit)

include htimeout hmax

/-- As far as the budget reaches, a run goes on as it would without one. -/
theorem advance_running_of_unlimited {n : Nat} {s s' : State}
    (hrun : x.advance config.unlimited clock n s = .running s')
    (hwithin : s'.machine.steps ≤ limit) : x.advance config clock n s = .running s' := by
  induction n generalizing s with
  | zero => exact hrun
  | succ n ih =>
      have hsteps := steps_of_advance_running hrun
      rw [advance_succ_eq_resume, ← next_eq_unlimited htimeout
        (Config.exhausted?_of_lt hmax (by omega))] at hrun
      obtain ⟨s₁, hnext, hrest⟩ := exists_running_of_resume hrun
      rw [advance_succ_eq_resume, hnext]
      exact ih hrest

/-- A run that comes to a further step when its budget is used up is given up. -/
theorem endsFrom_stepLimitExceeded {n : Nat} {s s' : State} {i : Instruction}
    (hstart : s.machine.steps ≤ limit)
    (hrun : x.advance config.unlimited clock n s = .running s')
    (hi : x.program.instruction? s'.token = some i) (hused : limit ≤ s'.machine.steps) :
    x.EndsFrom config clock s (.error (.stepLimitExceeded limit)) := by
  -- The budget is used up in the state after `count` steps, and a step is to be made there.
  obtain ⟨count, hcount⟩ := Nat.exists_eq_add_of_le hstart
  have hsteps := steps_of_advance_running hrun
  obtain ⟨rest, rfl⟩ : ∃ rest, n = count + rest := ⟨n - count, by omega⟩
  obtain ⟨s₁, hfirst, hlater⟩ := exists_running_of_advance_add hrun
  have hsteps₁ := steps_of_advance_running hfirst
  obtain ⟨j, hj⟩ : ∃ j, x.program.instruction? s₁.token = some j := by
    cases rest with
    | zero =>
        cases hlater
        exact ⟨i, hi⟩
    | succ rest =>
        rw [advance_succ_eq_resume] at hlater
        obtain ⟨s₂, hnext, -⟩ := exists_running_of_resume hlater
        obtain ⟨j, m, hj, -⟩ := next_eq_running_iff.1 hnext
        exact ⟨j, hj⟩
  have hfailed : x.next config clock s₁ = .failed (.stepLimitExceeded limit) :=
    next_eq_failed_of_exhausted htimeout hj (Config.exhausted?_of_le hmax (by omega))
  have hrun₁ := advance_running_of_unlimited htimeout hmax hfirst (by omega)
  exact endsFrom_iff_exists_endsAfter.2 ⟨count, s₁, hrun₁, hfailed⟩

/-- A run that succeeds without a budget succeeds with one that covers its steps, and is given up
with a smaller one. -/
theorem endsFrom_of_unlimited_ok {s : State} {m : Machine} (hstart : s.machine.steps ≤ limit)
    (h : x.EndsFrom config.unlimited clock s (.ok m)) :
    x.EndsFrom config clock s
      (if m.steps ≤ limit then .ok m else .error (.stepLimitExceeded limit)) := by
  obtain ⟨n, s', hrun, hend⟩ := endsFrom_iff_exists_endsAfter.1 h
  obtain ⟨hi, rfl⟩ := next_eq_finished_iff.1 hend
  by_cases hwithin : s'.machine.steps ≤ limit
  · rw [if_pos hwithin]
    have hrun' := advance_running_of_unlimited htimeout hmax hrun hwithin
    exact endsFrom_iff_exists_endsAfter.2 ⟨n, s', hrun', next_eq_finished_iff.2 ⟨hi, rfl⟩⟩
  · rw [if_neg hwithin]
    -- The step that leads to the end is one too many.
    have hsteps := steps_of_advance_running hrun
    obtain ⟨k, rfl⟩ : ∃ k, n = k + 1 := ⟨n - 1, by omega⟩
    obtain ⟨s₁, hfirst, hlast⟩ := exists_running_of_advance_add hrun
    have hsteps₁ := steps_of_advance_running hfirst
    rw [advance_succ_eq_resume] at hlast
    obtain ⟨s₂, hnext, -⟩ := exists_running_of_resume hlast
    obtain ⟨i, m, hi₁, -⟩ := next_eq_running_iff.1 hnext
    exact endsFrom_stepLimitExceeded htimeout hmax hstart hfirst hi₁ (by omega)

/-- A run that fails without a budget fails in the same way with one that allows the failing step, and
is given up with a smaller one. -/
theorem endsFrom_of_unlimited_error {s : State} {count : Nat} {fault : Fault}
    (hstart : s.machine.steps ≤ limit)
    (h : x.EndsAfter config.unlimited clock s count (.error fault)) :
    x.EndsFrom config clock s
      (if s.machine.steps + count < limit then .error fault
        else .error (.stepLimitExceeded limit)) := by
  obtain ⟨s', hrun, hend⟩ := h
  have hsteps := steps_of_advance_running hrun
  by_cases hwithin : s.machine.steps + count < limit
  · rw [if_pos hwithin]
    have hnext : x.next config clock s' = .failed fault := by
      rw [next_eq_unlimited htimeout (Config.exhausted?_of_lt hmax (by omega))]
      exact hend
    have hrun' := advance_running_of_unlimited htimeout hmax hrun (by omega)
    exact endsFrom_iff_exists_endsAfter.2 ⟨count, s', hrun', hnext⟩
  · rw [if_neg hwithin]
    obtain ⟨i, hi⟩ := exists_instruction (fun m hm => by rw [hend] at hm; cases hm)
    exact endsFrom_stepLimitExceeded htimeout hmax hstart hrun hi (by omega)

/-- A run that never ends without a budget is given up with any. -/
theorem endsFrom_of_unlimited_endless {s : State} (hstart : s.machine.steps ≤ limit)
    (h : ∀ result, ¬ x.EndsFrom config.unlimited clock s result) :
    x.EndsFrom config clock s (.error (.stepLimitExceeded limit)) := by
  obtain ⟨s', hrun⟩ := exists_running_of_endless h limit
  have hsteps := steps_of_advance_running hrun
  obtain ⟨i, hi⟩ := exists_instruction (fun m hm =>
    h (.ok m) (endsFrom_iff_exists_endsAfter.2 ⟨limit, s', hrun, hm⟩))
  exact endsFrom_stepLimitExceeded htimeout hmax hstart hrun hi (by omega)

/-- With a budget, every run ends. -/
theorem exists_endsFrom_of_limited {s : State} (hstart : s.machine.steps ≤ limit) :
    ∃ result, x.EndsFrom config clock s result := by
  by_cases h : ∃ result, x.EndsFrom config.unlimited clock s result
  · obtain ⟨result, hresult⟩ := h
    cases result with
    | ok m => exact ⟨_, endsFrom_of_unlimited_ok htimeout hmax hstart hresult⟩
    | error fault =>
        obtain ⟨count, hafter⟩ := endsFrom_iff_exists_endsAfter.1 hresult
        exact ⟨_, endsFrom_of_unlimited_error htimeout hmax hstart hafter⟩
  · exact ⟨_, endsFrom_of_unlimited_endless htimeout hmax hstart fun result hresult =>
      h ⟨result, hresult⟩⟩

/-- No run makes more steps than its budget allows. -/
theorem steps_le_of_advance_running {n : Nat} {s s' : State} (hstart : s.machine.steps ≤ limit)
    (hrun : x.advance config clock n s = .running s') : s'.machine.steps ≤ limit := by
  refine invariant_of_advance (P := fun s => s.machine.steps ≤ limit) ?_ hstart hrun
  intro s s' _ hnext
  obtain ⟨i, m, hi, -⟩ := next_eq_running_iff.1 hnext
  have hsteps := steps_of_next_running hnext
  by_contra hbeyond
  rw [next_eq_failed_of_exhausted htimeout hi (Config.exhausted?_of_le hmax (by omega))] at hnext
  cases hnext

end Limit

/-- What a budget makes of a run, compared with the same run without one.  A run that succeeds after
`count` steps needs a budget of `count`, a run that fails after `count` steps needs one more to fail in
the same way, and a run without an end uses up every budget.  So every run with a budget ends. -/
theorem endsFrom_limited_iff (x : Executable) (config : Config) (clock : Clock) (input : String)
    (limit : Nat) (htimeout : config.timeout = none) :
    (∀ count m, x.EndsAfter config.unlimited clock (initial config input) count (.ok m) →
      m.steps = count ∧
        ∀ result, x.EndsFrom (config.limited limit) clock (initial config input) result ↔
          result = if count ≤ limit then .ok m else .error (.stepLimitExceeded limit)) ∧
    (∀ count fault,
      x.EndsAfter config.unlimited clock (initial config input) count (.error fault) →
        ∀ result, x.EndsFrom (config.limited limit) clock (initial config input) result ↔
          result = if count < limit then .error fault else .error (.stepLimitExceeded limit)) ∧
    ((∀ result, ¬ x.EndsFrom config.unlimited clock (initial config input) result) →
      ∀ result, x.EndsFrom (config.limited limit) clock (initial config input) result ↔
        result = .error (.stepLimitExceeded limit)) ∧
    (∃ result, x.EndsFrom (config.limited limit) clock (initial config input) result) ∧
    ∀ m, x.EndsFrom (config.limited limit) clock (initial config input) (.ok m) →
      m.steps ≤ limit := by
  have htimeout' : (config.limited limit).timeout = none := htimeout
  have hmax : (config.limited limit).maxSteps = some limit := rfl
  have hstart : (initial config input).machine.steps ≤ limit := Nat.zero_le limit
  refine ⟨fun count m h => ?_, fun count fault h => ?_, fun h => ?_, ?_, fun m h => ?_⟩
  · obtain ⟨s', hrun, hend⟩ := id h
    obtain ⟨-, rfl⟩ := next_eq_finished_iff.1 hend
    have hsteps : s'.machine.steps = count :=
      (steps_of_advance_running hrun).trans (Nat.zero_add count)
    have hends := endsFrom_of_unlimited_ok htimeout' hmax hstart
      (endsFrom_iff_exists_endsAfter.2 ⟨count, h⟩)
    rw [hsteps] at hends
    exact ⟨hsteps, fun result => hends.iff_eq⟩
  · have hends := endsFrom_of_unlimited_error htimeout' hmax hstart h
    have hzero : (initial config input).machine.steps + count = count := Nat.zero_add count
    rw [hzero] at hends
    exact fun result => hends.iff_eq
  · exact fun result => (endsFrom_of_unlimited_endless htimeout' hmax hstart h).iff_eq
  · exact exists_endsFrom_of_limited htimeout' hmax hstart
  · obtain ⟨n, s', hrun, hend⟩ := endsFrom_iff_exists_endsAfter.1 h
    obtain ⟨-, rfl⟩ := next_eq_finished_iff.1 hend
    exact steps_le_of_advance_running htimeout' hmax hstart hrun

/-- `MoO OOM` takes two steps, and a budget of two is enough for it.  `MoO mOo` fails in its second step,
and a budget of one hides that. -/
theorem endsFrom_limited_iff_of_two_tokens :
    let output : Executable := ⟨.ofInstructions [.increment, .output], ⟨#[none, none], 0⟩⟩
    let leave : Executable := ⟨.ofInstructions [.increment, .pointerLeft], ⟨#[none, none], 0⟩⟩
    let config : Config := { tapeLen := 2 }
    output.EndsFrom (config.limited 2) (fun _ => 0) (initial config "")
        (.ok ⟨#[1, 0], 0, #[], 0, "\u0001", none, 2⟩) ∧
      output.EndsFrom (config.limited 1) (fun _ => 0) (initial config "")
        (.error (.stepLimitExceeded 1)) ∧
      leave.EndsFrom (config.limited 2) (fun _ => 0) (initial config "")
        (.error (.pointerUnderflow 1)) ∧
      leave.EndsFrom (config.limited 1) (fun _ => 0) (initial config "")
        (.error (.stepLimitExceeded 1)) := by
  intro output leave config
  have hsucceeds : output.EndsAfter config.unlimited (fun _ => 0) (initial config "") 2
      (.ok ⟨#[1, 0], 0, #[], 0, "\u0001", none, 2⟩) := ⟨_, rfl, rfl⟩
  have hfails : leave.EndsAfter config.unlimited (fun _ => 0) (initial config "") 1
      (.error (.pointerUnderflow 1)) := ⟨_, rfl, rfl⟩
  refine ⟨?_, ?_, ?_, ?_⟩
  · exact (((endsFrom_limited_iff output config (fun _ => 0) "" 2 rfl).1 _ _ hsucceeds).2 _).2 rfl
  · exact (((endsFrom_limited_iff output config (fun _ => 0) "" 1 rfl).1 _ _ hsucceeds).2 _).2 rfl
  · exact ((endsFrom_limited_iff leave config (fun _ => 0) "" 2 rfl).2.1 _ _ hfails _).2 rfl
  · exact ((endsFrom_limited_iff leave config (fun _ => 0) "" 1 rfl).2.1 _ _ hfails _).2 rfl

end Executable

end CowLang
