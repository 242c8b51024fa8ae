import CowLang.Proofs.Steps
/-!
# Runs that keep pace

Two runs that make different numbers of steps end alike if they can be followed together: whenever they are
in corresponding states, they both end, or both go on to corresponding states.  One of them may also go on
alone for a while, as long as a rank says that it does not do so forever.

Steps are counted, so corresponding machines have different counters.  Without limits nothing else comes of
the difference.

Main statements: `paced_of_rank` (a rank lets the first run go on alone), `exists_endsFrom_of_paced` and
`exists_endsFrom_iff_of_paced` (runs that keep pace end alike) and `next_later` (a step of a machine that has
counted more steps).
-/

namespace CowLang

namespace Executable

variable {x y : Executable} {config : Config} {clock : Clock} {s s₁ s' s₁' : State}

/-! ## Steps taken together -/

/-- The run goes on from the first state to the second, in at least one step. -/
def Progresses (x : Executable) (config : Config) (clock : Clock) (s s' : State) : Prop :=
  ∃ n, x.advance config clock (n + 1) s = .running s'

theorem Progresses.of_next (h : x.next config clock s = .running s₁) :
    x.Progresses config clock s s₁ :=
  ⟨0, by rw [advance_succ_eq_resume, h]; rfl⟩

theorem Progresses.of_reaches {s₂ : State} (h : x.Reaches config clock s (.running s₁))
    (h' : x.Progresses config clock s₁ s₂) : x.Progresses config clock s s₂ := by
  obtain ⟨m, hm⟩ := h
  obtain ⟨n, hn⟩ := h'
  exact ⟨m + n, by rw [Nat.add_assoc, advance_add_eq_resume, hm, resume, hn]⟩

/-- To come to another state takes a step. -/
theorem Progresses.of_ne (h : x.Reaches config clock s (.running s₁)) (hne : s ≠ s₁) :
    x.Progresses config clock s s₁ := by
  obtain ⟨count, hrun⟩ := h
  cases count with
  | zero => exact absurd (Progress.running.inj hrun) hne
  | succ n => exact ⟨n, hrun⟩

theorem Progresses.reaches (h : x.Progresses config clock s s₁) :
    x.Reaches config clock s (.running s₁) := by
  obtain ⟨n, hn⟩ := h
  exact ⟨n + 1, hn⟩

/-- After a step on its way, a run that ends has fewer steps to go. -/
theorem Progresses.exists_lt {n : Nat} {result : Except Fault Machine}
    (h : x.Progresses config clock s s₁)
    (hrun : x.advance config clock n s = .ofResult result) :
    ∃ k, k < n ∧ x.advance config clock k s₁ = .ofResult result := by
  obtain ⟨m, hm⟩ := h
  -- The run still goes on after `m + 1` steps, so it has not ended by then.
  have hlt : m + 1 < n := by
    by_contra hle
    obtain ⟨k, hk⟩ : ∃ k, m + 1 = n + k := ⟨m + 1 - n, by omega⟩
    rw [hk, advance_add_eq_resume, hrun, resume_ofResult] at hm
    exact Progress.ofResult_ne_running result s₁ hm
  refine ⟨n - (m + 1), by omega, ?_⟩
  have hsplit : n = m + 1 + (n - (m + 1)) := by omega
  rw [hsplit, advance_add_eq_resume, hm] at hrun
  exact hrun

/-- From two states, both runs end with corresponding results, or both go on to corresponding states. -/
inductive Paced (x y : Executable) (config : Config) (clock : Clock) (R : State → State → Prop)
    (Q : Except Fault Machine → Except Fault Machine → Prop) (s s' : State) : Prop where
  | ended {result result' : Except Fault Machine}
      (hx : x.Reaches config clock s (.ofResult result))
      (hy : y.Reaches config clock s' (.ofResult result')) (h : Q result result')
  | progressed {s₁ s₁' : State} (hx : x.Progresses config clock s s₁)
      (hy : y.Progresses config clock s' s₁') (h : R s₁ s₁')

variable {R : State → State → Prop} {Q : Except Fault Machine → Except Fault Machine → Prop}

theorem Paced.flip (h : Paced x y config clock R Q s s') :
    Paced y x config clock (flip R) (flip Q) s' s := by
  cases h with
  | ended hx hy h => exact .ended hy hx h
  | progressed hx hy h => exact .progressed hy hx h

/-- What the first run does before it keeps pace does not matter. -/
theorem Paced.of_reaches (hreaches : x.Reaches config clock s (.running s₁))
    (h : Paced x y config clock R Q s₁ s') : Paced x y config clock R Q s s' := by
  cases h with
  | ended hx hy h => exact .ended (hreaches.trans hx) hy h
  | progressed hx hy h => exact .progressed (.of_reaches hreaches hx) hy h

/-- The first run may go on alone for as long as its rank decreases. -/
theorem paced_of_rank (rank : State → Nat)
    (hstep : ∀ s s', R s s' → Paced x y config clock R Q s s' ∨
      ∃ s₁, x.Reaches config clock s (.running s₁) ∧ rank s₁ < rank s ∧ R s₁ s')
    (h : R s s') : Paced x y config clock R Q s s' := by
  induction hrank : rank s using Nat.strong_induction_on generalizing s with
  | h n ih =>
      obtain hpaced | ⟨s₁, hreaches, hlt, hR⟩ := hstep s s' h
      · exact hpaced
      · exact .of_reaches hreaches (ih (rank s₁) (hrank ▸ hlt) hR rfl)

/-! ## Runs taken together -/

/-- Where the first of two runs that keep pace ends, the second one ends, and the results correspond. -/
theorem exists_endsFrom_of_paced
    (hpaced : ∀ s s', R s s' → Paced x y config clock R Q s s') (h : R s s')
    {result : Except Fault Machine} (hends : x.EndsFrom config clock s result) :
    ∃ result', Q result result' ∧ y.EndsFrom config clock s' result' := by
  rw [endsFrom_iff_reaches] at hends
  obtain ⟨n, hn⟩ := hends
  -- The steps that the first run has left become fewer.
  induction n using Nat.strong_induction_on generalizing s s' with
  | h n ih =>
      cases hpaced s s' h with
      | ended hx hy hQ =>
          cases Reaches.ofResult_inj ⟨n, hn⟩ hx
          exact ⟨_, hQ, endsFrom_iff_reaches.2 hy⟩
      | progressed hx hy hR =>
          obtain ⟨k, hk, hrun⟩ := hx.exists_lt hn
          obtain ⟨result', hQ, hends'⟩ := ih k hk hR hrun
          exact ⟨result', hQ, hy.reaches.endsFrom_iff.2 hends'⟩

/-- Where the second of two runs that keep pace ends, the first one ends, and the results correspond. -/
theorem exists_endsFrom_of_paced_right
    (hpaced : ∀ s s', R s s' → Paced x y config clock R Q s s') (h : R s s')
    {result' : Except Fault Machine} (hends : y.EndsFrom config clock s' result') :
    ∃ result, Q result result' ∧ x.EndsFrom config clock s result :=
  exists_endsFrom_of_paced (R := flip R) (Q := flip Q) (fun s' s h => (hpaced s s' h).flip) h hends

theorem exists_endsFrom_iff_of_paced
    (hpaced : ∀ s s', R s s' → Paced x y config clock R Q s s') (h : R s s') :
    (∃ result, x.EndsFrom config clock s result) ↔
      ∃ result', y.EndsFrom config clock s' result' := by
  constructor
  · rintro ⟨result, hends⟩
    obtain ⟨result', -, hends'⟩ := exists_endsFrom_of_paced hpaced h hends
    exact ⟨result', hends'⟩
  · rintro ⟨result', hends'⟩
    obtain ⟨result, -, hends⟩ := exists_endsFrom_of_paced_right hpaced h hends'
    exact ⟨result, hends⟩

end Executable

/-! ## More counted steps -/

namespace Machine

/-- The same machine with more counted steps. -/
def later (d : Nat) (m : Machine) : Machine :=
  { m with steps := m.steps + d }

variable {config : Config} {m : Machine} {d : Nat}

theorem later_later (d d' : Nat) : (m.later d).later d' = m.later (d + d') := by
  simp only [later, Nat.add_assoc]

theorem tick_later : (m.later d).tick = m.tick.later d := by
  simp only [later, tick, Nat.add_right_comm]

theorem read_later : (m.later d).read = m.read.later d := by
  have hinput : (m.later d).input[(m.later d).cursor]? = m.input[m.cursor]? := rfl
  rw [read, read, hinput]
  cases m.input[m.cursor]? <;> rfl

theorem transfer_later : (m.later d).transfer = m.transfer.later d := by
  have hregister : (m.later d).register = m.register := rfl
  rw [transfer, transfer, hregister]
  cases m.register <;> rfl

/-- An instruction does not look at the counter. -/
theorem act_later (token : Nat) (i : Instruction) :
    (m.later d).act config token i = (m.act config token i).map (later d) := by
  cases i with
  | pointerRight =>
      simp only [act, moveRight, apply_ite (Except.map (later d))]
      cases config.pointerPolicy <;> rfl
  | pointerLeft =>
      simp only [act, moveLeft, apply_ite (Except.map (later d))]
      cases config.pointerPolicy <;> rfl
  | increment =>
      cases hpolicy : config.overflowPolicy <;>
        simp only [act, increment, hpolicy, apply_ite (Except.map (later d))] <;> rfl
  | decrement =>
      simp only [act, decrement, apply_ite (Except.map (later d))]
      cases config.underflowPolicy <;> rfl
  | register =>
      simp only [act, transfer_later]
      cases config.registerMode <;> rfl
  | input => exact congrArg Except.ok read_later
  | conditionalIo =>
      simp only [act, read_later]
      exact congrArg Except.ok (apply_ite (later d) (m.current = 0) m.read m.write).symm
  | output | reset | exec | loopOpen | loopClose => rfl

end Machine

/-- The same state with more counted steps. -/
def State.later (d : Nat) (s : State) : State := ⟨s.token, s.machine.later d⟩

namespace Executable

variable {x : Executable} {config : Config} {clock : Clock} {s : State} {d : Nat}

/-- Without limits, a step of a machine that has counted more steps is the same step. -/
theorem next_later (hmax : config.maxSteps = none) (htimeout : config.timeout = none) :
    x.next config clock (s.later d) = (x.next config clock s).map (Machine.later d) := by
  have hlimit : limit? config clock (s.machine.later d).steps = limit? config clock s.machine.steps := by
    rw [limit?_eq_none hmax htimeout, limit?_eq_none hmax htimeout]
  exact next_map (g := Machine.later d) hlimit rfl (fun _ => Machine.tick_later)
    fun i _ _ => Machine.act_later s.token i

end Executable

end CowLang
