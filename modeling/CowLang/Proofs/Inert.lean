import CowLang.Proofs.Faults
import CowLang.Proofs.Replacement
/-!
# Instructions without effect

`mOO` does nothing, and `MMM` does nothing while the register is inert.  Without these instructions a program
has its other tokens in the same order, with the same loops.  A run of the program executes them in passing,
and otherwise makes the steps of a run without them, so it ends if the other one does, and as the other one
does; only the step counter tells how many there were.

Main statements: `Program.replaces_withoutInert` (the other tokens stay in order), `Lags.paced` (both runs
keep pace) and `endsFrom_withoutInert` (both runs end alike).
-/

namespace CowLang

/-! ## Programs without inert instructions -/

/-- Whether an instruction does nothing. -/
def Instruction.isInert (mode : RegisterMode) : Instruction → Bool
  | .exec => true
  | .register => mode = .inert
  | _ => false

/-- Whether a token does something. -/
def Token.isActive (mode : RegisterMode) (t : Token) : Bool :=
  !t.instruction.isInert mode

theorem Token.isActive_eq_false_iff {mode : RegisterMode} {t : Token} :
    t.isActive mode = false ↔ t.instruction.isInert mode = true := by
  simp [isActive]

theorem Instruction.isLoop_of_isInert {mode : RegisterMode} {i : Instruction}
    (h : i.isInert mode = true) : i.isLoop = false := by
  cases i with
  | loopOpen | loopClose => cases h
  | _ => rfl

theorem Machine.act_of_isInert {config : Config} {i : Instruction}
    (h : i.isInert config.registerMode = true) (token : Nat) (m : Machine) :
    m.act config token i = .ok m := by
  cases i with
  | exec => rfl
  | register =>
      rw [Instruction.isInert, decide_eq_true_iff] at h
      rw [act, h]
  | _ => cases h

namespace Program

variable {p : Program} {mode : RegisterMode} {i : Nat} {t : Token}

/-- The program without its inert instructions. -/
def withoutInert (p : Program) (mode : RegisterMode) : Program :=
  ⟨(p.tokens.toList.filter (Token.isActive mode)).toArray⟩

/-- The number of instructions before an index that are not inert. -/
def activeBefore (p : Program) (mode : RegisterMode) (index : Nat) : Nat :=
  (p.tokens.toList.take index).countP (Token.isActive mode)

theorem activeBefore_succ (mode : RegisterMode) (h : p.tokens[i]? = some t) :
    p.activeBefore mode (i + 1) = p.activeBefore mode i + (t.isActive mode).toNat := by
  rw [activeBefore, activeBefore, List.take_add_one, Array.getElem?_toList, h, Option.toList_some,
    List.countP_append, List.countP_singleton]
  cases t.isActive mode <;> rfl

/-- A token that is not inert has as many tokens before it as are not inert. -/
theorem getElem?_withoutInert (h : p.tokens[i]? = some t)
    (hactive : t.isActive mode = true) :
    (p.withoutInert mode).tokens[p.activeBefore mode i]? = some t := by
  obtain ⟨before, after, htokens, rfl⟩ :
      ∃ before after, p.tokens.toList = before ++ t :: after ∧ before.length = i := by
    rw [← Array.getElem?_toList] at h
    obtain ⟨hlt, rfl⟩ := List.getElem?_eq_some_iff.1 h
    refine ⟨p.tokens.toList.take i, p.tokens.toList.drop (i + 1), ?_, List.length_take_of_le hlt.le⟩
    rw [← List.drop_eq_getElem_cons hlt, List.take_append_drop]
  rw [withoutInert, activeBefore, List.getElem?_toArray, htokens, List.filter_append,
    List.filter_cons_of_pos hactive, List.take_left, List.countP_eq_length_filter,
    List.getElem?_append_right le_rfl, Nat.sub_self, List.getElem?_cons_zero]

theorem keeps_withoutInert_iff (h : p.tokens[i]? = some t) :
    Keeps (p.activeBefore mode) p (p.withoutInert mode) i ↔ t.isActive mode = true := by
  have hnext := activeBefore_succ mode h
  constructor
  · rintro ⟨-, -, -, hnext'⟩
    cases hactive : t.isActive mode with
    | true => rfl
    | false =>
        rw [hactive, Bool.toNat_false] at hnext
        omega
  · intro hactive
    rw [hactive] at hnext
    exact ⟨t, h, getElem?_withoutInert h hactive, hnext⟩

/-- Without inert instructions the others are in the same order, each at the number of those before it. -/
theorem replaces_withoutInert (p : Program) (mode : RegisterMode) :
    Replaces (p.activeBefore mode) p (p.withoutInert mode) where
  first := rfl
  behind := by
    intro i hi
    have htake : p.tokens.toList.take i = p.tokens.toList := List.take_of_length_le hi
    rw [activeBefore, htake, List.countP_eq_length_filter]
    exact le_rfl
  token := by
    intro i hi
    obtain ⟨t, ht⟩ : ∃ t, p.tokens[i]? = some t := ⟨_, Array.getElem?_eq_getElem hi⟩
    cases hactive : t.isActive mode with
    | true => exact .inl ((keeps_withoutInert_iff ht).2 hactive)
    | false =>
        have hnext := activeBefore_succ mode ht
        rw [hactive, Bool.toNat_false, Nat.add_zero] at hnext
        have hinert : t.instruction.isInert mode = true := Token.isActive_eq_false_iff.1 hactive
        exact .inr (.of_erased ht (Instruction.isLoop_of_isInert hinert) hnext)

end Program

/-! ## Both runs together -/

namespace Executable

variable {x y : Executable} {config : Config} {clock : Clock} {input : String} {s s₁ s' : State}

/-- Whether the next instruction is inert. -/
def inertAt (x : Executable) (config : Config) (s : State) : Bool :=
  match x.program.instruction? s.token with
  | some i => i.isInert config.registerMode
  | none => false

/-- The number of inert instructions among the first `count` steps of a run. -/
def inertCount (x : Executable) (config : Config) (clock : Clock) (count : Nat) (s : State) : Nat :=
  (x.trace config clock count s).countP (x.inertAt config)

theorem inertCount_succ {count : Nat} {init : State}
    (hrun : x.advance config clock count init = .running s)
    (hnext : x.next config clock s = .running s₁) :
    x.inertCount config clock (count + 1) init =
      x.inertCount config clock count init + (x.inertAt config s).toNat := by
  rw [inertCount, inertCount, trace_concat hrun hnext, List.countP_append, List.countP_singleton]
  cases x.inertAt config s <;> rfl

/-- The run of `x` comes to the first state, and the second one is the same but for the token number and for
the inert instructions that were counted on the way. -/
structure Lags (x : Executable) (config : Config) (clock : Clock) (input : String) (s s' : State) :
    Prop where
  reaches : x.Reaches config clock (initial config input) (.running s)
  eq_later : ∃ s₀ : State,
    s = s₀.later (x.inertCount config clock s.machine.steps (initial config input)) ∧
      s' = s₀.renumber (x.program.activeBefore config.registerMode)

/-- The run of `x` ends with the first result, and the second one is the same but for the token number and for
the inert instructions that were counted. -/
inductive LagsAtEnd (x : Executable) (config : Config) (clock : Clock) (input : String) :
    Except Fault Machine → Except Fault Machine → Prop where
  | ok {m m' : Machine}
      (h : m = m'.later (x.inertCount config clock m.steps (initial config input))) :
      LagsAtEnd x config clock input (.ok m) (.ok m')
  | error {fault : Fault} (h : ∀ i ∈ fault.token?, Keeps (x.program.activeBefore config.registerMode)
        x.program (x.program.withoutInert config.registerMode) i) :
      LagsAtEnd x config clock input (.error fault)
        (.error (fault.renumber (x.program.activeBefore config.registerMode)))

theorem Lags.initial (x : Executable) (config : Config) (clock : Clock) (input : String) :
    x.Lags config clock input (initial config input) (initial config input) :=
  ⟨.refl _, Executable.initial config input, rfl, rfl⟩

/-- After a step of the first run, its inert instructions have been counted. -/
theorem Lags.next (h : x.Lags config clock input s s') (hnext : x.next config clock s = .running s₁)
    {s₀ : State}
    (heq : s₁ = s₀.later (x.inertCount config clock s.machine.steps (Executable.initial config input) +
      (x.inertAt config s).toNat)) :
    x.Lags config clock input s₁ (s₀.renumber (x.program.activeBefore config.registerMode)) := by
  obtain ⟨count, hrun⟩ := h.reaches
  have hcount : s.machine.steps = count :=
    (steps_of_advance_running hrun).trans (Nat.zero_add count)
  refine ⟨h.reaches.trans (.of_next _ hnext), s₀, ?_, rfl⟩
  rw [steps_of_next_running hnext, hcount, inertCount_succ hrun hnext, ← hcount]
  exact heq

section Erased

variable {p : Program} (hmax : config.maxSteps = none) (htimeout : config.timeout = none)
  (hx : ofProgram p = .ok x) (hy : ofProgram (p.withoutInert config.registerMode) = .ok y)

include hmax htimeout hx

/-- An inert instruction is passed by the first run alone. -/
theorem Lags.pass (h : x.Lags config clock input s s') {t : Token}
    (ht : p.tokens[s.token]? = some t) (hinactive : t.isActive config.registerMode = false) :
    ∃ s₁, x.Reaches config clock s (.running s₁) ∧ p.size - s₁.token < p.size - s.token ∧
      x.Lags config clock input s₁ s' := by
  obtain ⟨rfl, -⟩ := ofProgram_eq_ok_iff.1 hx
  obtain ⟨s₀, hs, rfl⟩ := h.eq_later
  have hinert : t.instruction.isInert config.registerMode = true :=
    Token.isActive_eq_false_iff.1 hinactive
  have htoken : s.token = s₀.token := by rw [hs]; rfl
  have hlt : s.token < x.program.size := (Array.getElem?_eq_some_iff.1 ht).1
  have hi : x.program.instruction? s.token = some t.instruction := by
    rw [Program.instruction?, ht]
  have hinertAt : x.inertAt config s = true := by rw [inertAt, hi]; exact hinert
  have hnext : x.next config clock s = .running ⟨s.token + 1, s.machine.tick⟩ := by
    rw [next_eq_stepped hi (limit?_eq_none hmax htimeout _), Machine.act_of_isInert hinert,
      successor?_simple (Instruction.isLoop_of_isInert hinert)]
    rfl
  refine ⟨_, .of_next _ hnext, Nat.sub_lt_sub_left hlt (Nat.lt_succ_self _), ?_⟩
  have heq : State.mk (s.token + 1) s.machine.tick = State.later
      (x.inertCount config clock s.machine.steps (Executable.initial config input) +
        (x.inertAt config s).toNat) ⟨s₀.token + 1, s₀.machine⟩ := by
    rw [hinertAt, State.later, htoken, ← Machine.later_later]
    exact congrArg (fun s => State.mk _ (Machine.later 1 (State.machine s))) hs
  -- No other token is passed, so the number of the next one is the same.
  have hstays := Program.activeBefore_succ config.registerMode ht
  rw [hinactive, Bool.toNat_false, Nat.add_zero, htoken] at hstays
  have hlags := h.next hnext heq
  rwa [State.renumber, hstays] at hlags

include hy

/-- At any other token, and behind the end, both runs make the same step. -/
theorem Lags.step (h : x.Lags config clock input s s')
    (hactive : ∀ t, p.tokens[s.token]? = some t → t.isActive config.registerMode = true) :
    Paced x y config clock (x.Lags config clock input) (x.LagsAtEnd config clock input) s s' := by
  have hs : Keeps (p.activeBefore config.registerMode) p (p.withoutInert config.registerMode) s.token ∨
      p.size ≤ s.token := by
    cases ht : p.tokens[s.token]? with
    | none => exact .inr (Array.getElem?_eq_none_iff.1 ht)
    | some t => exact .inl ((Program.keeps_withoutInert_iff ht).2 (hactive t ht))
  obtain ⟨rfl, -⟩ := ofProgram_eq_ok_iff.1 hx
  have hinertAt : x.inertAt config s = false := by
    rw [inertAt, Program.instruction?]
    cases ht : x.program.tokens[s.token]? with
    | none => rfl
    | some t => simpa [Token.isActive] using hactive t ht
  obtain ⟨s₀, heq, rfl⟩ := h.eq_later
  have htoken : s.token = s₀.token := by rw [heq]; rfl
  have hlater : x.next config clock s = (x.next config clock s₀).map
      (Machine.later (x.inertCount config clock s.machine.steps (Executable.initial config input))) := by
    rw [← next_later hmax htimeout, ← heq]
  have hsame : y.next config clock (s₀.renumber (x.program.activeBefore config.registerMode)) =
      (x.next config clock s₀).renumber (x.program.activeBefore config.registerMode) :=
    (x.program.replaces_withoutInert config.registerMode).next_renumber hx hy (htoken ▸ hs)
  refine paced_of_next hlater hsame (fun s₁ hnext => ?_) fun result hnext => ?_
  · rw [hnext] at hlater
    refine h.next hlater ?_
    rw [hinertAt]
    rfl
  · rw [hnext, Progress.map_ofResult] at hlater
    cases result with
    | ok m =>
        obtain ⟨-, hm⟩ := next_eq_finished_iff.1 hlater
        have hsteps : (m.later (x.inertCount config clock s.machine.steps
            (Executable.initial config input))).steps = s.machine.steps :=
          congrArg Machine.steps hm.symm
        exact .ok (by rw [hsteps])
    | error fault =>
        obtain ⟨i, hi, -⟩ := next_eq_failed_iff.1 hlater
        have hlt := lt_size_of_instruction? hi
        refine .error fun token htoken => ?_
        rw [token?_of_next hmax htimeout hlater] at htoken
        cases htoken
        exact hs.resolve_right (Nat.not_le.2 hlt)

/-- Both runs keep pace. -/
theorem Lags.paced (h : x.Lags config clock input s s') :
    Paced x y config clock (x.Lags config clock input) (x.LagsAtEnd config clock input) s s' := by
  refine paced_of_rank (fun s => p.size - s.token) (fun s s' h => ?_) h
  by_cases hinactive : ∃ t, p.tokens[s.token]? = some t ∧ t.isActive config.registerMode = false
  · obtain ⟨t, ht, hinactive⟩ := hinactive
    exact .inr (h.pass hmax htimeout hx ht hinactive)
  · refine .inl (h.step hmax htimeout hx hy fun t ht => ?_)
    by_contra hactive
    exact hinactive ⟨t, ht, Bool.not_eq_true _ ▸ hactive⟩

end Erased

/-- Without limits on a run, `mOO` and, where the register is inert, `MMM` may as well be left out.  The other
tokens are then in the same order, each at the number of those before it; the loops are paired as before, or
not paired for the same token; and a run ends with the same machine or with a fault at the same token, or it
does not end.  The number of counted steps differs by the number of those that were left out. -/
theorem endsFrom_withoutInert (p : Program) (config : Config) (hmax : config.maxSteps = none)
    (htimeout : config.timeout = none) :
    let q := p.withoutInert config.registerMode
    let f := p.activeBefore config.registerMode
    (∀ i t, p.tokens[i]? = some t →
      (Keeps f p q i ↔ t.instruction.isInert config.registerMode = false)) ∧
    (Balanced p.instructions ↔ Balanced q.instructions) ∧
    (∀ e, LoopTable.ofProgram p = .error e →
      LoopTable.ofProgram q = .error (e.renumber f) ∧ Keeps f p q e.index) ∧
    ∀ x y, ofProgram p = .ok x → ofProgram q = .ok y → ∀ (clock : Clock) (input : String),
      ((∃ result, x.EndsFrom config clock (initial config input) result) ↔
        ∃ result, y.EndsFrom config clock (initial config input) result) ∧
      (∀ m, x.EndsFrom config clock (initial config input) (.ok m) →
        ∃ m', y.EndsFrom config clock (initial config input) (.ok m') ∧
          m = m'.later (x.inertCount config clock m.steps (initial config input))) ∧
      (∀ fault, x.EndsFrom config clock (initial config input) (.error fault) →
        y.EndsFrom config clock (initial config input) (.error (fault.renumber f)) ∧
          ∀ i ∈ fault.token?, Keeps f p q i) := by
  intro q f
  have hreplaces : Replaces f p q := p.replaces_withoutInert config.registerMode
  refine ⟨fun i t ht => ?_, hreplaces.balanced_iff, fun e => hreplaces.ofProgram_eq_error,
    fun x y hx hy clock input => ?_⟩
  · rw [Program.keeps_withoutInert_iff ht, Token.isActive, Bool.not_eq_true']
  · have hstart : x.Lags config clock input (initial config input) (initial config input) :=
      .initial x config clock input
    have hpaced (s s' : State) (h : x.Lags config clock input s s') :=
      h.paced hmax htimeout hx hy
    refine ⟨exists_endsFrom_iff_of_paced hpaced hstart, fun m hm => ?_, fun fault hfault => ?_⟩
    · obtain ⟨result, hresult, hends⟩ := exists_endsFrom_of_paced hpaced hstart hm
      cases hresult with
      | ok hlater => exact ⟨_, hends, hlater⟩
    · obtain ⟨result, hresult, hends⟩ := exists_endsFrom_of_paced hpaced hstart hfault
      obtain ⟨rfl, -⟩ := ofProgram_eq_ok_iff.1 hx
      cases hresult with
      | error hkeeps => exact ⟨hends, hkeeps⟩

/-- `MoO mOO MOO mOO MOo moo MMM mOo` fails at its last token, which is the fifth that is not inert. -/
theorem endsFrom_withoutInert_around_brackets :
    let p := Program.ofInstructions [.increment, .exec, .loopOpen, .exec, .decrement, .loopClose,
      .register, .pointerLeft]
    let config : Config := { tapeLen := 1, maxSteps := none }
    config.maxSteps = none ∧ config.timeout = none ∧
      p.withoutInert .inert =
        .ofInstructions [.increment, .loopOpen, .decrement, .loopClose, .pointerLeft] ∧
      ∃ y, ofProgram (p.withoutInert .inert) = .ok y ∧
        y.EndsFrom config (fun _ => 0) (initial config "") (.error (.pointerUnderflow 4)) := by
  intro p config
  have hx : ofProgram p =
      .ok ⟨p, ⟨#[none, none, some 5, none, none, some 2, none, none], 1⟩⟩ := rfl
  have hy : ofProgram (p.withoutInert .inert) =
      .ok ⟨p.withoutInert .inert, ⟨#[none, some 3, none, some 1, none], 1⟩⟩ := rfl
  have hfails : EndsFrom ⟨p, ⟨#[none, none, some 5, none, none, some 2, none, none], 1⟩⟩ config
      (fun _ => 0) (initial config "") (.error (.pointerUnderflow 7)) := ⟨8, rfl⟩
  obtain ⟨-, -, -, hruns⟩ := endsFrom_withoutInert p config rfl rfl
  exact ⟨rfl, rfl, rfl, _, hy, ((hruns _ _ hx hy (fun _ => 0) "").2.2 _ hfails).1⟩

end Executable

end CowLang
