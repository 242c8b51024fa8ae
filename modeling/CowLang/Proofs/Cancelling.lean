import CowLang.Proofs.Modular
import CowLang.Proofs.Replacement
/-!
# Instructions that cancel each other

Over remainders, adding one and adding minus one undo each other, wherever the pointer is and whatever is in
the cell.  So where every policy is to wrap around, two neighbouring tokens that do so may be deleted: a run
of the program makes two steps there that lead to the machine it had before, and otherwise the steps of a run
without them.

Main statements: `ModularMachine.act_act_of_cancels` (two instructions that cancel each other),
`Program.replaces_delete` (the other tokens stay in order), `Rejoins.paced` (both runs keep pace) and
`advance_eq_modular` (the run over remainders, and what comes of it for deletions).
-/

namespace CowLang

/-! ## Pairs of instructions -/

/-- The second instruction undoes the first one, up to wraparound. -/
inductive Instruction.Cancels : Instruction → Instruction → Prop where
  | right_left : Cancels .pointerRight .pointerLeft
  | left_right : Cancels .pointerLeft .pointerRight
  | increment_decrement : Cancels .increment .decrement
  | decrement_increment : Cancels .decrement .increment

theorem Instruction.Cancels.isLoop_eq_false {i j : Instruction} (h : i.Cancels j) :
    i.isLoop = false ∧ j.isLoop = false := by
  cases h <;> exact ⟨rfl, rfl⟩

namespace ModularMachine

variable {n : Nat} {m : ModularMachine n}

/-- The same machine with more counted steps. -/
def later (d : Nat) (m : ModularMachine n) : ModularMachine n :=
  { m with steps := m.steps + d }

/-- Moves of the pointer add up. -/
theorem move_move (distance distance' : ZMod n) :
    (m.move distance).move distance' = m.move (distance + distance') := by
  simp only [move, add_assoc]

theorem move_zero : m.move 0 = m := by
  simp only [move, add_zero]

/-- Changes of the current cell add up. -/
theorem addCurrent_addCurrent (amount amount' : ZMod 256) :
    (m.addCurrent amount).addCurrent amount' = m.addCurrent (amount + amount') := by
  simp only [addCurrent, setCurrent, current, Function.update_self, Function.update_idem, add_assoc]

theorem addCurrent_zero : m.addCurrent 0 = m := by
  simp only [addCurrent, setCurrent, current, add_zero, Function.update_eq_self]

/-- Two instructions that cancel each other leave nothing but two counted steps. -/
theorem act_act_of_cancels {i j : Instruction} (h : i.Cancels j) (mode : RegisterMode) :
    ((m.act mode i).tick.act mode j).tick = m.later 2 := by
  cases h with
  | right_left =>
      have hback : (m.move 1).move (-1) = m := by rw [move_move, add_neg_cancel, move_zero]
      exact congrArg (later 2) hback
  | left_right =>
      have hback : (m.move (-1)).move 1 = m := by rw [move_move, neg_add_cancel, move_zero]
      exact congrArg (later 2) hback
  | increment_decrement =>
      have hback : (m.addCurrent 1).addCurrent (-1) = m := by
        rw [addCurrent_addCurrent, add_neg_cancel, addCurrent_zero]
      exact congrArg (later 2) hback
  | decrement_increment =>
      have hback : (m.addCurrent (-1)).addCurrent 1 = m := by
        rw [addCurrent_addCurrent, neg_add_cancel, addCurrent_zero]
      exact congrArg (later 2) hback

end ModularMachine

/-! ## Programs without the pair -/

/-- The number of a token after the tokens at `k` and `k + 1` have been deleted. -/
def deleteAt (k i : Nat) : Nat := max (min i k) (i - 2)

namespace Program

variable {before after : List Token} {s t : Token} {i : Nat}

/-- The tokens before the pair keep their numbers, and those after it are two places further to the front. -/
theorem keeps_delete (hi : i < before.length + (after.length + 2)) (hfirst : i ≠ before.length)
    (hsecond : i ≠ before.length + 1) :
    Keeps (deleteAt before.length) ⟨(before ++ s :: t :: after).toArray⟩
      ⟨(before ++ after).toArray⟩ i := by
  rcases Nat.lt_or_gt_of_ne hfirst with hbefore | hafter
  · have hsame : deleteAt before.length i = i := by
      rw [deleteAt]
      omega
    refine ⟨before[i], ?_, ?_, ?_⟩
    · rw [List.getElem?_toArray, List.getElem?_append_left hbefore, List.getElem?_eq_getElem hbefore]
    · rw [hsame, List.getElem?_toArray, List.getElem?_append_left hbefore,
        List.getElem?_eq_getElem hbefore]
    · rw [hsame, deleteAt]
      omega
  · obtain ⟨j, rfl⟩ : ∃ j, i = before.length + (j + 2) := ⟨i - before.length - 2, by omega⟩
    have hj : j < after.length := by omega
    have hfront : deleteAt before.length (before.length + (j + 2)) = before.length + j := by
      rw [deleteAt]
      omega
    refine ⟨after[j], ?_, ?_, ?_⟩
    · rw [List.getElem?_toArray, List.getElem?_append_right (Nat.le_add_right _ _),
        Nat.add_sub_cancel_left, List.getElem?_cons_succ, List.getElem?_cons_succ,
        List.getElem?_eq_getElem hj]
    · rw [hfront, List.getElem?_toArray, List.getElem?_append_right (Nat.le_add_right _ _),
        Nat.add_sub_cancel_left, List.getElem?_eq_getElem hj]
    · rw [hfront, deleteAt]
      omega

/-- After two simple instructions have been deleted, the other tokens are in the same order. -/
theorem replaces_delete (hs : s.instruction.isLoop = false) (ht : t.instruction.isLoop = false) :
    Replaces (deleteAt before.length) ⟨(before ++ s :: t :: after).toArray⟩
      ⟨(before ++ after).toArray⟩ where
  first := by
    rw [deleteAt]
    omega
  behind := by
    intro i hi
    simp only [size, List.size_toArray, List.length_append, List.length_cons] at hi ⊢
    rw [deleteAt]
    omega
  token := by
    intro i hi
    simp only [size, List.size_toArray, List.length_append, List.length_cons] at hi
    by_cases hfirst : i = before.length
    · refine .inr (.of_erased (t := s) ?_ hs ?_)
      · simp [hfirst]
      · simp only [deleteAt, hfirst]
        omega
    · by_cases hsecond : i = before.length + 1
      · refine .inr (.of_erased (t := t) ?_ ht ?_)
        · simp [hsecond]
        · simp only [deleteAt, hsecond]
          omega
      · exact .inl (keeps_delete hi hfirst hsecond)

end Program

/-! ## Both runs together -/

namespace Executable

variable {x y : Executable} {config : Config} {clock : Clock} {s s' : State}

/-- The first state is not between the tokens at `k` and `k + 1`, and the second one is the same but for the
token number and for the steps that were counted. -/
def Rejoins (n k : Nat) (s s' : State) : Prop :=
  ∃ (a : ModularState n) (d : Nat), a.token ≠ k + 1 ∧ s = a.toState.later d ∧
    s' = a.toState.renumber (deleteAt k)

/-- Both runs leave the same machine but for the steps that were counted. -/
def RejoinsAtEnd (result result' : Except Fault Machine) : Prop :=
  ∃ m d, result = .ok (m.later d) ∧ result' = .ok m

section Deleted

variable {n : Nat} [NeZero n] {before after : List Token} {t u : Token}
  (hcancels : t.instruction.Cancels u.instruction) (hwraps : config.Wraps)
  (hmax : config.maxSteps = none) (htimeout : config.timeout = none)
  (hx : ofProgram ⟨(before ++ t :: u :: after).toArray⟩ = .ok x)
  (hy : ofProgram ⟨(before ++ after).toArray⟩ = .ok y)

include hcancels hwraps hmax htimeout hx

/-- The first run executes the pair alone. -/
theorem reaches_behind_pair (m : ModularMachine n) :
    x.Reaches config clock (ModularState.mk before.length m).toState
      (.running (ModularState.mk (before.length + 2) (m.later 2)).toState) := by
  obtain ⟨hprogram, hloops⟩ := ofProgram_eq_ok_iff.1 hx
  obtain ⟨hfirst, hsecond⟩ := hcancels.isLoop_eq_false
  have ht : x.program.instruction? before.length = some t.instruction := by
    simp [hprogram, Program.instruction?]
  have hu : x.program.instruction? (before.length + 1) = some u.instruction := by
    simp [hprogram, Program.instruction?]
  rw [← hprogram] at hloops
  refine ⟨2, ?_⟩
  rw [ModularState.advance_toState hloops hwraps htimeout, ModularState.advance,
    ModularState.next_eq_running hmax ht, ModularState.successor_simple hfirst]
  dsimp only
  rw [ModularState.advance, ModularState.next_eq_running hmax hu,
    ModularState.successor_simple hsecond, ModularMachine.act_act_of_cancels hcancels]
  rfl

include hy

/-- At any other token, and behind the end, both runs make the same step. -/
theorem paced_elsewhere {a : ModularState n} (d : Nat) (hfirst : a.token ≠ before.length)
    (hsecond : a.token ≠ before.length + 1) :
    Paced x y config clock (Rejoins n before.length) RejoinsAtEnd (a.toState.later d)
      (a.toState.renumber (deleteAt before.length)) := by
  have hreplaces : Replaces (deleteAt before.length) ⟨(before ++ t :: u :: after).toArray⟩
      ⟨(before ++ after).toArray⟩ :=
    Program.replaces_delete hcancels.isLoop_eq_false.1 hcancels.isLoop_eq_false.2
  obtain ⟨hprogram, hloops⟩ := ofProgram_eq_ok_iff.1 hx
  have hsize : x.program.size = before.length + (after.length + 2) := by
    simp [hprogram, Program.size]
  have hkeeps (hlt : a.token < x.program.size) :
      Keeps (deleteAt before.length) ⟨(before ++ t :: u :: after).toArray⟩
        ⟨(before ++ after).toArray⟩ a.token :=
    Program.keeps_delete (hsize ▸ hlt) hfirst hsecond
  have hs := (Nat.lt_or_ge a.token x.program.size).imp_left hkeeps
  have hnext : x.next config clock a.toState = (a.next x config).toProgress :=
    ModularState.next_toState (hprogram ▸ hloops) hwraps htimeout
  rw [hprogram] at hs
  refine paced_of_next (next_later hmax htimeout) (hreplaces.next_renumber hx hy hs)
    (fun s₁ hrunning => ?_) fun result hended => ?_
  · -- A step leads behind a token that was kept, and the second token of the pair is not behind one.
    obtain ⟨i, m, hi, -, -, hsucc, -⟩ := next_eq_running_iff.1 hrunning
    obtain ⟨last, htoken, hafter⟩ :=
      (hreplaces.agreesAt hx hy (hkeeps (lt_size_of_instruction? hi))).exists_eq_succ hsucc
    obtain ⟨a', rfl⟩ := ModularProgress.exists_of_toProgress_eq_running (hnext.symm.trans hrunning)
    have htoken' : a'.token = last + 1 := htoken
    simp only [deleteAt] at hafter
    exact ⟨a', d, by omega, rfl, rfl⟩
  · obtain ⟨m, -, rfl⟩ | ⟨limit, hexhausted, -⟩ :=
      ModularProgress.eq_of_toProgress_eq_ofResult (hnext.symm.trans hended)
    · exact ⟨m.toMachine, d, rfl, rfl⟩
    · exact absurd hexhausted (ModularState.next_ne_exhausted hmax limit)

/-- Both runs keep pace. -/
theorem Rejoins.paced (h : Rejoins n before.length s s') :
    Paced x y config clock (Rejoins n before.length) RejoinsAtEnd s s' := by
  refine paced_of_rank (fun s => before.length + 2 - s.token) (fun s s' h => ?_) h
  obtain ⟨⟨token, m⟩, d, hsecond, rfl, rfl⟩ := h
  by_cases hfirst : token = before.length
  · subst hfirst
    refine .inr ⟨_, reaches_behind_pair hcancels hwraps hmax htimeout hx (m.later d), ?_, ?_⟩
    · simp only [ModularState.toState, State.later]
      omega
    · refine ⟨⟨before.length + 2, m⟩, d + 2, by dsimp only; omega, rfl, ?_⟩
      have hstays : deleteAt before.length (before.length + 2) = deleteAt before.length before.length := by
        simp only [deleteAt]
        omega
      simp only [ModularState.toState, State.renumber, hstays]
  · exact .inl (paced_elsewhere hcancels hwraps hmax htimeout hx hy d hfirst hsecond)

end Deleted

/-- Where every policy is to wrap around, a run without a timeout is the run over remainders, on as many cells
as the tape has; only a step budget can make it fail.  So without a budget two neighbouring tokens that cancel
each other may be deleted: that changes neither whether the program is balanced nor whether a run ends nor, up
to the number of counted steps, how it ends. -/
theorem advance_eq_modular (config : Config) (hwraps : config.Wraps) (htimeout : config.timeout = none)
    (clock : Clock) (input : String) :
    (∀ p x, ofProgram p = .ok x → ∀ count,
      x.advance config clock count (initial config input) =
        ((ModularState.initial (max config.tapeLen 1) input).advance x config count).toProgress) ∧
    (config.maxSteps = none →
      ∀ (before after : List Token) (t u : Token), t.instruction.Cancels u.instruction →
        let p : Program := ⟨(before ++ t :: u :: after).toArray⟩
        let q : Program := ⟨(before ++ after).toArray⟩
        (Balanced p.instructions ↔ Balanced q.instructions) ∧
        ∀ x y, ofProgram p = .ok x → ofProgram q = .ok y →
          (∀ m, x.EndsFrom config clock (initial config input) (.ok m) →
            ∃ m' d, y.EndsFrom config clock (initial config input) (.ok m') ∧ m = m'.later d) ∧
          (∀ m', y.EndsFrom config clock (initial config input) (.ok m') →
            ∃ d, x.EndsFrom config clock (initial config input) (.ok (m'.later d))) ∧
          (∀ fault, ¬ x.EndsFrom config clock (initial config input) (.error fault)) ∧
          ∀ fault, ¬ y.EndsFrom config clock (initial config input) (.error fault)) := by
  refine ⟨fun p x hx count => ?_, fun hmax before after t u hcancels => ?_⟩
  · obtain ⟨rfl, hloops⟩ := ofProgram_eq_ok_iff.1 hx
    rw [← ModularState.toState_initial, ModularState.advance_toState hloops hwraps htimeout]
  · intro p q
    have hreplaces : Replaces (deleteAt before.length) p q :=
      Program.replaces_delete hcancels.isLoop_eq_false.1 hcancels.isLoop_eq_false.2
    refine ⟨hreplaces.balanced_iff, fun x y hx hy => ?_⟩
    have hpaced (s s' : State) (h : Rejoins (max config.tapeLen 1) before.length s s') :
        Paced x y config clock (Rejoins (max config.tapeLen 1) before.length) RejoinsAtEnd s s' :=
      h.paced hcancels hwraps hmax htimeout hx hy
    have hstart : Rejoins (max config.tapeLen 1) before.length (initial config input)
        (initial config input) := by
      rw [← ModularState.toState_initial]
      refine ⟨.initial (max config.tapeLen 1) input, 0, (Nat.succ_ne_zero before.length).symm, rfl, ?_⟩
      simp only [State.renumber, ModularState.toState, ModularState.initial, hreplaces.first]
    refine ⟨fun m hm => ?_, fun m' hm' => ?_, fun fault hfault => ?_, fun fault hfault => ?_⟩
    · obtain ⟨-, ⟨m', d, hresult, rfl⟩, hends⟩ := exists_endsFrom_of_paced hpaced hstart hm
      exact ⟨m', d, hends, Except.ok.inj hresult⟩
    · obtain ⟨-, ⟨m, d, rfl, hresult⟩, hends⟩ := exists_endsFrom_of_paced_right hpaced hstart hm'
      cases hresult
      exact ⟨d, hends⟩
    · obtain ⟨-, ⟨m, d, hresult, -⟩, -⟩ := exists_endsFrom_of_paced hpaced hstart hfault
      cases hresult
    · obtain ⟨-, ⟨m, d, -, hresult⟩, -⟩ := exists_endsFrom_of_paced_right hpaced hstart hfault
      cases hresult

/-- On a single cell, `MOo MOO MoO moo` takes a zero to 255 and back, and with `mOo moO` in its loop it does the
same in two more steps. -/
theorem advance_eq_modular_one_cell :
    let config : Config := { Config.permissive with tapeLen := 1, maxSteps := none }
    let q := Program.ofInstructions [.decrement, .loopOpen, .increment, .loopClose]
    let p := Program.ofInstructions
      [.decrement, .loopOpen, .pointerLeft, .pointerRight, .increment, .loopClose]
    config.Wraps ∧ config.timeout = none ∧ config.maxSteps = none ∧
      Instruction.Cancels .pointerLeft .pointerRight ∧
      ∃ x y, ofProgram p = .ok x ∧ ofProgram q = .ok y ∧
        y.EndsFrom config (fun _ => 0) (initial config "") (.ok ⟨#[0], 0, #[], 0, "", none, 4⟩) ∧
        (∃ d, x.EndsFrom config (fun _ => 0) (initial config "")
          (.ok (Machine.later d ⟨#[0], 0, #[], 0, "", none, 4⟩))) ∧
        x.advance config (fun _ => 0) 6 (initial config "") =
          ((ModularState.initial 1 "").advance x config 6).toProgress := by
  intro config q p
  have hwraps : config.Wraps := ⟨rfl, rfl, rfl⟩
  have hx : ofProgram p = .ok ⟨p, ⟨#[none, some 5, none, none, none, some 1], 1⟩⟩ := rfl
  have hy : ofProgram q = .ok ⟨q, ⟨#[none, some 3, none, some 1], 1⟩⟩ := rfl
  have hends : EndsFrom ⟨q, ⟨#[none, some 3, none, some 1], 1⟩⟩ config (fun _ => 0)
      (initial config "") (.ok ⟨#[0], 0, #[], 0, "", none, 4⟩) := ⟨5, rfl⟩
  obtain ⟨hmodular, hdelete⟩ := advance_eq_modular config hwraps rfl (fun _ => 0) ""
  obtain ⟨-, hruns⟩ := hdelete rfl [⟨.decrement, .nowhere⟩, ⟨.loopOpen, .nowhere⟩]
    [⟨.increment, .nowhere⟩, ⟨.loopClose, .nowhere⟩] ⟨.pointerLeft, .nowhere⟩
    ⟨.pointerRight, .nowhere⟩ .left_right
  exact ⟨hwraps, rfl, rfl, .left_right, _, _, hx, hy, hends, (hruns _ _ hx hy).2.1 _ hends,
    hmodular p _ hx 6⟩

end Executable

end CowLang
