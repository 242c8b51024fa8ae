import CowLang.Proofs.Commentary
import CowLang.Proofs.Faults
import CowLang.Proofs.Printing
import CowLang.Proofs.Replacement
/-!
# The clearing loop

`OOO` can be spelled out: `MOO MOo moo` takes one from the current cell until it is zero.  The loop ends for
every value of the cell, and as it never decrements a zero, no policy comes into play.  So a program with this
loop in place of every `OOO` has the other tokens in the same order, with the same loops around them, and its
runs pass through the same machines at these tokens, with more steps counted.

Main statements: `Structured.clearing` (the loop itself), `Program.replaces_withClearing` (the other tokens stay
in order), `Trails.paced` (both runs keep pace) and `endsFrom_withClearing` (both runs end alike).
-/

namespace CowLang

/-! ## The loop -/

theorem Instruction.isLoop_decrement : decrement.isLoop = false := rfl

/-- `MOO MOo moo`. -/
def Block.clearing : Block :=
  .loop (.simple .decrement Instruction.isLoop_decrement .done) .done

namespace Structured

open Machine

variable {config : Config} {m : Machine} {value steps start : Nat} {output : String}
  (hmax : config.maxSteps = none)

include hmax

theorem performClose :
    (m.showing value output steps).perform config start .loopClose =
      .ok (m.showing value output (steps + 1)) := by
  rw [perform_of_unlimited hmax]
  rfl

variable (h : m.pointer < m.tapeLen)

include h

/-- From a cell that is not zero, every pass takes one from it, until the loop is left. -/
theorem clearingInside :
    Structured config start (.inside (.simple .decrement Instruction.isLoop_decrement .done) .done)
      (m.showing (value + 1) output steps) (.ok (m.showing 0 output (steps + 2 * (value + 1)))) := by
  induction value generalizing steps with
  | zero =>
      refine .leave (.simple (perform_showing_decrement hmax h) .done) (performClose hmax) ?_ .done
      exact current_showing h
  | succ value ih =>
      refine .again (.simple (perform_showing_decrement hmax h) .done) (performClose hmax) ?_ ?_
      · rw [current_showing h]
        exact Nat.succ_ne_zero value
      · have hsteps : steps + 1 + 1 + 2 * (value + 1) = steps + 2 * (value + 1 + 1) := by omega
        rw [← hsteps]
        exact ih

/-- The loop clears the current cell, with one step for `MOO` and two for every unit. -/
theorem clearing :
    Structured config start (.before .clearing) m
      (.ok ((m.setCurrent 0).later (2 * m.current + 1))) := by
  have hstep : m.perform config start .loopOpen = .ok m.tick := by
    rw [perform_of_unlimited hmax]
    rfl
  cases hvalue : m.current with
  | zero =>
      have hsame : m.setCurrent 0 = m := by rw [← hvalue, setCurrent_current]
      rw [hsame]
      exact .skip hstep hvalue .done
  | succ value =>
      have hshows : m.tick = m.showing (value + 1) m.output (m.steps + 1) :=
        congrArg tick (showing_self hvalue).symm
      refine .enter hstep (by omega) ?_
      have hsteps : m.steps + 1 + 2 * (value + 1) = m.steps + (2 * (value + 1) + 1) := by omega
      have hcleared : m.showing 0 m.output (m.steps + 1 + 2 * (value + 1)) =
          (m.setCurrent 0).later (2 * (value + 1) + 1) :=
        congrArg (m.showing 0 m.output) hsteps
      rw [hshows, ← hcleared]
      exact clearingInside hmax h

end Structured

/-! ## Programs with the loop -/

/-- An instruction with the clearing loop in place of `OOO`. -/
def Instruction.withClearing : Instruction → List Instruction
  | .reset => Block.clearing.flatten
  | i => [i]

/-- A token with the clearing loop in place of `OOO`. -/
def Token.withClearing (t : Token) : List Token :=
  t.instruction.withClearing.map fun i => ⟨i, t.span⟩

theorem Instruction.withClearing_of_ne {i : Instruction} (h : i ≠ .reset) : i.withClearing = [i] := by
  cases i with
  | reset => exact absurd rfl h
  | _ => rfl

theorem Token.withClearing_of_ne {t : Token} (h : t.instruction ≠ .reset) : t.withClearing = [t] := by
  rw [withClearing, Instruction.withClearing_of_ne h]
  rfl

namespace Program

variable {p : Program} {i : Nat} {t : Token}

/-- The program with the clearing loop in place of every `OOO`. -/
def withClearing (p : Program) : Program :=
  ⟨(p.tokens.toList.flatMap Token.withClearing).toArray⟩

/-- The number of tokens that stand for those before an index. -/
def clearingIndex (p : Program) (index : Nat) : Nat :=
  ((p.instructions.take index).flatMap Instruction.withClearing).length

theorem map_instruction_flatMap (ts : List Token) :
    (ts.flatMap Token.withClearing).map Token.instruction =
      (ts.map Token.instruction).flatMap Instruction.withClearing := by
  rw [List.map_flatMap, List.flatMap_map]
  congr 1
  funext t
  rw [Token.withClearing, List.map_map]
  exact List.map_id _

theorem instructions_withClearing (p : Program) :
    p.withClearing.instructions = p.instructions.flatMap Instruction.withClearing :=
  map_instruction_flatMap p.tokens.toList

theorem clearingIndex_eq (p : Program) (index : Nat) :
    p.clearingIndex index = ((p.tokens.toList.take index).flatMap Token.withClearing).length := by
  rw [clearingIndex, instructions, ← List.map_take, ← map_instruction_flatMap, List.length_map]

/-- Behind the tokens that stand for those before an index are the ones for those from there on. -/
theorem drop_withClearing (p : Program) (index : Nat) :
    p.withClearing.tokens.toList.drop (p.clearingIndex index) =
      (p.tokens.toList.drop index).flatMap Token.withClearing := by
  have hsplit : p.tokens.toList.flatMap Token.withClearing =
      (p.tokens.toList.take index).flatMap Token.withClearing ++
        (p.tokens.toList.drop index).flatMap Token.withClearing := by
    rw [← List.flatMap_append, List.take_append_drop]
  rw [withClearing, hsplit, clearingIndex_eq, List.drop_left]

theorem clearingIndex_succ (h : p.tokens[i]? = some t) :
    p.clearingIndex (i + 1) = p.clearingIndex i + t.withClearing.length := by
  rw [clearingIndex_eq, clearingIndex_eq, List.take_add_one, Array.getElem?_toList, h,
    Option.toList_some, List.flatMap_append, List.length_append, List.flatMap_singleton]

theorem drop_withClearing_of_getElem? (h : p.tokens[i]? = some t) :
    p.withClearing.tokens.toList.drop (p.clearingIndex i) =
      t.withClearing ++ p.withClearing.tokens.toList.drop (p.clearingIndex (i + 1)) := by
  rw [← Array.getElem?_toList] at h
  obtain ⟨hlt, rfl⟩ := List.getElem?_eq_some_iff.1 h
  rw [drop_withClearing, drop_withClearing, List.drop_eq_getElem_cons hlt, List.flatMap_cons]

/-- Every token but `OOO` stands at the number of those that stand for the ones before it. -/
theorem keeps_withClearing (h : p.tokens[i]? = some t) (hne : t.instruction ≠ .reset) :
    Keeps p.clearingIndex p p.withClearing i := by
  have hdrop := drop_withClearing_of_getElem? h
  have hnext := clearingIndex_succ h
  rw [Token.withClearing_of_ne hne] at hdrop hnext
  refine ⟨t, h, ?_, hnext⟩
  rw [← Array.getElem?_toList, ← Nat.add_zero (p.clearingIndex i), ← List.getElem?_drop, hdrop]
  rfl

theorem ne_reset_of_keeps (h : Keeps p.clearingIndex p p.withClearing i) :
    ∃ instr, p.instruction? i = some instr ∧ instr ≠ .reset := by
  obtain ⟨t, ht, -, hnext⟩ := h
  refine ⟨t.instruction, by rw [instruction?, ht], fun hreset => ?_⟩
  have hlength := clearingIndex_succ ht
  have hthree : t.withClearing.length = 3 := by
    rw [Token.withClearing, hreset]
    rfl
  omega

/-- The clearing loop stands where `OOO` stood. -/
theorem drop_instructions_withClearing (h : p.tokens[i]? = some t) (hreset : t.instruction = .reset) :
    p.withClearing.instructions.drop (p.clearingIndex i) = Block.clearing.flatten ++
        p.withClearing.instructions.drop (p.clearingIndex (i + 1)) ∧
      p.clearingIndex (i + 1) = p.clearingIndex i + Block.clearing.size := by
  have hclearing : t.withClearing.map Token.instruction = Block.clearing.flatten := by
    rw [Token.withClearing, hreset]
    rfl
  constructor
  · rw [instructions, ← List.map_drop, drop_withClearing_of_getElem? h, List.map_append, hclearing,
      List.map_drop]
  · rw [clearingIndex_succ h, ← List.length_map Token.instruction, hclearing, Block.length_flatten]

/-- With the clearing loop in place of every `OOO`, the other tokens are in the same order. -/
theorem replaces_withClearing (p : Program) : Replaces p.clearingIndex p p.withClearing where
  first := rfl
  behind := by
    intro i hi
    have htake : p.tokens.toList.take i = p.tokens.toList := List.take_of_length_le hi
    rw [clearingIndex_eq, htake]
    exact le_rfl
  token := by
    intro i hi
    have ht : p.tokens[i]? = some p.tokens[i] := Array.getElem?_eq_getElem hi
    by_cases hreset : p.tokens[i].instruction = .reset
    · have plain : p.tokens[i].instruction.isLoop = false := by rw [hreset]; rfl
      exact .inr ⟨_, ht, plain, .clearing, drop_instructions_withClearing ht hreset⟩
    · exact .inl (keeps_withClearing ht hreset)

end Program

/-! ## Both runs together -/

namespace Executable

variable {x y : Executable} {config : Config} {clock : Clock} {input : String} {s s₁ s' : State}
  {p : Program}

/-- The second state is the first one at the corresponding token, with more steps counted. -/
structure Trails (p : Program) (config : Config) (input : String) (s s' : State) : Prop where
  inBounds : s.machine.InBounds config input
  eq_later : ∃ d, s' = (s.renumber p.clearingIndex).later d

/-- The second result is the first one, with more steps counted or the corresponding token named, which is not one
of the loop that stands for `OOO`. -/
inductive TrailsAtEnd (p : Program) : Except Fault Machine → Except Fault Machine → Prop where
  | ok {m : Machine} (d : Nat) : TrailsAtEnd p (.ok m) (.ok (m.later d))
  | error {fault : Fault} (h : ∀ i ∈ fault.token?, Keeps p.clearingIndex p p.withClearing i) :
      TrailsAtEnd p (.error fault) (.error (fault.renumber p.clearingIndex))

section Replaced

variable (hmax : config.maxSteps = none) (htimeout : config.timeout = none)
  (hx : ofProgram p = .ok x) (hy : ofProgram p.withClearing = .ok y)

include hmax htimeout hx hy

/-- In place of `OOO`, the second run goes through the loop. -/
theorem Trails.reset (h : Trails p config input s s') {t : Token} (ht : p.tokens[s.token]? = some t)
    (hreset : t.instruction = .reset) :
    Paced x y config clock (Trails p config input) (TrailsAtEnd p) s s' := by
  obtain ⟨rfl, -⟩ := ofProgram_eq_ok_iff.1 hx
  obtain ⟨hprogram, hloops⟩ := ofProgram_eq_ok_iff.1 hy
  obtain ⟨d, rfl⟩ := h.eq_later
  have hi : x.program.instruction? s.token = some .reset := by
    rw [Program.instruction?, ht]
    exact congrArg some hreset
  have hnext : x.next config clock s = .running ⟨s.token + 1, (s.machine.setCurrent 0).tick⟩ := by
    rw [next_eq_stepped hi (limit?_eq_none hmax htimeout _), successor?_simple rfl]
    rfl
  obtain ⟨hdrop, hindex⟩ := Program.drop_instructions_withClearing ht hreset
  obtain ⟨whole, hwhole, htable⟩ := LoopTable.ofProgram_eq_ok_iff.1 hloops
  have hloaded : y.LoadedAt (x.program.clearingIndex s.token) .clearing :=
    loadedAt_of_drop (hprogram ▸ hwhole.symm) htable.symm (hwhole ▸ hdrop)
  have hpointer : (s.machine.later d).pointer < (s.machine.later d).tapeLen := h.inBounds.pointer_lt
  have hclearing : Structured config (x.program.clearingIndex s.token) (.before .clearing) _ _ :=
    .clearing hmax hpointer
  have hloop : y.Reaches config clock _ _ := hclearing.reaches htimeout hloaded
  have hexit : Block.clearing.stop (x.program.clearingIndex s.token) =
      x.program.clearingIndex (s.token + 1) := by
    rw [Block.stop_eq, hindex]
  have hmachine : ((s.machine.later d).setCurrent 0).later (2 * (s.machine.later d).current + 1) =
      (s.machine.setCurrent 0).tick.later (d + 2 * s.machine.current) := by
    have hsteps : d + (2 * s.machine.current + 1) = 1 + (d + 2 * s.machine.current) := by omega
    exact (Machine.later_later (m := s.machine.setCurrent 0) d _).trans
      ((congrArg (s.machine.setCurrent 0).later hsteps).trans (Machine.later_later 1 _).symm)
  rw [hmachine, Place.exit, hexit] at hloop
  refine .progressed (.of_next hnext) (.of_ne hloop fun heq => ?_)
    ⟨inBounds_of_next h.inBounds hnext, d + 2 * s.machine.current, rfl⟩
  -- The loop ends behind its first token.
  have htoken : x.program.clearingIndex s.token = x.program.clearingIndex (s.token + 1) :=
    congrArg State.token heq
  have hsize : Block.clearing.size = 3 := rfl
  omega

/-- At any other token, and behind the end, both runs make the same step. -/
theorem Trails.step (h : Trails p config input s s')
    (hother : ∀ t, p.tokens[s.token]? = some t → t.instruction ≠ .reset) :
    Paced x y config clock (Trails p config input) (TrailsAtEnd p) s s' := by
  have hs : Keeps p.clearingIndex p p.withClearing s.token ∨ p.size ≤ s.token := by
    cases ht : p.tokens[s.token]? with
    | none => exact .inr (Array.getElem?_eq_none_iff.1 ht)
    | some t => exact .inl (Program.keeps_withClearing ht (hother t ht))
  obtain ⟨rfl, -⟩ := ofProgram_eq_ok_iff.1 hx
  obtain ⟨d, rfl⟩ := h.eq_later
  have hsame : y.next config clock ((s.renumber x.program.clearingIndex).later d) =
      ((x.next config clock s).renumber x.program.clearingIndex).map (Machine.later d) := by
    rw [next_later hmax htimeout, x.program.replaces_withClearing.next_renumber hx hy hs]
  cases hnext : x.next config clock s with
  | running s₁ =>
      rw [hnext] at hsame
      exact .progressed (.of_next hnext) (.of_next hsame)
        ⟨inBounds_of_next h.inBounds hnext, d, rfl⟩
  | finished m =>
      rw [hnext] at hsame
      exact .ended (.of_next (.ofResult (.ok m)) hnext) (.of_next (.ofResult (.ok (m.later d))) hsame) (.ok d)
  | failed fault =>
      rw [hnext] at hsame
      refine .ended (.of_next (.ofResult (.error fault)) hnext)
        (.of_next (.ofResult (.error (fault.renumber x.program.clearingIndex))) hsame)
        (.error fun i hi => ?_)
      -- A step fails at its own token, which is one of the program.
      obtain ⟨instr, hinstr, -⟩ := next_eq_failed_iff.1 hnext
      rw [token?_of_next hmax htimeout hnext] at hi
      cases hi
      exact hs.resolve_right (Nat.not_le.2 (lt_size_of_instruction? hinstr))

/-- Both runs keep pace. -/
theorem Trails.paced (h : Trails p config input s s') :
    Paced x y config clock (Trails p config input) (TrailsAtEnd p) s s' := by
  by_cases hreset : ∃ t, p.tokens[s.token]? = some t ∧ t.instruction = .reset
  · obtain ⟨t, ht, hreset⟩ := hreset
    exact h.reset hmax htimeout hx hy ht hreset
  · exact h.step hmax htimeout hx hy fun t ht heq => hreset ⟨t, ht, heq⟩

end Replaced

/-- Without limits on a run, `OOO` may as well be spelled out as `MOO MOo moo`, under any policies.  Let `q` have
the instructions of `p` with these three in place of every `OOO`.  The other instructions are then in the same
order, each at the number of those that stand for the ones before it, and the loops can be paired in both programs or
in none.  A run of `q` ends if and only if the run of `p` does: with the same machine, up to the number of counted
steps, or with the same fault at the corresponding token, which is never one of the inserted ones. -/
theorem endsFrom_withClearing (p q : Program) (config : Config) (hmax : config.maxSteps = none)
    (htimeout : config.timeout = none)
    (hq : q.instructions = p.instructions.flatMap Instruction.withClearing) :
    (∀ i instr, p.instruction? i = some instr → instr ≠ .reset →
      q.instruction? (p.clearingIndex i) = some instr) ∧
    (Balanced p.instructions ↔ Balanced q.instructions) ∧
    ∀ x y, ofProgram p = .ok x → ofProgram q = .ok y → ∀ (clock : Clock) (input : String),
      ((∃ result, x.EndsFrom config clock (initial config input) result) ↔
        ∃ result, y.EndsFrom config clock (initial config input) result) ∧
      (∀ m, x.EndsFrom config clock (initial config input) (.ok m) →
        ∃ steps, y.EndsFrom config clock (initial config input) (.ok { m with steps })) ∧
      (∀ fault, x.EndsFrom config clock (initial config input) (.error fault) →
        y.EndsFrom config clock (initial config input) (.error (fault.renumber p.clearingIndex)) ∧
          ∀ i ∈ fault.token?, ∃ instr, p.instruction? i = some instr ∧ instr ≠ .reset) := by
  rw [← Program.instructions_withClearing] at hq
  have hreplaces : Replaces p.clearingIndex p p.withClearing := p.replaces_withClearing
  refine ⟨fun i instr hi hne => ?_, hq ▸ hreplaces.balanced_iff, fun x y hx hy clock input => ?_⟩
  · obtain ⟨t, ht, rfl⟩ : ∃ t, p.tokens[i]? = some t ∧ t.instruction = instr := by
      rw [Program.instruction?] at hi
      split at hi
      · next t ht => exact ⟨t, ht, Option.some.inj hi⟩
      · cases hi
    rw [Program.instruction?_eq_getElem?, hq, ← Program.instruction?_eq_getElem?,
      (Program.keeps_withClearing ht hne).instruction?_eq, hi]
  · -- Only the instructions decide, so `q` may be taken to be the program with the loops put in.
    obtain ⟨-, hloops⟩ := ofProgram_eq_ok_iff.1 hy
    obtain ⟨b, hb, -⟩ := LoopTable.ofProgram_eq_ok_iff.1 hloops
    obtain ⟨z, hz⟩ := exists_ofProgram_eq_ok (hb.trans hq)
    have hstart : Trails p config input (initial config input) (initial config input) :=
      ⟨Machine.inBounds_start config input, 0, rfl⟩
    have hpaced (s s' : State) (h : Trails p config input s s') :
        Paced x z config clock (Trails p config input) (TrailsAtEnd p) s s' :=
      h.paced hmax htimeout hx hz
    have hsame {result : Except Fault Machine} :
        y.EndsFrom config clock (initial config input) result ↔
          z.EndsFrom config clock (initial config input) result :=
      endsFrom_iff_of_instructions clock clock hq hy hz htimeout
    simp only [hsame]
    refine ⟨exists_endsFrom_iff_of_paced hpaced hstart, fun m hm => ?_, fun fault hfault => ?_⟩
    · obtain ⟨result, hresult, hends⟩ := exists_endsFrom_of_paced hpaced hstart hm
      cases hresult with
      | ok d => exact ⟨_, hends⟩
    · obtain ⟨result, hresult, hends⟩ := exists_endsFrom_of_paced hpaced hstart hfault
      cases hresult with
      | error hkeeps => exact ⟨hends, fun i hi => Program.ne_reset_of_keeps (hkeeps i hi)⟩

/-- `MoO MOO OOO moo mOo` leaves the cell on the left end behind its loop, at its fifth token; spelled out, at
its seventh. -/
theorem endsFrom_withClearing_inside_loop :
    let p := Program.ofInstructions [.increment, .loopOpen, .reset, .loopClose, .pointerLeft]
    let q := Program.ofInstructions [.increment, .loopOpen, .loopOpen, .decrement, .loopClose,
      .loopClose, .pointerLeft]
    let config : Config := { tapeLen := 1, maxSteps := none }
    config.maxSteps = none ∧ config.timeout = none ∧
      q.instructions = p.instructions.flatMap Instruction.withClearing ∧
      ∃ x y, ofProgram p = .ok x ∧ ofProgram q = .ok y ∧
        x.EndsFrom config (fun _ => 0) (initial config "") (.error (.pointerUnderflow 4)) ∧
        y.EndsFrom config (fun _ => 0) (initial config "") (.error (.pointerUnderflow 6)) := by
  intro p q config
  have hx : ofProgram p = .ok ⟨p, ⟨#[none, some 3, none, some 1, none], 1⟩⟩ := rfl
  have hy : ofProgram q =
      .ok ⟨q, ⟨#[none, some 5, some 4, none, some 2, some 1, none], 2⟩⟩ := rfl
  have hfails : EndsFrom ⟨p, ⟨#[none, some 3, none, some 1, none], 1⟩⟩ config (fun _ => 0)
      (initial config "") (.error (.pointerUnderflow 4)) := ⟨5, rfl⟩
  obtain ⟨-, -, hruns⟩ := endsFrom_withClearing p q config rfl rfl rfl
  exact ⟨rfl, rfl, rfl, _, _, hx, hy, hfails, ((hruns _ _ hx hy (fun _ => 0) "").2.2 _ hfails).1⟩

end Executable

end CowLang
