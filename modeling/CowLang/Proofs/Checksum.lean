import CowLang.Bundled
import CowLang.Proofs.Adder
import CowLang.Proofs.Budget
/-!
# The checksum

The bundled checksum program is the code that adds up the input, on the second and third cells, with
one more `mOo` after it.  So its result, and the exact number of its steps, can be read off the input.

Main statements: `Checksum.structured` (the program without a budget) and
`Checksum.endsFrom_iff` (every run of it, with a budget or without).
-/

namespace CowLang

namespace Checksum

/-- The checksum program as a tree. -/
def block : Block :=
  .adder (.left .done)

theorem flatten_block : block.flatten = (Program.ofSource Bundled.checksum.source).instructions := by
  rw [Bundled.source, Bundled.checksumSource, Program.ofSource_ofList]
  decide +kernel

/-! ## What the input says about the run -/

/-- The values that are added to the first one: those of the characters after it, up to the first that
is zero. -/
def addends (input : String) : List Nat :=
  (input.toList.map cellValue).tail.takeWhile (· ≠ 0)

/-- The sum that is printed.  The first value counts even when it is zero. -/
def sum (input : String) : Nat :=
  ((input.toList.map cellValue).headD 0 + (addends input).sum) % 256

/-- The number of steps. -/
def steps (input : String) : Nat :=
  8 + ((addends input).map fun v => 5 * v + 3).sum

/-- The machine at the end. -/
def final (tapeLen : Nat) (input : String) : Machine where
  tape := (Array.replicate tapeLen 0).setIfInBounds 1 (sum input)
  pointer := 0
  input := input.toList.toArray
  cursor := min input.length ((addends input).length + 2)
  output := String.singleton (Char.ofNat (sum input))
  register := none
  steps := steps input

theorem sum_lt (input : String) : sum input < 256 :=
  Nat.mod_lt _ (by decide)

theorem cellChar_sum (input : String) : cellChar (sum input) = Char.ofNat (sum input) :=
  cellChar_of_lt (sum_lt input)

section Unread

variable {m : Machine} {input : String} (hinput : m.input = input.toList.toArray)

include hinput

theorem unread_zero : m.unread 0 = input.toList.map cellValue := by
  rw [Machine.unread, hinput]
  rfl

theorem addends_zero : m.addends (m.nextCursor 0) = addends input := by
  rw [Machine.addends, Machine.unread_nextCursor, unread_zero hinput, addends]

/-- What is added up before anything has been read. -/
theorem summed_eq (hcursor : m.cursor = 0) (j : Nat) :
    m.summed j =
      { m with
        tape := m.tape.setIfInBounds j (sum input)
        pointer := j
        cursor := min input.length ((addends input).length + 2)
        output := m.output.push (Char.ofNat (sum input))
        steps := m.steps + (7 + addingSteps (addends input)) } := by
  have hsum : (m.nextValue 0 + (addends input).sum) % 256 = sum input := by
    rw [Machine.nextValue, unread_zero hinput, sum]
  have hsize : m.input.size = input.length := by
    rw [hinput, List.size_toArray, String.length_toList]
  simp only [Machine.summed, hcursor, addends_zero hinput, hsum, hsize, cellChar_sum, Nat.zero_add,
    Nat.min_comm input.length]

end Unread

/-- After the sum has been printed, one more `mOo` leads to the end. -/
theorem setPointer_summed_start {tapeLen : Nat} {input : String} (h : 1 ≤ tapeLen) :
    (((Machine.start tapeLen input).summed 1).setPointer 0).tick = final tapeLen input := by
  rw [summed_eq rfl rfl]
  simp only [Machine.setPointer, Machine.tick, Machine.start, final, Nat.max_eq_left h,
    Machine.mk.injEq, true_and]
  refine ⟨rfl, ?_⟩
  rw [steps, addingSteps]
  omega

/-- Without a budget the program prints the sum, after exactly so many steps. -/
theorem structured {config : Config} {input : String} (hmax : config.maxSteps = none)
    (hover : config.overflowPolicy = .wrap) (hlen : 3 ≤ config.tapeLen) :
    Structured config 0 (.before block) (.start config.tapeLen input)
      (.ok (final config.tapeLen input)) := by
  have hcells : 1 + 1 < (Machine.start config.tapeLen input).tapeLen := by
    rw [Machine.tapeLen_start_of_pos (by omega)]
    exact hlen
  refine Structured.adder hmax hover hcells (Machine.getD_tape_start _ _ 1)
    (Machine.getD_tape_start _ _ 2) rfl (Nat.zero_le _) ?_
  refine .simple (Machine.perform_left hmax Nat.one_pos) ?_
  have hfinal : (((Machine.start config.tapeLen input).summed 1).setPointer (1 - 1)).tick =
      final config.tapeLen input := setPointer_summed_start (Nat.le_trans (by decide) hlen)
  exact hfinal ▸ .done

/-- The checksum program can be run, and every run of it on bytes, with three cells or more and without a
timeout, takes as many steps as the input says: with a smaller budget it is given up, and otherwise it
ends with the sum printed. -/
theorem runs_to_final :
    ∃ x, Executable.ofSource Bundled.checksum.source = .ok x ∧
      ∀ (config : Config) (clock : Clock) (input : String),
        config.overflowPolicy = .wrap → 3 ≤ config.tapeLen → config.timeout = none →
          ((∀ limit, config.maxSteps = some limit → steps input ≤ limit) →
            ∀ result, x.EndsFrom config clock (Executable.initial config input) result ↔
              result = .ok (final config.tapeLen input)) ∧
          (∀ limit, config.maxSteps = some limit → limit < steps input →
            ∀ result, x.EndsFrom config clock (Executable.initial config input) result ↔
              result = .error (.stepLimitExceeded limit)) := by
  obtain ⟨x, hx⟩ := Executable.exists_ofProgram_eq_ok flatten_block
  refine ⟨x, hx, fun config clock input hover hlen htimeout => ?_⟩
  have htimeout' : config.unlimited.timeout = none := htimeout
  have hstructured := @structured config.unlimited input rfl hover hlen
  have hunlimited : x.EndsFrom config.unlimited clock (Executable.initial config input)
      (.ok (final config.tapeLen input)) :=
    (Executable.endsFrom_iff hx flatten_block htimeout').2 hstructured
  constructor
  · intro hbudget result
    apply Executable.EndsFrom.iff_eq
    cases hmax : config.maxSteps with
    | none => rwa [Config.unlimited_eq_self hmax] at hunlimited
    | some limit =>
        have hends := Executable.endsFrom_of_unlimited_ok htimeout hmax (Nat.zero_le limit) hunlimited
        have hwithin : (final config.tapeLen input).steps ≤ limit := hbudget limit hmax
        rwa [if_pos hwithin] at hends
  · intro limit hmax hlimit result
    apply Executable.EndsFrom.iff_eq
    have hends := Executable.endsFrom_of_unlimited_ok htimeout hmax (Nat.zero_le limit) hunlimited
    have hbeyond : ¬ (final config.tapeLen input).steps ≤ limit := Nat.not_le.2 hlimit
    rwa [if_neg hbeyond] at hends

/-- On three cells, the sum of `AB`, with a zero after it and more text, takes 341 steps: the code points
are 65 and 66.  A budget of 340 is too small. -/
theorem runs_to_final_on_letters :
    ∃ x, Executable.ofSource Bundled.checksum.source = .ok x ∧
      x.EndsFrom { tapeLen := 3, maxSteps := some 341 } (fun _ => 0)
        (Executable.initial { tapeLen := 3, maxSteps := some 341 } "AB\x00C")
        (.ok ⟨#[0, 131, 0], 0, #['A', 'B', '\x00', 'C'], 3, "\u0083", none, 341⟩) ∧
      x.EndsFrom { tapeLen := 3, maxSteps := some 340 } (fun _ => 0)
        (Executable.initial { tapeLen := 3, maxSteps := some 340 } "AB\x00C")
        (.error (.stepLimitExceeded 340)) := by
  obtain ⟨x, hx, hruns⟩ := runs_to_final
  have hsteps : steps "AB\x00C" = 341 := by decide +kernel
  have hfinal : final 3 "AB\x00C" =
      ⟨#[0, 131, 0], 0, #['A', 'B', '\x00', 'C'], 3, "\u0083", none, 341⟩ := by
    decide +kernel
  refine ⟨x, hx, ?_, ?_⟩
  · refine ((hruns _ _ _ rfl le_rfl rfl).1 (fun limit hlimit => ?_) _).2 (congrArg Except.ok hfinal.symm)
    rw [hsteps]
    exact (Option.some.inj hlimit).le
  · refine ((hruns _ _ _ rfl le_rfl rfl).2 340 rfl ?_ _).2 rfl
    rw [hsteps]
    decide

end Checksum

end CowLang
