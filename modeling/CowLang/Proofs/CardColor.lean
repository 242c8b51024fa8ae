import CowLang.Proofs.Fingerprint
import CowLang.Proofs.Printing
/-!
# The colour program

The colour program contains the checksum program, one cell further to the right, between two pieces of code
that print fixed texts from the first cell.  What it prints is therefore what the checksum prints, between
these texts; the first cell keeps its value while the sum is computed, since the code that adds up the input
does not touch it.

Main statements: `CardColor.structured` (the program without a budget) and
`CardColor.runs_around_checksum` (its runs next to those of the checksum).
-/

namespace CowLang

namespace CardColor

/-- What is printed before the sum. -/
def opening : List Char := ['h', 's', 'l', '(']

/-- What is printed after it. -/
def closing : List Char := [' ', '9', '0', '%', ' ', '8', '5', '%', ')']

/-- The code after the sum has been printed. -/
def afterSum : Block :=
  .left (.left (.printing .done '('.toNat closing))

/-- The program as a tree. -/
def block : Block :=
  .simple .reset rfl (.printing (.right (.adder afterSum)) 0 opening)

theorem flatten_block : block.flatten = (Program.ofSource Bundled.cardColor.source).instructions := by
  rw [Bundled.source, Bundled.cardColorSource, Program.ofSource_ofList]
  decide +kernel

theorem isPrintable_opening : ∀ c ∈ opening, IsPrintable c :=
  List.all_iff_forall_prop.1 (by decide)

theorem isPrintable_closing : ∀ c ∈ closing, IsPrintable c :=
  List.all_iff_forall_prop.1 (by decide)

/-! ## The three parts of a run -/

/-- The machine when the code that adds up the input is reached. -/
def beforeSum (tapeLen : Nat) (input : String) : Machine :=
  { Machine.start tapeLen input with
    tape := (Array.replicate tapeLen 0).setIfInBounds 0 40
    pointer := 1
    output := "hsl("
    steps := 196 }

/-- The machine after the sum has been printed and the pointer has been moved back to the first cell. -/
def withSum (tapeLen : Nat) (input : String) : Machine :=
  { beforeSum tapeLen input with
    tape := ((Array.replicate tapeLen 0).setIfInBounds 0 40).setIfInBounds 2 (Checksum.sum input)
    pointer := 0
    cursor := (Checksum.final tapeLen input).cursor
    output := "hsl(" ++ (Checksum.final tapeLen input).output
    steps := (Checksum.final tapeLen input).steps + 197 }

/-- The machine at the end.  It has read as much as that of the checksum, and made 311 more steps. -/
def final (tapeLen : Nat) (input : String) : Machine where
  tape := ((Array.replicate tapeLen 0).setIfInBounds 0 41).setIfInBounds 2 (Checksum.sum input)
  pointer := 0
  input := input.toList.toArray
  cursor := (Checksum.final tapeLen input).cursor
  output := "hsl(" ++ (Checksum.final tapeLen input).output ++ " 90% 85%)"
  register := none
  steps := (Checksum.final tapeLen input).steps + 311

theorem size_beforeSum (tapeLen : Nat) (input : String) : (beforeSum tapeLen input).tapeLen = tapeLen := by
  rw [beforeSum, Machine.tapeLen, Array.size_setIfInBounds, Array.size_replicate]

/-- The cells behind the first one are still zero. -/
theorem getD_beforeSum {tapeLen index : Nat} {input : String} (h : index ≠ 0) :
    (beforeSum tapeLen input).tape.getD index 0 = 0 := by
  rw [beforeSum, Array.getD_eq_getD_getElem?, Array.getElem?_setIfInBounds_ne h.symm,
    Array.getElem?_replicate]
  split <;> rfl

/-- After the sum has been printed, two steps lead back to the first cell. -/
theorem setPointer_summed_beforeSum (tapeLen : Nat) (input : String) :
    ((((beforeSum tapeLen input).summed 2).setPointer 1).tick.setPointer 0).tick =
      withSum tapeLen input := by
  have hsteps : 196 + (7 + addingSteps (Checksum.addends input)) + 1 + 1 =
      (Checksum.final tapeLen input).steps + 197 := by
    show _ = Checksum.steps input + 197
    rw [Checksum.steps, addingSteps]
    omega
  have houtput : "hsl(".push (Char.ofNat (Checksum.sum input)) =
      "hsl(" ++ (Checksum.final tapeLen input).output :=
    String.push_eq_append _
  have hinput : (beforeSum tapeLen input).input = input.toList.toArray := rfl
  rw [Checksum.summed_eq hinput rfl, withSum, ← hsteps, ← houtput]
  rfl

theorem current_withSum {tapeLen : Nat} (h : 0 < tapeLen) (input : String) :
    (withSum tapeLen input).current = 40 := by
  have hsize : 0 < (Array.replicate tapeLen 0).size := by
    rwa [Array.size_replicate]
  rw [Machine.current, Array.getD_eq_getD_getElem?, withSum,
    Array.getElem?_setIfInBounds_ne (Nat.succ_ne_zero 1),
    Array.getElem?_setIfInBounds_self_of_lt hsize, Option.getD_some]

section Parts

variable {config : Config} {input : String} {start : Nat} {rest : Block} {result : Except Fault Machine}
  (hmax : config.maxSteps = none) (hlen : 4 ≤ config.tapeLen)

include hmax hlen

/-- The opening text is printed from the first cell. -/
theorem structured_opening
    (run : Structured config 196 (.before rest) (beforeSum config.tapeLen input) result) :
    Structured config 0 (.before (.simple .reset rfl (.printing (.right rest) 0 opening)))
      (.start config.tapeLen input) result := by
  have htape : (Machine.start config.tapeLen input).tapeLen = config.tapeLen :=
    Machine.tapeLen_start_of_pos (by omega) input
  have hreset : (Machine.start config.tapeLen input).perform config 0 .reset =
      .ok ((Machine.start config.tapeLen input).showing 0 "" 1) := by
    rw [Machine.perform_of_unlimited hmax]
    rfl
  have hmoved : (((Machine.start config.tapeLen input).showing 40 "hsl(" 195).setPointer 1).tick =
      beforeSum config.tapeLen input := by
    simp only [Machine.showing, Machine.setCurrent, Machine.start,
      Nat.max_eq_left (show 1 ≤ config.tapeLen by omega)]
    rfl
  rw [← hmoved] at run
  refine .simple hreset (Structured.printing hmax (htape.symm ▸ Nat.zero_lt_of_lt hlen) (by decide)
    isPrintable_opening ?_)
  refine .simple (Machine.perform_right hmax ?_) run
  rw [Machine.tapeLen_showing, htape]
  exact Nat.lt_of_lt_of_le (show 0 + 1 < 4 by decide) hlen

/-- The sum is computed in the third and fourth cells and printed, and the pointer goes back. -/
theorem structured_sum (hover : config.overflowPolicy = .wrap)
    (run : Structured config (start + 17) (.before rest) (withSum config.tapeLen input) result) :
    Structured config start (.before (.adder (.left (.left rest))))
      (beforeSum config.tapeLen input) result := by
  rw [← setPointer_summed_beforeSum] at run
  refine Structured.adder hmax hover (size_beforeSum _ input ▸ hlen)
    (getD_beforeSum (Nat.succ_ne_zero 1)) (getD_beforeSum (Nat.succ_ne_zero 2)) rfl (Nat.zero_le _) ?_
  refine .simple (Machine.perform_left hmax Nat.two_pos) ?_
  exact .simple (Machine.perform_left hmax Nat.one_pos) run

/-- The closing text is printed from the first cell. -/
theorem structured_closing :
    Structured config start (.before (.printing .done '('.toNat closing))
      (withSum config.tapeLen input) (.ok (final config.tapeLen input)) := by
  have hpointer : (withSum config.tapeLen input).pointer < (withSum config.tapeLen input).tapeLen := by
    rw [withSum, Machine.tapeLen, Array.size_setIfInBounds, Array.size_setIfInBounds,
      Array.size_replicate]
    exact Nat.zero_lt_of_lt hlen
  have hfinal : (withSum config.tapeLen input).showing 41 ((withSum config.tapeLen input).output ++
      " 90% 85%)") ((withSum config.tapeLen input).steps + 114) = final config.tapeLen input := by
    simp only [Machine.showing, Machine.setCurrent, withSum, final]
    rw [Array.setIfInBounds_comm _ _ (by decide), Array.setIfInBounds_setIfInBounds]
    rfl
  rw [← Machine.showing_self (current_withSum (by omega) input)]
  refine Structured.printing hmax hpointer (by decide) isPrintable_closing ?_
  exact hfinal ▸ .done

end Parts

/-- Without a budget the program prints the sum between the two texts. -/
theorem structured {config : Config} {input : String} (hmax : config.maxSteps = none)
    (hover : config.overflowPolicy = .wrap) (hlen : 4 ≤ config.tapeLen) :
    Structured config 0 (.before block) (.start config.tapeLen input)
      (.ok (final config.tapeLen input)) :=
  structured_opening hmax hlen (structured_sum hmax hlen hover (structured_closing hmax hlen))

/-- Both programs can be run, and on bytes, with four cells or more and neither a budget nor a timeout, both end
on every input.  The checksum prints one character, and the colour program prints the same one between the two
texts and reads as much of the input.  It leaves the pointer on the first cell, with the code point of the last
character printed there, that of the checksum in the third cell, and zero in all others. -/
theorem runs_around_checksum :
    ∃ x y, Executable.ofSource Bundled.cardColor.source = .ok x ∧
      Executable.ofSource Bundled.checksum.source = .ok y ∧
      ∀ (config : Config) (clock : Clock) (input : String),
        config.overflowPolicy = .wrap → 4 ≤ config.tapeLen → config.maxSteps = none →
          config.timeout = none →
            ∃ (m checksum : Machine) (c : Char),
              (∀ result, x.EndsFrom config clock (Executable.initial config input) result ↔
                result = .ok m) ∧
              (∀ result, y.EndsFrom config clock (Executable.initial config input) result ↔
                result = .ok checksum) ∧
              checksum.output = String.singleton c ∧
              m.output = "hsl(" ++ String.singleton c ++ " 90% 85%)" ∧
              m.pointer = 0 ∧
              m.tape =
                ((Array.replicate config.tapeLen 0).setIfInBounds 0 41).setIfInBounds 2 c.toNat ∧
              m.cursor = checksum.cursor := by
  obtain ⟨x, hx⟩ := Executable.exists_ofProgram_eq_ok flatten_block
  obtain ⟨y, hy⟩ := Executable.exists_ofProgram_eq_ok Checksum.flatten_block
  refine ⟨x, y, hx, hy, fun config clock input hover hlen hmax htimeout => ?_⟩
  have hcolor : x.EndsFrom config clock (Executable.initial config input)
      (.ok (final config.tapeLen input)) :=
    (Executable.endsFrom_iff hx flatten_block htimeout).2 (structured hmax hover hlen)
  have hchecksum : y.EndsFrom config clock (Executable.initial config input)
      (.ok (Checksum.final config.tapeLen input)) :=
    Checksum.endsFrom_final hy hmax hover (by omega) htimeout
  have hcode : (Char.ofNat (Checksum.sum input)).toNat = Checksum.sum input :=
    toNat_ofNat_byte (Checksum.sum_lt input)
  refine ⟨_, _, Char.ofNat (Checksum.sum input), fun result => hcolor.iff_eq,
    fun result => hchecksum.iff_eq, rfl, rfl, rfl, ?_, rfl⟩
  rw [hcode]
  rfl

/-- On four cells, the colour of `abc` has the character of code point 38 in it: the code points are 97, 98 and
99, and their sum is 294. -/
theorem runs_around_checksum_on_letters :
    ∃ x m, Executable.ofSource Bundled.cardColor.source = .ok x ∧
      x.EndsFrom { tapeLen := 4, maxSteps := none } (fun _ => 0)
        (Executable.initial { tapeLen := 4, maxSteps := none } "abc") (.ok m) ∧
      m.output = "hsl(& 90% 85%)" ∧ m.tape = #[41, 0, 38, 0] := by
  obtain ⟨x, y, hx, hy, hruns⟩ := runs_around_checksum
  obtain ⟨m, checksum, c, hcolor, hchecksum, hprinted, houtput, -, htape, -⟩ :=
    hruns { tapeLen := 4, maxSteps := none } (fun _ => 0) "abc" rfl le_rfl rfl rfl
  have hfinal : Except.ok (Checksum.final 4 "abc") = .ok checksum :=
    (hchecksum _).1 (Checksum.endsFrom_final hy rfl rfl (by decide) rfl)
  have hchar : c = '&' := by
    have hprinted' : (Checksum.final 4 "abc").output = String.singleton c := by
      rw [Except.ok.inj hfinal, hprinted]
    have hsum : (Checksum.final 4 "abc").output = String.singleton '&' := by decide +kernel
    exact (String.singleton_inj.1 (hsum.symm.trans hprinted')).symm
  refine ⟨x, m, hx, (hcolor _).2 rfl, ?_, ?_⟩
  · rw [houtput, hchar]
    decide
  · rw [htape, hchar]
    decide

end CardColor

end CowLang
