import CowLang.Bundled
import CowLang.Proofs.Adder
import Mathlib.Data.Bool.AllAny
/-!
# Printing fixed texts

Two of the bundled programs print a fixed text from a single cell: they count the cell up or down to the code
point of a character, print it with `Moo`, and go on from there to the next one.  `Block.printing` is that code
for any text.  Since `Moo` reads a character when it finds a zero, the code prints the text only if no
character of it is zero.

While it runs, only the current cell, the output and the step counter change; a machine with given values of
them is a `showing` of the machine from which the code started.  There are no loops in the code, so the number
of its tokens is also the number of its steps.

Main statements: `Structured.printing` (the code for any text) and `Greeting.runs_to_greeting` (all runs of the
program that is nothing else).
-/

namespace CowLang

namespace Block

/-- Copies of a simple instruction, and what comes after them. -/
def repeated (i : Instruction) (plain : i.isLoop = false) (rest : Block) : Nat → Block
  | 0 => rest
  | count + 1 => .simple i plain (repeated i plain rest count)

/-- Prints a text from a cell with a given value, and what comes after it. -/
def printing (rest : Block) : Nat → List Char → Block
  | _, [] => rest
  | value, c :: text =>
    repeated .increment rfl
      (repeated .decrement rfl (.simple .conditionalIo rfl (printing rest c.toNat text))
        (value - c.toNat))
      (c.toNat - value)

/-- The number of tokens that it takes to print a text. -/
def printingSize : Nat → List Char → Nat
  | _, [] => 0
  | value, c :: text => (c.toNat - value) + (value - c.toNat) + 1 + printingSize c.toNat text

end Block

/-- The value of a cell after a text has been printed from it. -/
def lastCode : Nat → List Char → Nat
  | value, [] => value
  | _, c :: text => lastCode c.toNat text

/-- The characters that can be printed from a cell: those of one byte, but not zero. -/
def IsPrintable (c : Char) : Prop :=
  c.toNat ≠ 0 ∧ c.toNat < 256

instance : DecidablePred IsPrintable := fun c =>
  inferInstanceAs (Decidable (c.toNat ≠ 0 ∧ c.toNat < 256))

namespace Machine

variable {m : Machine} {config : Config} {token value steps : Nat} {output : String}

/-- The machine `m` with the current cell, the output and the step counter as given. -/
def showing (m : Machine) (value : Nat) (output : String) (steps : Nat) : Machine :=
  { m.setCurrent value with
    output := output
    steps := steps }

theorem setCurrent_current (m : Machine) : m.setCurrent m.current = m := by
  rw [setCurrent, current, setIfInBounds_getD]

/-- Every machine shows what it has. -/
theorem showing_self (h : m.current = value) : m.showing value m.output m.steps = m := by
  rw [showing, ← h, setCurrent_current]

@[simp]
theorem tapeLen_showing : (m.showing value output steps).tapeLen = m.tapeLen :=
  tapeLen_setCurrent m value

theorem current_showing (h : m.pointer < m.tapeLen) :
    (m.showing value output steps).current = value :=
  current_setCurrent m value h

theorem setCurrent_showing (value' : Nat) :
    (m.showing value output steps).setCurrent value' = m.showing value' output steps := by
  simp only [showing, setCurrent, Array.setIfInBounds_setIfInBounds]

variable (hmax : config.maxSteps = none) (h : m.pointer < m.tapeLen)

include hmax h

/-- Below 255 a cell can be counted up under every policy. -/
theorem perform_showing_increment (hvalue : value < 255) :
    (m.showing value output steps).perform config token .increment =
      .ok (m.showing (value + 1) output (steps + 1)) := by
  have hact : (m.showing value output steps).act config token .increment =
      .ok (m.showing (value + 1) output steps) := by
    simp only [act, increment, current_showing h, setCurrent_showing, maxByte, maxCell]
    split
    · rw [if_neg (by omega)]
    · rw [if_neg (by omega)]
  rw [perform_of_unlimited hmax, hact]
  rfl

theorem perform_showing_decrement :
    (m.showing (value + 1) output steps).perform config token .decrement =
      .ok (m.showing value output (steps + 1)) := by
  rw [perform_of_unlimited hmax, act]
  simp only [decrement, current_showing h, if_pos (Nat.succ_pos value), setCurrent_showing]
  rfl

/-- From a cell that is not zero, `Moo` prints. -/
theorem perform_showing_conditionalIo {c : Char} (hc : IsPrintable c) :
    (m.showing c.toNat output steps).perform config token .conditionalIo =
      .ok (m.showing c.toNat (output.push c) (steps + 1)) := by
  rw [perform_of_unlimited hmax, act, current_showing h, if_neg hc.1, write, current_showing h,
    cellChar_of_lt hc.2, Char.ofNat_toNat]
  rfl

end Machine

namespace Structured

open Block Machine

variable {config : Config} {m : Machine} {value steps start : Nat} {output : String} {rest : Block}
  {result : Except Fault Machine}
  (hmax : config.maxSteps = none) (h : m.pointer < m.tapeLen)

include hmax h

theorem countUp {count : Nat} (hvalue : value + count < 256)
    (run : Structured config (start + count) (.before rest)
      (m.showing (value + count) output (steps + count)) result) :
    Structured config start (.before (repeated .increment rfl rest count))
      (m.showing value output steps) result := by
  induction count generalizing start value steps with
  | zero => exact run
  | succ count ih =>
      refine .simple (perform_showing_increment hmax h (by omega)) (ih (by omega) ?_)
      rw [Nat.add_assoc start, Nat.add_assoc value, Nat.add_assoc steps, Nat.add_comm 1]
      exact run

theorem countDown {count : Nat}
    (run : Structured config (start + count) (.before rest)
      (m.showing value output (steps + count)) result) :
    Structured config start (.before (repeated .decrement rfl rest count))
      (m.showing (value + count) output steps) result := by
  induction count generalizing start steps with
  | zero => exact run
  | succ count ih =>
      refine .simple (perform_showing_decrement hmax h) (ih ?_)
      rw [Nat.add_assoc start, Nat.add_assoc steps, Nat.add_comm 1]
      exact run

/-- The code prints the text and leaves the code point of its last character in the cell. -/
theorem printing {text : List Char} (hvalue : value < 256) (htext : ∀ c ∈ text, IsPrintable c)
    (run : Structured config (start + printingSize value text) (.before rest)
      (m.showing (lastCode value text) (output ++ String.ofList text)
        (steps + printingSize value text)) result) :
    Structured config start (.before (Block.printing rest value text))
      (m.showing value output steps) result := by
  induction text generalizing value output steps start with
  | nil =>
      rw [String.ofList_nil, String.append_empty] at run
      exact run
  | cons c text ih =>
      have hc : IsPrintable c := htext c List.mem_cons_self
      have hcode : c.toNat < 256 := hc.2
      -- One of the two runs of counting is empty.
      have hreached : value + (c.toNat - value) = c.toNat + (value - c.toNat) := by omega
      refine countUp hmax h (by omega) ?_
      rw [hreached]
      refine countDown hmax h (.simple (perform_showing_conditionalIo hmax h hc) ?_)
      refine ih hcode (fun d hd => htext d (List.mem_cons_of_mem c hd)) ?_
      have houtput : output.push c ++ String.ofList text = output ++ String.ofList (c :: text) := by
        rw [String.ofList_cons, String.push_eq_append, String.append_assoc]
      have hsize (count : Nat) :
          count + (c.toNat - value) + (value - c.toNat) + 1 + printingSize c.toNat text =
            count + printingSize value (c :: text) := by
        rw [printingSize]
        omega
      rw [houtput, hsize, hsize]
      exact run

end Structured

/-! ## The greeting -/

namespace Greeting

/-- What the program prints. -/
def greeting : List Char := ['w', 'a', 't', 'n', 'o', 'w', '!']

/-- The program as a tree. -/
def block : Block :=
  .printing .done 0 greeting

theorem flatten_block : block.flatten = (Program.ofSource Bundled.greeting.source).instructions := by
  rw [Bundled.source, Bundled.greetingSource, Program.ofSource_ofList]
  decide +kernel

theorem isPrintable_greeting : ∀ c ∈ greeting, IsPrintable c :=
  List.all_iff_forall_prop.1 (by decide)

/-- The program can be run, and every run of it without a budget and a timeout ends with the greeting printed
and with nothing read, whatever the policies and the input are. -/
theorem runs_to_greeting :
    ∃ x, Executable.ofSource Bundled.greeting.source = .ok x ∧
      ∀ (config : Config) (clock : Clock) (input : String),
        config.maxSteps = none → config.timeout = none →
          ∀ result, x.EndsFrom config clock (Executable.initial config input) result ↔
            result = .ok ((Machine.start config.tapeLen input).showing 33 "watnow!" 268) := by
  obtain ⟨x, hx⟩ := Executable.exists_ofProgram_eq_ok flatten_block
  refine ⟨x, hx, fun config clock input hmax htimeout result => ?_⟩
  have hpointer : (Machine.start config.tapeLen input).pointer <
      (Machine.start config.tapeLen input).tapeLen := by
    rw [Machine.tapeLen_start]
    exact Nat.le_max_right _ _
  have hstart : (Machine.start config.tapeLen input).showing 0 "" 0 =
      Machine.start config.tapeLen input :=
    Machine.showing_self (Machine.getD_tape_start _ _ 0)
  have hstructured : Structured config 0 (.before block)
      ((Machine.start config.tapeLen input).showing 0 "" 0)
      (.ok ((Machine.start config.tapeLen input).showing 33 "watnow!" 268)) :=
    Structured.printing hmax hpointer (by decide) isPrintable_greeting .done
  rw [hstart] at hstructured
  have hends : x.EndsFrom config clock (Executable.initial config input)
      (.ok ((Machine.start config.tapeLen input).showing 33 "watnow!" 268)) :=
    (Executable.endsFrom_iff hx flatten_block htimeout).2 hstructured
  exact hends.iff_eq

end Greeting

end CowLang
