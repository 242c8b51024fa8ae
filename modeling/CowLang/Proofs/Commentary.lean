import CowLang.Proofs.Reading
import CowLang.Proofs.Structured
/-!
# Commentary does not matter

Spellings are made of four letters.  A text without these letters spells nothing, and no spelling can begin
in it and end behind it, so it may stand before, between and behind the spellings of a source, or be left
out.  What is read are the instructions in order, and nothing but these decides about loops and about runs.

Main statements: `Program.instructions_ofSource_written` (spellings with commentary around them are read as
their instructions), `Program.tokens_ofSource_render` (the canonical text has its spellings at every fourth
character), `LoopTable.ofProgram_congr` and `Executable.advance_eq_of_instructions` (only the instructions
decide about loops and runs) and `Program.ofSource_written_and_render` (all of it together).
-/

namespace CowLang

/-! ## Texts that spell nothing -/

/-- The letters of which spellings are made. -/
def Instruction.isLetter (c : Char) : Bool :=
  c = 'm' || c = 'M' || c = 'o' || c = 'O'

/-- A text without the letters of spellings. -/
def IsCommentary (text : List Char) : Prop :=
  ∀ c ∈ text, Instruction.isLetter c = false

instance (text : List Char) : Decidable (IsCommentary text) :=
  List.decidableBAll _ text

theorem Instruction.leading?_cons_of_not_isLetter {c : Char} (h : isLetter c = false)
    (rest : List Char) : leading? (c :: rest) = none := by
  cases hleading : leading? (c :: rest) with
  | none => rfl
  | some found =>
      -- Every spelling begins with one of the letters.
      obtain ⟨i, after⟩ := found
      have htext := eq_of_leading?_eq_some hleading
      cases i <;> cases htext <;> cases h

namespace Program

/-- Commentary is passed over. -/
theorem scanLoop_commentary_append {gap : List Char} (h : IsCommentary gap) (place : Position)
    (found : Array Token) (rest : List Char) :
    scanLoop place 0 found (gap ++ rest) = scanLoop (place.advanceAll gap) 0 found rest := by
  induction gap generalizing place with
  | nil => rfl
  | cons c gap ih =>
      obtain ⟨hc, hgap⟩ := List.forall_mem_cons.1 h
      rw [List.cons_append,
        scanLoop_cons_of_none place found (Instruction.leading?_cons_of_not_isLetter hc _), ih hgap]
      rfl

/-! ## Spellings with commentary around them -/

/-- A source that begins with the text `first` and goes on with spellings, each followed by a text. -/
def written (first : String) (pieces : List (Instruction × String)) : String :=
  first ++ String.join (pieces.map fun piece => piece.1.spelling ++ piece.2)

theorem toList_written (first : String) (pieces : List (Instruction × String)) :
    (written first pieces).toList =
      first.toList ++ pieces.flatMap fun piece => piece.1.chars ++ piece.2.toList := by
  rw [written, String.toList_append, String.toList_join, List.flatMap_map]
  simp only [String.toList_append, Instruction.spelling, String.toList_ofList]

theorem map_instruction_scanLoop_pieces {pieces : List (Instruction × String)}
    (h : ∀ piece ∈ pieces, IsCommentary piece.2.toList) (place : Position) :
    (scanLoop place 0 #[] (pieces.flatMap fun piece => piece.1.chars ++ piece.2.toList)).1.toList.map
        Token.instruction =
      pieces.map Prod.fst := by
  induction pieces generalizing place with
  | nil => rfl
  | cons piece pieces ih =>
      obtain ⟨hgap, hrest⟩ := List.forall_mem_cons.1 h
      rw [List.flatMap_cons, List.append_assoc, scanLoop_chars_append,
        scanLoop_commentary_append hgap, List.map_cons, ih hrest, List.map_cons]

/-- Spellings with commentary around them are read as their instructions. -/
theorem instructions_ofSource_written {first : String} {pieces : List (Instruction × String)}
    (hfirst : IsCommentary first.toList) (h : ∀ piece ∈ pieces, IsCommentary piece.2.toList) :
    (ofSource (written first pieces)).instructions = pieces.map Prod.fst := by
  rw [ofSource, scanFrom, toList_written, scanLoop_commentary_append hfirst]
  exact map_instruction_scanLoop_pieces h _

/-! ## The canonical text -/

/-- The span of the spelling at an index of a canonical text: three letters and a blank before it for each
spelling that precedes it, all in one line. -/
def renderedSpan (index : Nat) : Span :=
  ⟨4 * index, 4 * index + 3, 1, 4 * index + 1⟩

/-- The place before the spelling at an index of a canonical text. -/
def renderedPlace (index : Nat) : Position :=
  ⟨4 * index, 1, 4 * index + 1⟩

theorem renderedPlace_advanceAll_chars (index : Nat) (i : Instruction) :
    (renderedPlace index).advanceAll (i.chars ++ [' ']) = renderedPlace (index + 1) := by
  cases i <;> rfl

theorem isCommentary_blank : IsCommentary [' '] :=
  List.forall_mem_singleton.2 rfl

theorem toList_scanLoop_render (is : List Instruction) (index : Nat) :
    (scanLoop (renderedPlace index) 0 #[]
        ([' '].intercalate (is.map Instruction.chars))).1.toList =
      (is.zipIdx index).map fun (i, k) => ⟨i, renderedSpan k⟩ := by
  induction is generalizing index with
  | nil => rfl
  | cons i is ih =>
      cases is with
      | nil =>
          have hlast := scanLoop_chars_append (renderedPlace index) i []
          rw [List.append_nil] at hlast
          exact hlast
      | cons j is =>
          rw [List.map_cons, List.map_cons, List.intercalate_cons_cons, List.append_assoc,
            scanLoop_chars_append, scanLoop_commentary_append isCommentary_blank,
            ← Position.advanceAll_append, renderedPlace_advanceAll_chars, ← List.map_cons, ih]
          rfl

/-- The canonical text of a program is read as the tokens of the program, at every fourth character. -/
theorem tokens_ofSource_render (p : Program) :
    (ofSource p.render).tokens.toList =
      p.instructions.zipIdx.map fun (i, k) => ⟨i, renderedSpan k⟩ := by
  have hchars : (p.instructions.map Instruction.spelling).map String.toList =
      p.instructions.map Instruction.chars := by
    simp [Instruction.spelling]
  rw [ofSource, scanFrom, render, String.toList_intercalate, hchars]
  exact toList_scanLoop_render p.instructions 0

theorem instructions_ofSource_render (p : Program) :
    (ofSource p.render).instructions = p.instructions := by
  rw [instructions, tokens_ofSource_render, List.map_map]
  exact List.zipIdx_map_fst 0 p.instructions

end Program

/-! ## Only the instructions decide -/

/-- The same error without the place of the token. -/
def LoopError.unplaced : LoopError → LoopError
  | .unmatchedOpen index _ => .unmatchedOpen index .nowhere
  | .unmatchedClose index _ => .unmatchedClose index .nowhere

namespace LoopTable

/-- The scan looks at a program only for the place of the token that an error names. -/
theorem resolveLoop_congr (p q : Program) (index : Nat) (pending : List Nat) (t : LoopTable)
    (is : List Instruction) :
    (resolveLoop p index pending t is).mapError LoopError.unplaced =
      (resolveLoop q index pending t is).mapError LoopError.unplaced := by
  induction is generalizing index pending t with
  | nil => cases pending <;> rfl
  | cons i is ih =>
      by_cases plain : i.isLoop = false
      · rw [resolveLoop_simple p index pending t plain, resolveLoop_simple q index pending t plain, ih]
      · cases i with
        | loopOpen => rw [resolveLoop, resolveLoop, ih]
        | loopClose =>
            cases pending with
            | nil => rfl
            | cons innermost outer => rw [resolveLoop, resolveLoop, ih]
        | _ => exact absurd rfl plain

/-- Programs with the same instructions have the same loop table, or the same error up to the place. -/
theorem ofProgram_congr {p q : Program} (h : p.instructions = q.instructions) :
    (ofProgram p).mapError LoopError.unplaced = (ofProgram q).mapError LoopError.unplaced := by
  have hsize : p.size = q.size := by
    rw [← Program.length_instructions, h, Program.length_instructions]
  rw [ofProgram, ofProgram, h, hsize]
  exact resolveLoop_congr p q _ _ _ _

end LoopTable

namespace Executable

variable {x y : Executable} {config : Config}

/-- Without a timeout, programs with the same instructions and the same table have the same runs, whatever
the clocks say. -/
theorem advance_eq_of_instructions (clock clock' : Clock)
    (hinstructions : y.program.instructions = x.program.instructions) (hloops : y.loops = x.loops)
    (htimeout : config.timeout = none) (n : Nat) (s : State) :
    y.advance config clock' n s = x.advance config clock n s := by
  have hnext (s : State) : y.next config clock' s = x.next config clock s := by
    simp only [next, Program.instruction?_eq_getElem?, hinstructions, hloops,
      limit?_eq_exhausted? htimeout]
  induction n generalizing s with
  | zero => rfl
  | succ n ih =>
      rw [advance, advance, hnext]
      cases x.next config clock s with
      | running s => exact ih s
      | finished m => rfl
      | failed fault => rfl

theorem endsFrom_iff_of_instructions {p q : Program} (clock clock' : Clock)
    (h : p.instructions = q.instructions) (hx : ofProgram p = .ok x) (hy : ofProgram q = .ok y)
    (htimeout : config.timeout = none) {s : State} {result : Except Fault Machine} :
    x.EndsFrom config clock s result ↔ y.EndsFrom config clock' s result := by
  obtain ⟨rfl, hxloops⟩ := ofProgram_eq_ok_iff.1 hx
  obtain ⟨rfl, hyloops⟩ := ofProgram_eq_ok_iff.1 hy
  have hloops : x.loops = y.loops := by
    have hsame := LoopTable.ofProgram_congr h
    rw [hxloops, hyloops] at hsame
    exact Except.ok.inj hsame
  simp only [endsFrom_iff_reaches, Reaches,
    advance_eq_of_instructions clock' clock h hloops htimeout]

end Executable

/-- Spellings with texts around them that have none of their letters are read as their instructions; with
empty texts between them, too.  The canonical text of a program is read as its instructions, the one at index
`k` being at byte `4 * k` of the first line.  And programs with the same instructions have the same loop
table or the same error, up to its place, and without a timeout the same results on every input. -/
theorem Program.ofSource_written_and_render :
    (∀ (first : String) (pieces : List (Instruction × String)), IsCommentary first.toList →
      (∀ piece ∈ pieces, IsCommentary piece.2.toList) →
        (ofSource (written first pieces)).instructions = pieces.map Prod.fst) ∧
    (∀ p : Program, (ofSource p.render).tokens.toList =
      p.instructions.zipIdx.map fun (i, k) => ⟨i, ⟨4 * k, 4 * k + 3, 1, 4 * k + 1⟩⟩) ∧
    (∀ p q : Program, p.instructions = q.instructions →
      (LoopTable.ofProgram p).mapError LoopError.unplaced =
        (LoopTable.ofProgram q).mapError LoopError.unplaced ∧
      ∀ x y, Executable.ofProgram p = .ok x → Executable.ofProgram q = .ok y →
        ∀ (config : Config) (clock clock' : Clock) (input : String), config.timeout = none →
          ∀ result, x.EndsFrom config clock (Executable.initial config input) result ↔
            y.EndsFrom config clock' (Executable.initial config input) result) :=
  ⟨fun _ _ => instructions_ofSource_written, tokens_ofSource_render, fun _ _ h =>
    ⟨LoopTable.ofProgram_congr h, fun _ _ hx hy _ clock clock' _ htimeout _ =>
      Executable.endsFrom_iff_of_instructions clock clock' h hx hy htimeout⟩⟩

/-- Five letters `O` in a row are the end of a `MOO` and an `OOO`, and what is read has the table of its
instructions. -/
theorem Program.ofSource_written_and_render_abutting :
    IsCommentary "# ".toList ∧
    (ofSource (written "# " [(.loopOpen, ""), (.reset, "\n"), (.loopClose, "")])).instructions =
      [.loopOpen, .reset, .loopClose] ∧
    (LoopTable.ofProgram (ofSource "# MOOOOO\nmoo")).mapError LoopError.unplaced =
      .ok ⟨#[some 2, none, some 0], 1⟩ := by
  have hfirst : IsCommentary "# ".toList := by decide
  have hgaps : ∀ piece ∈ [(Instruction.loopOpen, ""), (.reset, "\n"), (.loopClose, "")],
      IsCommentary piece.2.toList := by decide
  have hread := ofSource_written_and_render.1 "# " _ hfirst hgaps
  have hsource : written "# " [(.loopOpen, ""), (.reset, "\n"), (.loopClose, "")] =
      "# MOOOOO\nmoo" := by decide +kernel
  refine ⟨hfirst, hread, ?_⟩
  rw [hsource] at hread
  exact (ofSource_written_and_render.2.2 _ (ofInstructions [.loopOpen, .reset, .loopClose]) hread).1

end CowLang
