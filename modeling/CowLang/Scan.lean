import CowLang.Program
/-!
# Reading a program from source text

A source is read from left to right.  Wherever one of the twelve spellings stands it becomes a
token, and reading goes on after it; any other character is commentary and is passed over by
itself.  So reading never fails, spellings never overlap, and the leftmost one wins.

Reading may start at any place, which lets several sources be numbered as one text: each starts
where the one before it stopped.

Main statements: `scanLoop_place` (reading stops at the end of the text, whatever it finds) and
`scanLoop_tokens` (tokens found earlier are kept in front).
-/

namespace CowLang

namespace Program

/-- Reads on from `place`, adding the tokens to `found`; answers them with the place reached.  The
next `skip` characters belong to the token found last. -/
def scanLoop (place : Position) (skip : Nat) (found : Array Token) :
    List Char → Array Token × Position
  | [] => (found, place)
  | c :: rest =>
    match skip with
    | skip + 1 => scanLoop (place.advance c) skip found rest
    | 0 =>
      match Instruction.leading? (c :: rest) with
      | some (i, _) => scanLoop (place.advance c) 2 (found.push ⟨i, .ofSpelling place⟩) rest
      | none => scanLoop (place.advance c) 0 found rest

/-- The program in a source that starts at `place`, and the place where the source stops. -/
def scanFrom (place : Position) (source : String) : Program × Position :=
  match scanLoop place 0 #[] source.toList with
  | (tokens, reached) => (⟨tokens⟩, reached)

/-- The program in a source text. -/
def ofSource (source : String) : Program :=
  (scanFrom .start source).1

/-- The programs in several sources read one after another, each starting where the last stopped. -/
def scanEach (place : Position) : List String → List Program
  | [] => []
  | source :: rest =>
    match scanFrom place source with
    | (program, reached) => program :: scanEach reached rest

/-- A source given by its characters is read without being taken apart first. -/
theorem ofSource_ofList (text : List Char) :
    ofSource (String.ofList text) = ⟨(scanLoop .start 0 #[] text).1⟩ := by
  rw [ofSource, scanFrom, String.toList_ofList]

/-! ## The place and the tokens of a reading -/

/-- Reading stops at the end of the text. -/
theorem scanLoop_place (text : List Char) (place : Position) (skip : Nat) (found : Array Token) :
    (scanLoop place skip found text).2 = place.advanceAll text := by
  induction text generalizing place skip found with
  | nil => rfl
  | cons c rest ih =>
    have hplace : place.advanceAll (c :: rest) = (place.advance c).advanceAll rest := rfl
    unfold scanLoop
    split
    · rw [ih, hplace]
    · split
      · rw [ih, hplace]
      · rw [ih, hplace]

/-- Tokens found earlier stay in front of those found later. -/
theorem scanLoop_tokens (text : List Char) (place : Position) (skip : Nat) (found : Array Token) :
    (scanLoop place skip found text).1 = found ++ (scanLoop place skip #[] text).1 := by
  induction text generalizing place skip found with
  | nil => simp [scanLoop]
  | cons c rest ih =>
    unfold scanLoop
    split
    · exact ih _ _ found
    · split
      · rw [ih _ _ (found.push _), ih _ _ (#[].push _)]
        simp [← Array.append_assoc]
      · exact ih _ _ found

end Program

end CowLang
