import CowLang.Proofs.Reading
/-!
# Several sources read one after another

A reader that goes on from one source to the next keeps its place, and nothing else.  So it finds in each
source what it would find there alone, only that the places lie behind the text read before.

Taken together, the sources may hold spellings that none of them holds, in which a boundary between two
sources lies.  Unless the whole text has such a token, reading it gives the same tokens: before a boundary
the reader decides by the characters that are left in the source, and it would need characters from behind
the boundary only for a spelling that begins before it and ends behind it.

Main statements: `scanFrom_advanceAll_start` (one source behind a text), `scanLoop_append` (two sources
and the whole text) and `scanEach_translates_and_joins` (any number of sources).
-/

namespace CowLang

theorem utf8ByteSize_eq_length_utf8 (text : String) :
    text.utf8ByteSize = (utf8 text.toList).length := by
  rw [← toList_data_toUTF8, Array.length_toList]
  rfl

/-! ## Places behind a text -/

/-- A place in a source, where the text `before` stands in front of the source.  Columns move only on the
first line of the source, which goes on in the last line of that text. -/
def Position.behind (before : String) (p : Position) : Position where
  offset := before.utf8ByteSize + p.offset
  line := before.toList.count '\n' + p.line
  column := if p.line = 1 then (lastLine before.toList).length + p.column else p.column

/-- A stretch of a source, where the text `before` stands in front of the source. -/
def Span.behind (before : String) (s : Span) : Span where
  start := before.utf8ByteSize + s.start
  stop := before.utf8ByteSize + s.stop
  line := before.toList.count '\n' + s.line
  column := if s.line = 1 then (lastLine before.toList).length + s.column else s.column

/-- A token of a source, where the text `before` stands in front of the source. -/
def Token.behind (before : String) (t : Token) : Token :=
  { t with span := t.span.behind before }

/-- The program in a source, where the text `before` stands in front of the source. -/
def Program.behind (before : String) (p : Program) : Program :=
  ⟨p.tokens.map (Token.behind before)⟩

namespace Position

theorem behind_start (before : String) : start.behind before = start.advanceAll before.toList := by
  rw [advanceAll_start, ← utf8ByteSize_eq_length_utf8, behind, Nat.add_comm (before.toList.count _),
    Nat.add_comm (lastLine _).length]
  rfl

theorem one_le_line_advance {p : Position} (h : 1 ≤ p.line) (c : Char) : 1 ≤ (p.advance c).line := by
  rw [advance]
  split
  · exact Nat.le_succ_of_le h
  · exact h

/-- A character leads on by the same amount, wherever the source stands. -/
theorem advance_behind (before : String) {p : Position} (h : 1 ≤ p.line) (c : Char) :
    (p.behind before).advance c = (p.advance c).behind before := by
  by_cases hc : c = '\n'
  · have hline : p.line + 1 ≠ 1 := by omega
    simp only [advance, behind, if_pos hc, if_neg hline, Nat.add_assoc]
  · simp only [advance, behind, if_neg hc, Nat.add_assoc]
    split <;> rfl

theorem offset_advance (p : Position) (c : Char) : (p.advance c).offset = p.offset + c.utf8Size := by
  rw [advance]
  split <;> rfl

theorem offset_advanceAll (p : Position) (text : List Char) :
    (p.advanceAll text).offset = p.offset + (utf8 text).length := by
  induction text generalizing p with
  | nil => rfl
  | cons c text ih =>
      have hstep : p.advanceAll (c :: text) = (p.advance c).advanceAll text := rfl
      rw [hstep, ih, offset_advance, utf8_cons, List.length_append, String.length_utf8EncodeChar,
        Nat.add_assoc]

end Position

namespace Program

/-- A reader finds the same tokens, wherever the source stands. -/
theorem scanLoop_behind (before : String) (text : List Char) {place : Position}
    (h : 1 ≤ place.line) (skip : Nat) (found : Array Token) :
    (scanLoop (place.behind before) skip (found.map (Token.behind before)) text).1 =
      (scanLoop place skip found text).1.map (Token.behind before) := by
  induction text generalizing place skip found with
  | nil => rfl
  | cons c rest ih =>
      have hnext := Position.one_le_line_advance h c
      cases skip with
      | succ skip =>
          rw [scanLoop, scanLoop, Position.advance_behind before h, ih hnext]
      | zero =>
          rw [scanLoop, scanLoop, Position.advance_behind before h]
          cases Instruction.leading? (c :: rest) with
          | none => exact ih hnext 0 found
          | some leading =>
              obtain ⟨i, after⟩ := leading
              have hpush : (found.map (Token.behind before)).push ⟨i, .ofSpelling (place.behind before)⟩ =
                  (found.push ⟨i, .ofSpelling place⟩).map (Token.behind before) := by
                rw [Array.map_push]
                rfl
              have htail := ih hnext 2 (found.push ⟨i, .ofSpelling place⟩)
              rw [← hpush] at htail
              exact htail

/-- A source that is read behind a text has the tokens of the source alone, at places behind the text. -/
theorem scanFrom_advanceAll_start (before source : String) :
    scanFrom (Position.start.advanceAll before.toList) source =
      ((ofSource source).behind before, Position.start.advanceAll (before ++ source).toList) := by
  have hline : 1 ≤ Position.start.line := Nat.le_refl 1
  have htokens := scanLoop_behind before source.toList hline 0 #[]
  rw [Position.behind_start, List.map_toArray, List.map_nil] at htokens
  have hplace := scanLoop_place source.toList (Position.start.advanceAll before.toList) 0 #[]
  rw [← Position.advanceAll_append, ← String.toList_append] at hplace
  exact Prod.ext (congrArg Program.mk htokens) hplace

/-- Each of several sources is read behind all that come before it. -/
theorem getElem?_scanEach (before : String) (sources : List String) (i : Nat) :
    (scanEach (Position.start.advanceAll before.toList) sources)[i]? =
      sources[i]?.map fun source =>
        (ofSource source).behind (before ++ String.join (sources.take i)) := by
  induction sources generalizing before i with
  | nil => rfl
  | cons source rest ih =>
      rw [scanEach, scanFrom_advanceAll_start]
      cases i with
      | zero => simp [String.join]
      | succ i =>
          rw [List.getElem?_cons_succ, List.getElem?_cons_succ, ih, List.take_succ_cons,
            String.join_cons, String.append_assoc]

end Program

/-! ## Boundaries between sources -/

/-- A token begins before a byte of the text and ends behind it. -/
def Token.Straddles (boundary : Nat) (token : Token) : Prop :=
  token.span.start < boundary ∧ boundary < token.span.stop

/-- A text that may be followed by more begins with a spelling if it is long enough for the one that is read
there. -/
theorem Instruction.chars_prefix_of_leading? {i : Instruction} {s t after : List Char}
    (h : leading? (s ++ t) = some (i, after)) (hlong : 3 ≤ (utf8 s).length) : i.chars <+: s := by
  have htext := eq_of_leading?_eq_some h
  rcases List.prefix_or_prefix_of_prefix (List.prefix_append s t)
    (htext ▸ List.prefix_append i.chars after) with ⟨u, hu⟩ | hprefix
  · -- The spelling has no bytes besides those of the text, so the two are equal.
    have hlength := length_utf8_chars i
    rw [← hu, utf8_append, List.length_append] at hlength
    cases u with
    | nil => exact ⟨[], by rw [← hu, List.append_nil, List.append_nil]⟩
    | cons c u =>
        have hpos := c.utf8Size_pos
        rw [utf8_cons, List.length_append, String.length_utf8EncodeChar] at hlength
        omega
  · exact hprefix

/-- What cannot be read with more text behind it cannot be read alone. -/
theorem Instruction.leading?_eq_none_of_append {s t : List Char} (h : leading? (s ++ t) = none) :
    leading? s = none := by
  cases hs : leading? s with
  | none => rfl
  | some found =>
      obtain ⟨i, rest⟩ := found
      rw [eq_of_leading?_eq_some hs, List.append_assoc, leading?_chars_append] at h
      cases h

namespace Program

/-- If no token of a text straddles a boundary, the text is read as what comes before the boundary and then
what comes behind it. -/
theorem scanLoop_append {s t : List Char} {place : Position}
    (h : ∀ token ∈ (scanLoop place 0 #[] (s ++ t)).1.toList,
      ¬ token.Straddles (place.offset + (utf8 s).length)) :
    (scanLoop place 0 #[] (s ++ t)).1.toList =
      (scanLoop place 0 #[] s).1.toList ++ (scanLoop (place.advanceAll s) 0 #[] t).1.toList := by
  induction hlength : s.length using Nat.strong_induction_on generalizing s place with
  | _ length ih =>
      subst hlength
      cases s with
      | nil => rfl
      | cons c rest =>
          have hsize : (utf8 (c :: rest)).length = c.utf8Size + (utf8 rest).length := by
            rw [utf8_cons, List.length_append, String.length_utf8EncodeChar]
          cases hleading : Instruction.leading? (c :: rest ++ t) with
          | none =>
              have halone := Instruction.leading?_eq_none_of_append hleading
              rw [List.cons_append] at hleading h ⊢
              rw [scanLoop_cons_of_none _ _ hleading] at h ⊢
              rw [scanLoop_cons_of_none _ _ halone]
              refine ih rest.length (Nat.lt_succ_self _) (fun token htoken => ?_) rfl
              rw [Position.offset_advance, Nat.add_assoc, ← hsize]
              exact h token htoken
          | some found =>
              obtain ⟨i, after⟩ := found
              have htext := Instruction.eq_of_leading?_eq_some hleading
              have hfirst := h ⟨i, .ofSpelling place⟩ (by
                rw [htext, scanLoop_chars_append]
                exact List.mem_cons_self)
              have hlong : 3 ≤ (utf8 (c :: rest)).length := by
                have hpos := c.utf8Size_pos
                by_contra hshort
                exact hfirst ⟨Nat.lt_add_of_pos_right (by omega),
                  Nat.add_lt_add_left (Nat.lt_of_not_le hshort) place.offset⟩
              -- The whole spelling stands before the boundary.
              obtain ⟨inner, hinner⟩ := Instruction.chars_prefix_of_leading? hleading hlong
              have hshorter : inner.length < (c :: rest).length := by
                rw [← hinner, List.length_append]
                exact Nat.lt_add_of_pos_left (Nat.succ_pos 2)
              rw [← hinner] at h ⊢
              rw [List.append_assoc, scanLoop_chars_append] at h ⊢
              rw [scanLoop_chars_append, Position.advanceAll_append, List.cons_append]
              refine congrArg (List.cons _) (ih inner.length hshorter (fun token htoken => ?_) rfl)
              rw [Position.offset_advanceAll, Nat.add_assoc, ← List.length_append, ← utf8_append]
              exact h token (List.mem_cons_of_mem _ htoken)

/-- The byte at which the source at an index begins, when the sources before it stand in front of it. -/
def boundary (sources : List String) (i : Nat) : Nat :=
  (String.join (sources.take i)).utf8ByteSize

theorem boundary_cons_succ (source : String) (rest : List String) (i : Nat) :
    boundary (source :: rest) (i + 1) = source.utf8ByteSize + boundary rest i := by
  rw [boundary, List.take_succ_cons, String.join_cons, String.utf8ByteSize_append, boundary]

theorem boundary_le_boundary (sources : List String) {i j : Nat} (h : i ≤ j) :
    boundary sources i ≤ boundary sources j := by
  obtain ⟨between, hbetween⟩ := List.take_prefix_take_left (l := sources) h
  rw [boundary, boundary, ← hbetween, String.join_append, String.utf8ByteSize_append]
  exact Nat.le_add_right _ _

theorem boundary_succ {sources : List String} {i : Nat} {source : String}
    (h : sources[i]? = some source) :
    boundary sources (i + 1) = boundary sources i + source.utf8ByteSize := by
  rw [boundary, List.take_add_one, h, Option.toList_some, String.join_append,
    String.utf8ByteSize_append, boundary, String.join_cons, String.join_nil, String.append_empty]

theorem scanEach_cons (place : Position) (source : String) (rest : List String) :
    scanEach place (source :: rest) =
      ⟨(scanLoop place 0 #[] source.toList).1⟩ :: scanEach (place.advanceAll source.toList) rest := by
  rw [← scanLoop_place source.toList place 0 #[]]
  rfl

/-- Reading the sources one after another gives the tokens of the whole text, if none of them straddles a
boundary. -/
theorem flatMap_scanEach {sources : List String} {place : Position}
    (h : ∀ token ∈ (scanLoop place 0 #[] (String.join sources).toList).1.toList,
      ∀ i, ¬ token.Straddles (place.offset + boundary sources i)) :
    ((scanEach place sources).flatMap fun p => p.tokens.toList) =
      (scanLoop place 0 #[] (String.join sources).toList).1.toList := by
  induction sources generalizing place with
  | nil => rfl
  | cons source rest ih =>
      have hfirst : boundary (source :: rest) 1 = (utf8 source.toList).length := by
        rw [boundary_cons_succ, ← utf8ByteSize_eq_length_utf8]
        rfl
      rw [String.join_cons, String.toList_append] at h ⊢
      have hsplit := scanLoop_append fun token htoken => hfirst ▸ h token htoken 1
      rw [scanEach_cons, List.flatMap_cons, hsplit]
      refine congrArg (List.append _) (ih fun token htoken i => ?_)
      rw [Position.offset_advanceAll, ← utf8ByteSize_eq_length_utf8, Nat.add_assoc,
        ← boundary_cons_succ]
      refine h token ?_ (i + 1)
      rw [hsplit]
      exact List.mem_append_right _ htoken

/-- A token that is found in one of the sources straddles no boundary. -/
theorem not_straddles_of_mem_scanEach {sources : List String} {p : Program} {token : Token}
    (hp : p ∈ scanEach .start sources) (htoken : token ∈ p.tokens) (i : Nat) :
    ¬ token.Straddles (boundary sources i) := by
  obtain ⟨k, hk⟩ := List.mem_iff_getElem?.1 hp
  have hprogram := getElem?_scanEach "" sources k
  rw [String.empty_append, String.toList_empty, Position.advanceAll, List.foldl_nil, hk] at hprogram
  obtain ⟨source, hsource, rfl⟩ := Option.map_eq_some_iff.1 hprogram.symm
  obtain ⟨t, ht, rfl⟩ := Array.mem_map.1 htoken
  have hstands := stands_of_mem_ofSource ht
  have hstop := hstands.stop_eq
  have hinside := hstands.spelledAt.le_length
  rw [← utf8ByteSize_eq_length_utf8] at hinside
  have hnext := boundary_succ hsource
  rintro ⟨hstart, hend⟩
  have hstart' : boundary sources k + t.span.start < boundary sources i := hstart
  have hend' : boundary sources i < boundary sources k + t.span.stop := hend
  -- The boundary lies before the source or behind it.
  rcases Nat.lt_or_ge k i with hlt | hge
  · have hle := boundary_le_boundary sources (i := k + 1) hlt
    omega
  · have hle := boundary_le_boundary sources hge
    omega

/-- Each of several sources that are read one after another has the tokens that it has alone, at places
behind all sources before it.  Their tokens together are those of the whole text exactly when no token of
the whole text straddles a boundary. -/
theorem scanEach_translates_and_joins (sources : List String) :
    (∀ i : Nat, (scanEach .start sources)[i]? =
      sources[i]?.map fun source => (ofSource source).behind (String.join (sources.take i))) ∧
    ((∀ token ∈ (ofSource (String.join sources)).tokens, ∀ i : Nat,
        ¬ token.Straddles (String.join (sources.take i)).utf8ByteSize) ↔
      ((scanEach .start sources).flatMap fun p => p.tokens.toList) =
        (ofSource (String.join sources)).tokens.toList) := by
  refine ⟨fun i => ?_, fun h => ?_, fun h token htoken i => ?_⟩
  · have hbehind := getElem?_scanEach "" sources i
    rwa [String.empty_append, String.toList_empty] at hbehind
  · refine flatMap_scanEach fun token htoken i => ?_
    rw [show (Position.start).offset = 0 from rfl, Nat.zero_add]
    exact h token (Array.mem_toList_iff.1 htoken) i
  · rw [← Array.mem_toList_iff, ← h] at htoken
    obtain ⟨p, hp, htoken⟩ := List.mem_flatMap.1 htoken
    exact not_straddles_of_mem_scanEach hp (Array.mem_toList_iff.1 htoken) i

-- Neither source has the spelling across the boundary, and the second token is on the second line.
example :
    scanEach .start ["moO Mo", "O\n oom"] =
      [⟨#[⟨.pointerRight, ⟨0, 3, 1, 1⟩⟩]⟩, ⟨#[⟨.input, ⟨9, 12, 2, 2⟩⟩]⟩] := by
  decide +kernel

end Program

end CowLang
