import CowLang.Proofs.SourceBytes
import Mathlib.Data.List.Chain
/-!
# What reading a source finds

A reading of a source is described without a reader: every token covers an occurrence of its
spelling and knows its place, tokens come in order without overlapping, and no occurrence is missed
unless it begins inside a token (`IsReading`).  That is enough to determine the tokens, because the
next token has to stand at the first occurrence after the last one (`ReadsFrom`).

Main statements: `readsFrom_unique` (two readings agree), `readsFrom_scanLoop` (reading from left to
right gives one) and `isReading_iff_eq_ofSource` (both together).
-/

namespace CowLang

namespace Program

/-- A token covers an occurrence of its spelling, on the line and in the column where that stands. -/
structure Stands (source : String) (token : Token) : Prop where
  /-- The bytes of the span are the spelling. -/
  spelled : source.toUTF8.extract token.span.start token.span.stop =
    token.instruction.spelling.toUTF8
  stop_eq : token.span.stop = token.span.start + 3
  line_eq : token.span.line = 1 + (charsBefore source.toList token.span.start).count '\n'
  column_eq : token.span.column =
    1 + (lastLine (charsBefore source.toList token.span.start)).length

/-- The tokens of a program are the leftmost occurrences of spellings in a source. -/
structure IsReading (source : String) (p : Program) : Prop where
  stands : ∀ token ∈ p.tokens, Stands source token
  ordered : ∀ (i : Nat) (h : i + 1 < p.tokens.size),
    p.tokens[i].span.stop ≤ p.tokens[i + 1].span.start
  /-- An occurrence begins in a token, be it its own or not. -/
  covered : ∀ (instr : Instruction) (offset : Nat), SpelledAt source offset instr →
    ∃ token ∈ p.tokens, token.span.start ≤ offset ∧ offset < token.span.stop

/-- The tokens from byte `low` on: the next one stands at the first occurrence. -/
def ReadsFrom (source : String) (low : Nat) : List Token → Prop
  | [] => ∀ instr offset, low ≤ offset → ¬ SpelledAt source offset instr
  | token :: rest =>
    low ≤ token.span.start ∧
    (∀ instr offset, low ≤ offset → offset < token.span.start → ¬ SpelledAt source offset instr) ∧
    Stands source token ∧ ReadsFrom source token.span.stop rest

variable {source : String}

/-! ## Readings are determined -/

theorem Stands.spelledAt {token : Token} (h : Stands source token) :
    SpelledAt source token.span.start token.instruction := by
  rw [SpelledAt, ← h.stop_eq]
  exact h.spelled

/-- A token is determined by where it starts. -/
theorem Stands.eq_of_start_eq {s t : Token} (hs : Stands source s) (ht : Stands source t)
    (hstart : s.span.start = t.span.start) : s = t := by
  have hinstr : s.instruction = t.instruction := by
    apply spelling_injective
    have hutf8 := hs.spelled
    rw [hs.stop_eq, hstart, ← ht.stop_eq, ht.spelled] at hutf8
    exact (String.toByteArray_inj.1 hutf8).symm
  have hspan : s.span = t.span := by
    have hstop : s.span.stop = t.span.stop := by rw [hs.stop_eq, ht.stop_eq, hstart]
    have hline : s.span.line = t.span.line := by rw [hs.line_eq, ht.line_eq, hstart]
    have hcolumn : s.span.column = t.span.column := by rw [hs.column_eq, ht.column_eq, hstart]
    cases hspan : s.span
    cases hspan' : t.span
    simp_all
  cases s
  cases t
  simp_all

/-- From a given byte on there is one reading. -/
theorem readsFrom_unique {low : Nat} {ts us : List Token} (ht : ReadsFrom source low ts)
    (hu : ReadsFrom source low us) : ts = us := by
  induction ts generalizing low us with
  | nil =>
      cases us with
      | nil => rfl
      | cons u us =>
          obtain ⟨hlow, -, hstands, -⟩ := hu
          exact absurd hstands.spelledAt (ht _ _ hlow)
  | cons t ts ih =>
      obtain ⟨hlow, hbefore, hstands, hrest⟩ := ht
      cases us with
      | nil => exact absurd hstands.spelledAt (hu _ _ hlow)
      | cons u us =>
          obtain ⟨hlow', hbefore', hstands', hrest'⟩ := hu
          have hle : ¬ u.span.start < t.span.start := by
            intro hlt
            exact hbefore _ _ hlow' hlt hstands'.spelledAt
          have hge : ¬ t.span.start < u.span.start := by
            intro hlt
            exact hbefore' _ _ hlow hlt hstands.spelledAt
          obtain rfl := hstands.eq_of_start_eq hstands' (by omega)
          rw [ih hrest hrest']

/-- The first occurrence comes next exactly when tokens are in order and cover all occurrences. -/
theorem readsFrom_iff {low : Nat} {ts : List Token} :
    ReadsFrom source low ts ↔
      (∀ t ∈ ts, Stands source t) ∧ ts.Pairwise (fun s t => s.span.stop ≤ t.span.start) ∧
      (∀ t ∈ ts, low ≤ t.span.start) ∧
      ∀ instr offset, low ≤ offset → SpelledAt source offset instr →
        ∃ t ∈ ts, t.span.start ≤ offset ∧ offset < t.span.stop := by
  induction ts generalizing low with
  | nil => simp [ReadsFrom]
  | cons t ts ih =>
      rw [ReadsFrom, ih, List.pairwise_cons]
      constructor
      · rintro ⟨hlow, hbefore, hstands, hstands', hpairwise, hafter, hcovered⟩
        have hstop := hstands.stop_eq
        refine ⟨by simpa using ⟨hstands, hstands'⟩, ⟨hafter, hpairwise⟩, ?_, ?_⟩
        · intro u hu
          rcases List.mem_cons.1 hu with rfl | hu
          · exact hlow
          · have hle := hafter u hu
            omega
        · intro instr offset hoffset hspelled
          rcases Nat.lt_or_ge offset t.span.start with hlt | hge
          · exact absurd hspelled (hbefore instr offset hoffset hlt)
          · rcases Nat.lt_or_ge offset t.span.stop with hlt | hge'
            · exact ⟨t, List.mem_cons_self, hge, hlt⟩
            · obtain ⟨u, hu, hcover⟩ := hcovered instr offset hge' hspelled
              exact ⟨u, List.mem_cons_of_mem t hu, hcover⟩
      · rintro ⟨hstands, ⟨hafter, hpairwise⟩, hlow, hcovered⟩
        have hstop := (hstands t List.mem_cons_self).stop_eq
        refine ⟨hlow t List.mem_cons_self, ?_, hstands t List.mem_cons_self,
          fun u hu => hstands u (List.mem_cons_of_mem t hu), hpairwise, hafter, ?_⟩
        · intro instr offset hoffset hlt hspelled
          obtain ⟨u, hu, hle, -⟩ := hcovered instr offset hoffset hspelled
          rcases List.mem_cons.1 hu with rfl | hu
          · omega
          · have hle' := hafter u hu
            omega
        · intro instr offset hoffset hspelled
          have hlow' := hlow t List.mem_cons_self
          obtain ⟨u, hu, hcover⟩ := hcovered instr offset (by omega) hspelled
          rcases List.mem_cons.1 hu with rfl | hu
          · omega
          · exact ⟨u, hu, hcover⟩

/-- Neighbours in order are enough for all tokens to be in order. -/
theorem pairwise_iff_ordered {p : Program} (hstands : ∀ token ∈ p.tokens, Stands source token) :
    p.tokens.toList.Pairwise (fun s t => s.span.stop ≤ t.span.start) ↔
      ∀ (i : Nat) (h : i + 1 < p.tokens.size), p.tokens[i].span.stop ≤ p.tokens[i + 1].span.start := by
  constructor
  · intro h i hi
    have hpair := List.pairwise_iff_getElem.1 h i (i + 1) (by simp; omega) (by simpa using hi)
    simpa using hpair (Nat.lt_succ_self i)
  · intro h
    rw [List.pairwise_iff_getElem]
    intro i j hi hj hij
    simp only [Array.length_toList, Array.getElem_toList] at hi hj ⊢
    -- Starts only grow from a token to the next, so the distance can be bridged step by step.
    induction j, hij using Nat.le_induction with
    | base => exact h i hj
    | succ j hij ih =>
        have hstep := h j hj
        have hstop := (hstands p.tokens[j] (Array.getElem_mem _)).stop_eq
        have hle := ih (by omega)
        omega

theorem isReading_iff_readsFrom {p : Program} :
    IsReading source p ↔ ReadsFrom source 0 p.tokens.toList := by
  rw [readsFrom_iff]
  simp only [Array.mem_toList_iff, Nat.zero_le, implies_true, true_and, forall_const]
  constructor
  · rintro ⟨hstands, hordered, hcovered⟩
    exact ⟨hstands, (pairwise_iff_ordered hstands).2 hordered, hcovered⟩
  · rintro ⟨hstands, hpairwise, hcovered⟩
    exact ⟨hstands, (pairwise_iff_ordered hstands).1 hpairwise, hcovered⟩

/-! ## Reading from left to right -/

/-- A spelling that comes next becomes a token. -/
theorem scanLoop_chars_append (place : Position) (i : Instruction) (rest : List Char) :
    (scanLoop place 0 #[] (i.chars ++ rest)).1.toList =
      ⟨i, .ofSpelling place⟩ :: (scanLoop (place.advanceAll i.chars) 0 #[] rest).1.toList := by
  have hscan : scanLoop place 0 #[] (i.chars ++ rest) =
      scanLoop (place.advanceAll i.chars) 0 #[⟨i, .ofSpelling place⟩] rest := by
    cases i <;> rfl
  rw [hscan, scanLoop_tokens, Array.toList_append]
  rfl

/-- Any other character is passed over by itself. -/
theorem scanLoop_cons_of_none {c : Char} {rest : List Char} (place : Position)
    (found : Array Token) (h : Instruction.leading? (c :: rest) = none) :
    scanLoop place 0 found (c :: rest) = scanLoop (place.advance c) 0 found rest := by
  rw [scanLoop, h]

/-- Where no occurrence begins, reading may as well start later. -/
theorem ReadsFrom.of_later {low high : Nat} {ts : List Token} (h : ReadsFrom source high ts)
    (hle : low ≤ high)
    (hnone : ∀ instr offset, low ≤ offset → offset < high → ¬ SpelledAt source offset instr) :
    ReadsFrom source low ts := by
  cases ts with
  | nil =>
      intro instr offset hoffset
      rcases Nat.lt_or_ge offset high with hlt | hge
      · exact hnone instr offset hoffset hlt
      · exact h instr offset hge
  | cons t ts =>
      obtain ⟨hlow, hbefore, hstands, hrest⟩ := h
      refine ⟨hle.trans hlow, fun instr offset hoffset hlt => ?_, hstands, hrest⟩
      rcases Nat.lt_or_ge offset high with hlt' | hge
      · exact hnone instr offset hoffset hlt'
      · exact hbefore instr offset hge hlt

/-- The token read between two characters stands there. -/
theorem stands_ofSpelling {before text : List Char} {i : Instruction}
    (hsource : source.toList = before ++ (i.chars ++ text)) :
    Stands source ⟨i, .ofSpelling (Position.start.advanceAll before)⟩ := by
  have hbefore : charsBefore source.toList (utf8 before).length = before := by
    rw [hsource, charsBefore_append]
  constructor
  · rw [advanceAll_start]
    exact (spelledAt_iff hsource).2 ⟨text, rfl⟩
  · rfl
  · rw [advanceAll_start, Span.ofSpelling, hbefore]
  · rw [advanceAll_start, Span.ofSpelling, hbefore]

/-- What is read from left to right are the tokens from there on. -/
theorem readsFrom_scanLoop (before text : List Char) (hsource : source.toList = before ++ text) :
    ReadsFrom source (utf8 before).length
      (scanLoop (Position.start.advanceAll before) 0 #[] text).1.toList := by
  induction hlength : text.length using Nat.strong_induction_on generalizing before text with
  | _ length ih =>
      subst hlength
      cases text with
      | nil =>
          intro instr offset hoffset hspelled
          have hle := hspelled.le_length
          rw [hsource, List.append_nil] at hle
          omega
      | cons c rest =>
          cases hleading : Instruction.leading? (c :: rest) with
          | some found =>
              obtain ⟨i, after⟩ := found
              have htext := Instruction.eq_of_leading?_eq_some hleading
              rw [htext] at hsource ⊢
              have hstop : (utf8 (before ++ i.chars)).length = (utf8 before).length + 3 := by
                rw [utf8_append, List.length_append, length_utf8_chars]
              have hrest := ih after.length (by
                have hlength := congrArg List.length htext
                simp only [List.length_cons, List.length_append, Instruction.chars] at hlength ⊢
                omega) (before ++ i.chars) after (by rw [hsource, List.append_assoc]) rfl
              rw [scanLoop_chars_append, ← Position.advanceAll_append]
              refine ⟨by rw [advanceAll_start, Span.ofSpelling], ?_, stands_ofSpelling hsource, ?_⟩
              · intro instr offset hoffset hlt
                rw [advanceAll_start] at hlt
                exact absurd hlt (Nat.not_lt.2 hoffset)
              · rw [hstop] at hrest
                rw [advanceAll_start before, Span.ofSpelling]
                exact hrest
          | none =>
              have hsize : (utf8 (before ++ [c])).length = (utf8 before).length + c.utf8Size := by
                simp
              have hrest := ih rest.length (Nat.lt_succ_self _) (before ++ [c]) rest
                (by rw [hsource, List.append_assoc, List.singleton_append]) rfl
              rw [scanLoop_cons_of_none _ _ hleading]
              rw [Position.advanceAll_append] at hrest
              refine hrest.of_later (by omega) fun instr offset hoffset hlt hspelled => ?_
              rcases Nat.eq_or_lt_of_le hoffset with rfl | hinside
              · obtain ⟨after, hafter⟩ := (spelledAt_iff hsource).1 hspelled
                rw [hafter, Instruction.leading?_chars_append] at hleading
                cases hleading
              · exact not_spelledAt_inside hsource hinside (by omega) instr hspelled

/-- The tokens of the program in a source stand in it. -/
theorem stands_of_mem_ofSource {token : Token} (h : token ∈ (ofSource source).tokens) :
    Stands source token := by
  have hread : ReadsFrom source 0 (ofSource source).tokens.toList :=
    readsFrom_scanLoop [] source.toList rfl
  exact (readsFrom_iff.1 hread).1 token (Array.mem_toList_iff.2 h)

/-- The program in a source is its one reading. -/
theorem isReading_iff_eq_ofSource (source : String) (p : Program) :
    IsReading source p ↔ p = ofSource source := by
  have hread : ReadsFrom source 0 (ofSource source).tokens.toList :=
    readsFrom_scanLoop [] source.toList rfl
  rw [isReading_iff_readsFrom]
  constructor
  · intro h
    have htokens := Array.toList_inj.1 (readsFrom_unique h hread)
    cases p
    exact congrArg mk htokens
  · rintro rfl
    exact hread

end Program

end CowLang
