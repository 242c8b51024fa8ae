import CowLang.Proofs.Pairing
import CowLang.Proofs.Reading
/-!
# Which token is unmatched

Several loop instructions of a program may be without a partner, and the error names one of them.  The scan
for the table gives up at the first `moo` that finds no open loop.  If there is none it comes to the end of
the program, and of the loops that are still open there it names the innermost.

The stack of the scan is described by the tokens that have been read: they are blocks with a `MOO` before
each but the first, and the stack has the places of these (`LeavesOpen`).

Main statements: `resolveLoop_blames` (the error in terms of all tokens, by the description of the stack),
`not_surplus_of_leavesOpen` and `surplus_flatten_loopClose_iff` (the two errors exclude each other),
`open_balanced_unique` (one `MOO` at most has balanced tokens after it) and
`ofProgram_eq_error_of_not_balanced` (the error of every program that is not balanced).
-/

namespace CowLang

/-! ## The loops that are open behind some tokens -/

/-- The tokens leave loops open, which begin at these indices, innermost first. -/
inductive LeavesOpen : List Instruction → List Nat → Prop where
  | closed (b : Block) : LeavesOpen b.flatten []
  | inside {before : List Instruction} {outer : List Nat} (h : LeavesOpen before outer) (b : Block) :
      LeavesOpen (before ++ .loopOpen :: b.flatten) (before.length :: outer)

namespace LeavesOpen

variable {is : List Instruction} {pending : List Nat}

theorem append_flatten (h : LeavesOpen is pending) (c : Block) :
    LeavesOpen (is ++ c.flatten) pending := by
  cases h with
  | closed b =>
      rw [← Block.flatten_append]
      exact .closed _
  | inside h b =>
      rw [List.append_assoc, List.cons_append, ← Block.flatten_append]
      exact h.inside _

theorem simple (h : LeavesOpen is pending) {i : Instruction} (plain : i.isLoop = false) :
    LeavesOpen (is ++ [i]) pending :=
  h.append_flatten (.simple i plain .done)

theorem loopOpen (h : LeavesOpen is pending) :
    LeavesOpen (is ++ [.loopOpen]) (is.length :: pending) :=
  h.inside .done

/-- A `moo` makes the innermost loop part of the block before it. -/
theorem loopClose {innermost : Nat} {outer : List Nat} (h : LeavesOpen is (innermost :: outer)) :
    LeavesOpen (is ++ [.loopClose]) outer := by
  cases h with
  | @inside before _ h b =>
      have hloop : before ++ .loopOpen :: b.flatten ++ [.loopClose] =
          before ++ (Block.loop b .done).flatten := by
        simp [Block.flatten]
      rw [hloop]
      exact h.append_flatten _

end LeavesOpen

/-! ## The scan -/

/-- The error that the scan gives for a program with these instructions.  What is behind a `moo` that closes
nothing does not matter. -/
inductive Blames (p : Program) : List Instruction → LoopError → Prop where
  | loopClose (b : Block) (after : List Instruction) :
      Blames p (b.flatten ++ .loopClose :: after) (.unmatchedClose b.size (p.spanAt b.size))
  | loopOpen {before : List Instruction} {outer : List Nat} (h : LeavesOpen before outer) (b : Block) :
      Blames p (before ++ .loopOpen :: b.flatten)
        (.unmatchedOpen before.length (p.spanAt before.length))

/-- A scan that fails names one of the two tokens, as long as its stack has the loops that are open. -/
theorem LoopTable.resolveLoop_blames {p : Program} {before is : List Instruction}
    {pending : List Nat} {t : LoopTable} {e : LoopError} (h : LeavesOpen before pending)
    (herror : resolveLoop p before.length pending t is = .error e) : Blames p (before ++ is) e := by
  induction is generalizing before pending t with
  | nil =>
      cases h with
      | closed b => cases herror
      | inside h b =>
          cases herror
          rw [List.append_nil]
          exact .loopOpen h b
  | cons i is ih =>
      -- One more token has been read, with these loops open behind it.
      have hread {pending' : List Nat} {t' : LoopTable} (h' : LeavesOpen (before ++ [i]) pending')
          (herror' : resolveLoop p (before.length + 1) pending' t' is = .error e) :
          Blames p (before ++ i :: is) e := by
        have hlength : (before ++ [i]).length = before.length + 1 := List.length_append
        rw [← hlength] at herror'
        rw [List.append_cons]
        exact ih h' herror'
      by_cases plain : i.isLoop = false
      · rw [resolveLoop_simple p before.length pending t plain] at herror
        exact hread (h.simple plain) herror
      · cases i with
        | loopOpen => exact hread h.loopOpen herror
        | loopClose =>
            cases pending with
            | nil =>
                cases h with
                | closed b =>
                    cases herror
                    rw [Block.length_flatten]
                    exact .loopClose b is
            | cons innermost outer => exact hread h.loopClose herror
        | _ => exact absurd rfl plain

theorem LoopTable.ofProgram_blames {p : Program} (h : ¬ Balanced p.instructions) :
    ∃ e, ofProgram p = .error e ∧ Blames p p.instructions e := by
  cases htable : ofProgram p with
  | ok t => exact absurd (exists_ofProgram_eq_ok_iff.1 ⟨t, htable⟩) h
  | error e => exact ⟨e, rfl, resolveLoop_blames (.closed .done) htable⟩

/-! ## A surplus of `moo` -/

/-- There are more `moo` than `MOO` among the first `n` tokens. -/
def Surplus (is : List Instruction) (n : Nat) : Prop :=
  (is.take n).count .loopOpen < (is.take n).count .loopClose

theorem Block.not_surplus_flatten (b : Block) (n : Nat) : ¬ Surplus b.flatten n :=
  Nat.not_lt.2 ((balanced_flatten b).prefixes _ (List.take_prefix n b.flatten))

/-- Where loops are left open, no `moo` has been without a loop to close. -/
theorem not_surplus_of_leavesOpen {is : List Instruction} {pending : List Nat}
    (h : LeavesOpen is pending) (n : Nat) : ¬ Surplus is n := by
  induction h with
  | closed b => exact b.not_surplus_flatten n
  | @inside before outer h b ih =>
      simp only [Surplus, Nat.not_lt] at ih ⊢
      rw [List.take_append, List.count_append, List.count_append]
      cases n - before.length with
      | zero => simpa using ih
      | succ k =>
          have hblock := Nat.not_lt.1 (b.not_surplus_flatten k)
          rw [List.take_succ_cons, List.count_cons_of_ne (by decide), List.count_cons_self]
          omega

/-- Behind a block, a `moo` makes a surplus, and there was none before. -/
theorem surplus_flatten_loopClose_iff {b : Block} {after : List Instruction} {n : Nat}
    (h : n ≤ b.size + 1) : Surplus (b.flatten ++ .loopClose :: after) n ↔ n = b.size + 1 := by
  constructor
  · intro hsurplus
    by_contra hne
    have hle : n ≤ b.flatten.length := by
      rw [Block.length_flatten]
      omega
    rw [Surplus, List.take_append_of_le_length hle] at hsurplus
    exact b.not_surplus_flatten n hsurplus
  · rintro rfl
    have htotal := (Block.balanced_flatten b).total
    rw [← Block.length_flatten, Surplus, List.take_length_add_append, List.count_append,
      List.count_append, htotal]
    simp

/-! ## Loops that are never closed -/

/-- The `MOO` at index `i` has no partner. -/
def NeverClosed (is : List Instruction) (i : Nat) : Prop :=
  is[i]? = some .loopOpen ∧
    ∀ j, i < j → is[j]? = some .loopClose → ¬ Balanced ((is.take j).drop (i + 1))

/-- What is before a `MOO` does not close it. -/
theorem neverClosed_append_iff {before is : List Instruction} {i : Nat} :
    NeverClosed (before ++ is) (before.length + i) ↔ NeverClosed is i := by
  have hget (k : Nat) : (before ++ is)[before.length + k]? = is[k]? := by
    rw [List.getElem?_append_right (Nat.le_add_right _ _), Nat.add_sub_cancel_left]
  have hbetween (j : Nat) : ((before ++ is).take (before.length + j)).drop (before.length + i + 1) =
      (is.take j).drop (i + 1) := by
    rw [List.take_length_add_append, Nat.add_assoc, List.drop_length_add_append]
  constructor
  · rintro ⟨hopen, hnever⟩
    refine ⟨(hget i).symm.trans hopen, fun j hij hclose => ?_⟩
    rw [← hbetween]
    exact hnever (before.length + j) (by omega) ((hget j).trans hclose)
  · rintro ⟨hopen, hnever⟩
    refine ⟨(hget i).trans hopen, fun j hij hclose => ?_⟩
    obtain ⟨k, rfl⟩ : ∃ k, j = before.length + k := ⟨j - before.length, by omega⟩
    rw [hbetween]
    exact hnever k (by omega) ((hget k).symm.trans hclose)

/-- A `MOO` before a block is never closed in it, unlike those in the block. -/
theorem neverClosed_loopOpen_flatten_iff {b : Block} {i : Nat} :
    NeverClosed (.loopOpen :: b.flatten) i ↔ i = 0 := by
  constructor
  · rintro ⟨hopen, hnever⟩
    cases i with
    | zero => rfl
    | succ i =>
        obtain ⟨c, hc⟩ := Block.exists_loopAt_of_open hopen
        refine absurd ?_ (hnever (i + c.size + 1 + 1) (by omega) hc.getElem?_close)
        rw [List.take_succ_cons, List.drop_succ_cons, hc.body_eq]
        exact Block.balanced_flatten c
  · rintro rfl
    refine ⟨rfl, fun j hj hclose hbalanced => ?_⟩
    obtain ⟨k, rfl⟩ : ∃ k, j = k + 1 := ⟨j - 1, by omega⟩
    rw [List.take_succ_cons, List.drop_succ_cons, List.drop_zero] at hbalanced
    rw [List.getElem?_cons_succ] at hclose
    -- One token further there would be a surplus in the block.
    refine b.not_surplus_flatten (k + 1) ?_
    rw [Surplus, List.take_add_one, hclose, List.count_append, List.count_append, hbalanced.total]
    simp

/-- The tokens after a `MOO` are balanced for one `MOO` at most. -/
theorem open_balanced_unique {is : List Instruction} {i j : Nat} (hj : is[j]? = some .loopOpen)
    (hbalanced : Balanced (is.drop (i + 1))) (hbalanced' : Balanced (is.drop (j + 1))) : ¬ i < j := by
  intro hij
  obtain ⟨hlt, hget⟩ := List.getElem?_eq_some_iff.1 hj
  have hsplit : is.drop (i + 1) = (is.drop (i + 1)).take (j - (i + 1)) ++
      .loopOpen :: is.drop (j + 1) := by
    have hrest : (is.drop (i + 1)).drop (j - (i + 1)) = .loopOpen :: is.drop (j + 1) := by
      rw [List.drop_drop, Nat.add_sub_cancel' hij, List.drop_eq_getElem_cons hlt, hget]
    rw [← hrest, List.take_append_drop]
  -- The later `MOO` is one too many, for nothing after it is left to close it.
  have hprefix := hbalanced.prefixes _ (List.take_prefix (j - (i + 1)) _)
  have htotal := hbalanced.total
  have htotal' := hbalanced'.total
  rw [hsplit] at htotal
  simp only [List.count_append, List.count_cons_self, List.count_cons_of_ne, ne_eq, reduceCtorEq,
    not_false_eq_true] at htotal
  omega

/-! ## The place of the token -/

/-- `span` is the place of the token at an index, which is `instr`: where its letters are in the source that
the program was read from, and nowhere for a program made of instructions. -/
structure Program.LocatedAt (p : Program) (index : Nat) (instr : Instruction) (span : Span) :
    Prop where
  token_eq : p.tokens[index]? = some ⟨instr, span⟩
  stands : ∀ source, p = .ofSource source → Stands source ⟨instr, span⟩
  nowhere : ∀ is, p = .ofInstructions is → span = .nowhere

theorem Program.locatedAt_spanAt {p : Program} {index : Nat} {instr : Instruction}
    (h : p.instruction? index = some instr) : p.LocatedAt index instr (p.spanAt index) := by
  obtain ⟨token, htoken, rfl⟩ : ∃ token, p.tokens[index]? = some token ∧ token.instruction = instr := by
    rw [instruction?] at h
    split at h
    · next token htoken => exact ⟨token, htoken, Option.some.inj h⟩
    · cases h
  have hspan : p.spanAt index = token.span := by
    rw [spanAt, span?, htoken, Option.getD_some]
  rw [hspan]
  refine ⟨htoken, ?_, ?_⟩
  · rintro source rfl
    exact stands_of_mem_ofSource (Array.mem_of_getElem? htoken)
  · rintro is rfl
    have hmem := Array.mem_of_getElem? htoken
    simp only [ofInstructions, List.mem_toArray, List.mem_map] at hmem
    obtain ⟨i, -, rfl⟩ := hmem
    rfl

/-! ## Programs that are not balanced -/

/-- A program that is not balanced has an error.  If some prefix has more `moo` than `MOO`, it names the last
token of the shortest such prefix.  Otherwise it names the one `MOO` with balanced tokens after it, which is
the last of those that are never closed.  In both cases it has the place of the token. -/
theorem ofProgram_eq_error_of_not_balanced (p : Program) (h : ¬ Balanced p.instructions) :
    ((∃ n, Surplus p.instructions n) →
      ∃ index span, Surplus p.instructions (index + 1) ∧
        (∀ n, n ≤ index → ¬ Surplus p.instructions n) ∧
        LoopTable.ofProgram p = .error (.unmatchedClose index span) ∧
        p.LocatedAt index .loopClose span) ∧
    ((∀ n, ¬ Surplus p.instructions n) →
      ∃ index span,
        (∀ i, p.instruction? i = some .loopOpen ∧ Balanced (p.instructions.drop (i + 1)) ↔
          i = index) ∧
        NeverClosed p.instructions index ∧ (∀ i, NeverClosed p.instructions i → i ≤ index) ∧
        LoopTable.ofProgram p = .error (.unmatchedOpen index span) ∧
        p.LocatedAt index .loopOpen span) := by
  obtain ⟨e, herror, hblames⟩ := LoopTable.ofProgram_blames h
  have hlocated {index : Nat} {instr : Instruction} (hget : p.instructions[index]? = some instr) :
      p.LocatedAt index instr (p.spanAt index) :=
    Program.locatedAt_spanAt ((p.instruction?_eq_getElem? index).trans hget)
  simp only [Program.instruction?_eq_getElem?]
  generalize p.instructions = is at hblames hlocated ⊢
  cases hblames with
  | loopClose b after =>
      have hsurplus : Surplus (b.flatten ++ .loopClose :: after) (b.size + 1) :=
        (surplus_flatten_loopClose_iff le_rfl).2 rfl
      refine ⟨fun _ => ⟨b.size, _, hsurplus, fun n hn => ?_, herror, hlocated ?_⟩,
        fun hnone => absurd hsurplus (hnone _)⟩
      · rw [surplus_flatten_loopClose_iff (by omega)]
        omega
      · rw [← Block.length_flatten, List.getElem?_append_right le_rfl, Nat.sub_self,
          List.getElem?_cons_zero]
  | @loopOpen before outer hopen b =>
      have hget : (before ++ .loopOpen :: b.flatten)[before.length]? = some .loopOpen := by
        rw [List.getElem?_append_right le_rfl, Nat.sub_self, List.getElem?_cons_zero]
      have hafter : Balanced ((before ++ .loopOpen :: b.flatten).drop (before.length + 1)) := by
        rw [List.drop_length_add_append]
        exact Block.balanced_flatten b
      refine ⟨fun ⟨n, hn⟩ => absurd hn (not_surplus_of_leavesOpen (hopen.inside b) n),
        fun _ => ⟨before.length, _, fun i => ⟨?_, ?_⟩, ?_, fun i hi => ?_, herror, hlocated hget⟩⟩
      · rintro ⟨hi, hbalanced⟩
        have hge := open_balanced_unique hget hbalanced hafter
        have hle := open_balanced_unique hi hafter hbalanced
        omega
      · rintro rfl
        exact ⟨hget, hafter⟩
      · exact neverClosed_append_iff.2 (neverClosed_loopOpen_flatten_iff.2 rfl)
      · by_contra hlt
        obtain ⟨k, rfl⟩ : ∃ k, i = before.length + k := ⟨i - before.length, by omega⟩
        have hzero := neverClosed_loopOpen_flatten_iff.1 (neverClosed_append_iff.1 hi)
        omega

/-- The second `moo` of `MOO moo moo MOO MOO` closes nothing, and of the `MOO` in `MOO MOO MOO moo` the second
is named.  Both begin a second line. -/
theorem ofProgram_eq_error_of_not_balanced_second_line :
    (LoopTable.ofProgram (.ofSource "MOO moo\nmoo MOO MOO") =
        .error (.unmatchedClose 2 ⟨8, 11, 2, 1⟩) ∧
      (Program.ofSource "MOO moo\nmoo MOO MOO").LocatedAt 2 .loopClose ⟨8, 11, 2, 1⟩) ∧
    LoopTable.ofProgram (.ofSource "MOO\nMOO MOO moo") = .error (.unmatchedOpen 1 ⟨4, 7, 2, 1⟩) ∧
      (Program.ofSource "MOO\nMOO MOO moo").LocatedAt 1 .loopOpen ⟨4, 7, 2, 1⟩ := by
  constructor
  · have hinstructions : (Program.ofSource "MOO moo\nmoo MOO MOO").instructions =
        [.loopOpen, .loopClose, .loopClose, .loopOpen, .loopOpen] := by
      decide +kernel
    have herror : LoopTable.ofProgram (.ofSource "MOO moo\nmoo MOO MOO") =
        .error (.unmatchedClose 2 ⟨8, 11, 2, 1⟩) := by
      decide +kernel
    have hunbalanced : ¬ Balanced (Program.ofSource "MOO moo\nmoo MOO MOO").instructions := by
      rw [hinstructions]
      exact fun h => absurd h.total (by decide)
    have hsurplus : Surplus (Program.ofSource "MOO moo\nmoo MOO MOO").instructions 3 := by
      rw [hinstructions, Surplus]
      decide
    obtain ⟨index, span, -, -, herror', hlocated⟩ :=
      (ofProgram_eq_error_of_not_balanced _ hunbalanced).1 ⟨3, hsurplus⟩
    cases herror.symm.trans herror'
    exact ⟨herror, hlocated⟩
  · have hinstructions : (Program.ofSource "MOO\nMOO MOO moo").instructions =
        [.loopOpen, .loopOpen, .loopOpen, .loopClose] := by
      decide +kernel
    have herror : LoopTable.ofProgram (.ofSource "MOO\nMOO MOO moo") =
        .error (.unmatchedOpen 1 ⟨4, 7, 2, 1⟩) := by
      decide +kernel
    have hunbalanced : ¬ Balanced (Program.ofSource "MOO\nMOO MOO moo").instructions := by
      rw [hinstructions]
      exact fun h => absurd h.total (by decide)
    have hnone (n : Nat) : ¬ Surplus (Program.ofSource "MOO\nMOO MOO moo").instructions n := by
      rw [hinstructions]
      exact not_surplus_of_leavesOpen
        (((LeavesOpen.closed .done).inside .done).inside (.loop .done .done)) n
    obtain ⟨index, span, -, -, -, herror', hlocated⟩ :=
      (ofProgram_eq_error_of_not_balanced _ hunbalanced).2 hnone
    cases herror.symm.trans herror'
    exact ⟨herror, hlocated⟩

end CowLang
