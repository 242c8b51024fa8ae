import CowLang.LoopTable
import CowLang.Proofs.Loops
import Mathlib.Data.List.Nodup
/-!
# What the loop table says

The table is found by one scan with a stack of open loops.  On a program that is written out of a
tree the scan follows the tree and writes down the two ends of every loop, so the table is the
pairing of the tree; on any other program the scan fails.

Main statements: `ofProgram_eq_ok_iff` (a program has a table exactly when it is written out of a
tree, and the table is that of the tree), `isMatching_flatten_iff` (a tree has one well-nested
pairing) and `ofProgram_wellNested` (both together, in terms of the program).
-/

namespace CowLang

namespace LoopTable

/-! ## Looking up in a table -/

/-- Recording a pair changes two entries. -/
theorem target?_pair {t : LoopTable} {first last : Nat} (hfirst : first < t.targets.size)
    (hlast : last < t.targets.size) (k : Nat) :
    (t.pair first last).target? k =
      if k = last then some first else if k = first then some last else t.target? k := by
  by_cases hkl : k = last
  · subst hkl
    simp [pair, target?, hlast]
  · by_cases hkf : k = first
    · subst hkf
      simp [pair, target?, hkl, Ne.symm hkl, hfirst]
    · simp [pair, target?, hkl, hkf, Ne.symm hkl, Ne.symm hkf]

@[simp]
theorem size_targets_pair (t : LoopTable) (first last : Nat) :
    (t.pair first last).targets.size = t.targets.size := by
  simp [pair]

@[simp]
theorem size_pair (t : LoopTable) (first last : Nat) : (t.pair first last).size = t.size + 1 := rfl

/-- A pair is listed when its opening index has the later closing index as its partner. -/
theorem mem_pairs_iff {t : LoopTable} {i j : Nat} :
    (i, j) ∈ t.pairs ↔ t.target? i = some j ∧ i < j := by
  simp only [pairs, target?, List.mem_filterMap, Prod.exists, List.mk_mem_zipIdx_iff_getElem?,
    Array.getElem?_toList]
  constructor
  · rintro ⟨target, index, hget, hpair⟩
    cases target with
    | none => cases hpair
    | some close =>
        by_cases hlt : index < close
        · simp only [hlt, if_true, Option.some.injEq, Prod.mk.injEq] at hpair
          obtain ⟨rfl, rfl⟩ := hpair
          exact ⟨by rw [hget]; rfl, hlt⟩
        · simp [hlt] at hpair
  · rintro ⟨htarget, hlt⟩
    exact ⟨some j, i, Option.join_eq_some_iff.1 htarget, by simp [hlt]⟩

/-- Pairs are listed in the order of their opening indices, and none is listed twice. -/
theorem pairwise_pairs (t : LoopTable) : t.pairs.Pairwise (fun a b => a.1 < b.1) := by
  have hindices : t.targets.toList.zipIdx.Pairwise (fun a b => a.2 < b.2) := by
    rw [← List.pairwise_map, List.zipIdx_map_snd]
    exact List.pairwise_lt_range'
  rw [pairs, List.pairwise_filterMap]
  refine hindices.imp ?_
  rintro ⟨target, index⟩ ⟨target', index'⟩ hlt a ha a' ha'
  have hfirst : a.1 = index := by grind
  have hfirst' : a'.1 = index' := by grind
  rw [hfirst, hfirst']
  exact hlt

/-! ## The table of a tree -/

/-- The table with the loops of a block added, the first token of the block having index `start`. -/
def fill (t : LoopTable) (start : Nat) : Block → LoopTable
  | .done => t
  | .simple _ _ rest => t.fill (start + 1) rest
  | .loop body rest =>
    ((t.fill (start + 1) body).pair start (start + body.size + 1)).fill (start + body.size + 2) rest

@[simp]
theorem size_targets_fill (t : LoopTable) (start : Nat) (b : Block) :
    (t.fill start b).targets.size = t.targets.size := by
  induction b generalizing t start with
  | done => rfl
  | simple instr plain rest ih => exact ih t (start + 1)
  | loop body rest ihBody ihRest => rw [fill, ihRest, size_targets_pair, ihBody]

/-- A block adds as many pairs as it has loops. -/
theorem size_fill (t : LoopTable) (start : Nat) (b : Block) :
    (t.fill start b).size = t.size + b.flatten.count .loopOpen := by
  induction b generalizing t start with
  | done => rfl
  | simple instr plain rest ih =>
      have hne : instr ≠ .loopOpen := by
        rintro rfl
        cases plain
      rw [fill, ih, Block.flatten, List.count_cons_of_ne hne]
  | loop body rest ihBody ihRest =>
      rw [fill, ihRest, size_pair, ihBody]
      simp [Block.flatten]
      omega

/-- The ends of the added loops become partners, and nothing else changes. -/
theorem target?_fill {t : LoopTable} {start : Nat} {b : Block}
    (h : start + b.size ≤ t.targets.size) (k : Nat) :
    (t.fill start b).target? k = (b.partner? start k).or (t.target? k) := by
  induction b generalizing t start with
  | done => rfl
  | simple instr plain rest ih =>
      simp only [Block.size] at h
      exact ih (by omega)
  | loop body rest ihBody ihRest =>
      simp only [Block.size] at h
      rw [fill, ihRest (by simp; omega), target?_pair (by simp; omega) (by simp; omega),
        ihBody (by omega), Block.partner?]
      -- At the two ends of the loop neither the body nor the rest has a say.
      by_cases hopen : k = start
      · rw [if_pos hopen, if_neg (by omega), if_pos hopen,
          Block.partner?_eq_none_of_outside (by omega), Option.none_or, Option.some_or]
      · rw [if_neg hopen, if_neg hopen]
        by_cases hclose : k = start + body.size + 1
        · rw [if_pos hclose, if_pos hclose, Block.partner?_eq_none_of_outside (by omega),
            Option.none_or, Option.some_or]
        · rw [if_neg hclose, if_neg hclose, Option.or_assoc]
          -- The body comes first here and the rest there, but no index belongs to both.
          rcases Nat.lt_or_ge k (start + body.size + 2) with hlt | hge
          · rw [Block.partner?_eq_none_of_outside (Or.inl hlt), Option.none_or, Option.none_or]
          · have hbody : body.partner? (start + 1) k = none :=
              Block.partner?_eq_none_of_outside (by omega)
            rw [hbody, Option.none_or, Option.none_or]

end LoopTable

/-- The table of a tree. -/
def Block.loopTable (b : Block) : LoopTable :=
  LoopTable.fill ⟨Array.replicate b.size none, 0⟩ 0 b

theorem Block.target?_loopTable (b : Block) (k : Nat) :
    b.loopTable.target? k = b.partner? 0 k := by
  have hempty : LoopTable.target? ⟨Array.replicate b.size none, 0⟩ k = none := by
    rw [LoopTable.target?, Array.getElem?_replicate]
    split <;> rfl
  rw [loopTable, LoopTable.target?_fill (by simp), hempty, Option.or_none]

namespace LoopTable

/-! ## The scan -/

theorem resolveLoop_simple (p : Program) (index : Nat) (pending : List Nat) (t : LoopTable)
    {i : Instruction} (plain : i.isLoop = false) (is : List Instruction) :
    resolveLoop p index pending t (i :: is) = resolveLoop p (index + 1) pending t is := by
  cases i <;> first | rfl | cases plain

/-- A block is scanned by adding its loops to the table; the loops open before it stay open. -/
theorem resolveLoop_flatten_append (p : Program) (index : Nat) (pending : List Nat) (t : LoopTable)
    (b : Block) (is : List Instruction) :
    resolveLoop p index pending t (b.flatten ++ is) =
      resolveLoop p (index + b.size) pending (t.fill index b) is := by
  induction b generalizing index pending t is with
  | done => rfl
  | simple instr plain rest ih =>
      rw [Block.flatten, List.cons_append, resolveLoop_simple p index pending t plain, ih,
        Block.size, fill, show index + 1 + rest.size = index + (rest.size + 1) by omega]
  | loop body rest ihBody ihRest =>
      rw [Block.flatten, List.cons_append, List.append_assoc, resolveLoop, ihBody,
        List.cons_append, resolveLoop, ihRest, Block.size, fill,
        show index + 1 + body.size + 1 + rest.size = index + (body.size + rest.size + 2) by omega,
        show index + 1 + body.size = index + body.size + 1 by omega]

/-- The scan succeeds when the tokens that are left close all pending loops. -/
theorem exists_resolveLoop_eq_ok_iff (p : Program) (index : Nat) (pending : List Nat)
    (t : LoopTable) (is : List Instruction) :
    (∃ t', resolveLoop p index pending t is = .ok t') ↔ Closing pending.length is := by
  induction is generalizing index pending t with
  | nil =>
      cases pending with
      | nil => simp [resolveLoop]
      | cons innermost outer => simp [resolveLoop]
  | cons i is ih =>
      by_cases plain : i.isLoop = false
      · rw [resolveLoop_simple p index pending t plain, ih, closing_simple_iff plain]
      · cases i with
        | loopOpen => rw [resolveLoop, ih, List.length_cons, closing_loopOpen_iff]
        | loopClose =>
            cases pending with
            | nil => simp [resolveLoop]
            | cons innermost outer =>
                rw [resolveLoop, ih, List.length_cons, closing_loopClose_iff]
        | _ => exact absurd rfl plain

/-- A program that is written out of a tree has the table of the tree. -/
theorem ofProgram_of_flatten_eq {p : Program} {b : Block} (h : b.flatten = p.instructions) :
    ofProgram p = .ok b.loopTable := by
  have hsize : p.size = b.size := by
    rw [← b.length_flatten, h, Program.length_instructions]
  rw [ofProgram, ← h, ← List.append_nil b.flatten, resolveLoop_flatten_append, hsize]
  rfl

/-- A program has a table exactly when it is balanced. -/
theorem exists_ofProgram_eq_ok_iff {p : Program} :
    (∃ t, ofProgram p = .ok t) ↔ Balanced p.instructions :=
  (exists_resolveLoop_eq_ok_iff p 0 [] _ _).trans balanced_iff_closing.symm

/-- A program has a table exactly when it is written out of a tree, and then that of the tree. -/
theorem ofProgram_eq_ok_iff {p : Program} {t : LoopTable} :
    ofProgram p = .ok t ↔ ∃ b : Block, b.flatten = p.instructions ∧ b.loopTable = t := by
  constructor
  · intro h
    obtain ⟨b, hb⟩ := Block.balanced_iff_exists_flatten.1 (exists_ofProgram_eq_ok_iff.1 ⟨t, h⟩)
    rw [ofProgram_of_flatten_eq hb] at h
    exact ⟨b, hb, Except.ok.inj h⟩
  · rintro ⟨b, hb, rfl⟩
    exact ofProgram_of_flatten_eq hb

end LoopTable

/-! ## Well-nested pairings -/

/-- `target` pairs the loop instructions of a program as brackets are paired. -/
structure IsMatching (is : List Instruction) (target : Nat → Option Nat) : Prop where
  /-- Exactly the loop instructions have a partner. -/
  isSome_iff : ∀ i, (target i).isSome = true ↔ ∃ instr, is[i]? = some instr ∧ instr.isLoop = true
  /-- A `MOO` and a later `moo` are partners of each other, and what is between them is balanced. -/
  opening : ∀ i, is[i]? = some .loopOpen → ∃ j, target i = some j ∧ i < j ∧
    is[j]? = some .loopClose ∧ target j = some i ∧ Balanced ((is.take j).drop (i + 1))

/-- The tokens after a `MOO` are balanced up to one `moo` at most. -/
theorem balanced_close_unique {is : List Instruction} {i j k : Nat} (hij : i < j)
    (hclose : is[j]? = some .loopClose) (hj : Balanced ((is.take j).drop (i + 1)))
    (hk : Balanced ((is.take k).drop (i + 1))) : ¬ j < k := by
  intro hjk
  have hlength : j < is.length := (List.getElem?_eq_some_iff.1 hclose).1
  have hsplit : (is.take (j + 1)).drop (i + 1) = (is.take j).drop (i + 1) ++ [.loopClose] := by
    rw [List.take_add_one, hclose, List.drop_append_of_le_length (by simp; omega)]
    rfl
  have hprefix : (is.take (j + 1)).drop (i + 1) <+: (is.take k).drop (i + 1) :=
    (List.take_prefix_take_left (by omega)).drop (i + 1)
  -- The prefix that ends with the `moo` at `j` would close one loop too many.
  have hcount := hk.prefixes _ hprefix
  have hone : [Instruction.loopClose].count .loopClose = 1 := rfl
  have hzero : [Instruction.loopClose].count .loopOpen = 0 := rfl
  rw [hsplit, List.count_append, List.count_append, hj.total, hone, hzero] at hcount
  omega

namespace Block

/-- The pairing of a tree is well nested. -/
theorem isMatching_partner? (b : Block) : IsMatching b.flatten (b.partner? 0) := by
  constructor
  · intro i
    constructor
    · intro h
      obtain ⟨j, hj⟩ := Option.isSome_iff_exists.1 h
      obtain ⟨k, c, hc, ⟨rfl, -⟩ | ⟨rfl, -⟩⟩ := exists_loopAt_of_partner? hj
      · exact ⟨_, by rw [Nat.zero_add]; exact hc.getElem?_open, rfl⟩
      · exact ⟨_, by rw [Nat.zero_add]; exact hc.getElem?_close, rfl⟩
    · rintro ⟨instr, hinstr, hloop⟩
      cases instr with
      | loopOpen =>
          obtain ⟨c, hc⟩ := exists_loopAt_of_open hinstr
          rw [(hc.partner?_eq (Nat.zero_add i).symm rfl).1]
          rfl
      | loopClose =>
          obtain ⟨k, c, hc, rfl⟩ := exists_loopAt_of_close hinstr
          rw [(hc.partner?_eq (Nat.zero_add k).symm rfl).2]
          rfl
      | _ => cases hloop
  · intro i hi
    obtain ⟨c, hc⟩ := exists_loopAt_of_open hi
    obtain ⟨hfirst, hlast⟩ := hc.partner?_eq (Nat.zero_add i).symm rfl
    refine ⟨i + c.size + 1, hfirst, by omega, hc.getElem?_close, hlast, ?_⟩
    rw [hc.body_eq]
    exact balanced_flatten c

/-- A program that is written out of a tree has no other well-nested pairing. -/
theorem isMatching_flatten_iff {b : Block} {target : Nat → Option Nat} :
    IsMatching b.flatten target ↔ target = b.partner? 0 := by
  constructor
  · intro h
    have hopen {i : Nat} {c : Block} (hc : LoopAt b i c) :
        target i = some (i + c.size + 1) ∧ target (i + c.size + 1) = some i := by
      obtain ⟨j, hj, hij, hclose, hback, hbalanced⟩ := h.opening i hc.getElem?_open
      have hbody : Balanced ((b.flatten.take (i + c.size + 1)).drop (i + 1)) := by
        rw [hc.body_eq]
        exact balanced_flatten c
      have hle := balanced_close_unique (by omega) hc.getElem?_close hbody hbalanced
      have hge := balanced_close_unique hij hclose hbalanced hbody
      obtain rfl : j = i + c.size + 1 := by omega
      exact ⟨hj, hback⟩
    funext k
    cases hk : b.partner? 0 k with
    | some j =>
        obtain ⟨i, c, hc, ⟨rfl, rfl⟩ | ⟨rfl, rfl⟩⟩ := exists_loopAt_of_partner? hk
        · simpa using (hopen hc).1
        · simpa using (hopen hc).2
    | none =>
        rw [← Option.not_isSome_iff_eq_none, h.isSome_iff, ← (isMatching_partner? b).isSome_iff, hk]
        simp
  · rintro rfl
    exact isMatching_partner? b

/-- A token is the opening one of a listed pair exactly when it is a `MOO`. -/
theorem partner?_after_iff {b : Block} {i : Nat} :
    (∃ j, b.partner? 0 i = some j ∧ i < j) ↔ b.flatten[i]? = some .loopOpen := by
  constructor
  · rintro ⟨j, hj, hij⟩
    obtain ⟨k, c, hc, ⟨rfl, rfl⟩ | ⟨rfl, rfl⟩⟩ := exists_loopAt_of_partner? hj
    · simpa using hc.getElem?_open
    · omega
  · intro hi
    obtain ⟨c, hc⟩ := exists_loopAt_of_open hi
    exact ⟨_, (hc.partner?_eq (Nat.zero_add i).symm rfl).1, by omega⟩

theorem mem_pairs_loopTable {b : Block} {i j : Nat} :
    (i, j) ∈ b.loopTable.pairs ↔ b.flatten[i]? = some .loopOpen ∧ b.partner? 0 i = some j := by
  rw [LoopTable.mem_pairs_iff, target?_loopTable, ← partner?_after_iff]
  constructor
  · rintro ⟨hj, hij⟩
    exact ⟨⟨j, hj, hij⟩, hj⟩
  · rintro ⟨⟨k, hk, hik⟩, hj⟩
    obtain rfl : k = j := Option.some.inj (hk.symm.trans hj)
    exact ⟨hj, hik⟩

/-- The table of a tree lists one pair for each `MOO`. -/
theorem length_pairs_loopTable (b : Block) :
    b.loopTable.pairs.length = b.flatten.count .loopOpen := by
  have hnodup : (b.loopTable.pairs.map Prod.fst).Nodup := by
    have hsorted : (b.loopTable.pairs.map Prod.fst).Pairwise (· < ·) :=
      List.pairwise_map.2 b.loopTable.pairwise_pairs
    exact hsorted.nodup
  have hperm : List.Perm (b.loopTable.pairs.map Prod.fst) (b.flatten.idxsOf .loopOpen) := by
    rw [List.perm_ext_iff_of_nodup hnodup List.nodup_idxsOf]
    intro i
    rw [List.mem_idxsOf_iff_exists_getElem_pos, List.mem_map]
    constructor
    · rintro ⟨⟨k, j⟩, hmem, rfl⟩
      obtain ⟨hi, hopen⟩ := List.getElem?_eq_some_iff.1 (mem_pairs_loopTable.1 hmem).1
      exact ⟨hi, beq_iff_eq.2 hopen⟩
    · rintro ⟨hi, hopen⟩
      have hget : b.flatten[i]? = some .loopOpen :=
        List.getElem?_eq_some_iff.2 ⟨hi, beq_iff_eq.1 hopen⟩
      obtain ⟨j, hj, -⟩ := partner?_after_iff.2 hget
      exact ⟨(i, j), mem_pairs_loopTable.2 ⟨hget, hj⟩, rfl⟩
  rw [← List.length_idxsOf, ← hperm.length_eq, List.length_map]

end Block

/-- A program has a loop table exactly when it is balanced, and the table is its one well-nested
pairing: every `moo` belongs to a `MOO`, tokens outside the program have no partner, and each pair is
listed once, in the order of the opening indices, and counted once. -/
theorem ofProgram_wellNested (p : Program) :
    ((∃ t, LoopTable.ofProgram p = .ok t) ↔ Balanced p.instructions) ∧
      ∀ t, LoopTable.ofProgram p = .ok t →
        (∀ target, IsMatching p.instructions target ↔ target = t.target?) ∧
        (∀ j, p.instruction? j = some .loopClose →
          ∃ i, t.target? j = some i ∧ p.instruction? i = some .loopOpen ∧ t.target? i = some j) ∧
        (∀ i, p.size ≤ i → t.target? i = none) ∧
        (∀ i j, (i, j) ∈ t.pairs ↔ p.instruction? i = some .loopOpen ∧ t.target? i = some j) ∧
        t.pairs.Pairwise (fun a b => a.1 < b.1) ∧
        (∀ a ∈ t.pairs, ∀ b ∈ t.pairs, a.1 < b.1 → a.2 < b.1 ∨ b.2 < a.2) ∧
        t.size = t.pairs.length ∧ t.size = p.instructions.count .loopOpen ∧
        (t.isEmpty = true ↔ .loopOpen ∉ p.instructions) := by
  refine ⟨LoopTable.exists_ofProgram_eq_ok_iff, fun t ht => ?_⟩
  obtain ⟨b, hb, rfl⟩ := LoopTable.ofProgram_eq_ok_iff.1 ht
  have htarget : b.loopTable.target? = b.partner? 0 := funext b.target?_loopTable
  have hsize : b.loopTable.size = b.flatten.count .loopOpen := by
    rw [Block.loopTable, LoopTable.size_fill, Nat.zero_add]
  have hlength : p.size = b.size := by
    rw [← b.length_flatten, hb, Program.length_instructions]
  simp only [Program.instruction?_eq_getElem?, ← hb, htarget]
  refine ⟨fun _ => Block.isMatching_flatten_iff, fun j hj => ?_, fun i hi => ?_,
    fun _ _ => Block.mem_pairs_loopTable, b.loopTable.pairwise_pairs, fun x hx y hy hlt => ?_,
    ?_, hsize, ?_⟩
  · obtain ⟨i, c, hc, rfl⟩ := Block.exists_loopAt_of_close hj
    obtain ⟨hfirst, hlast⟩ := hc.partner?_eq (Nat.zero_add i).symm rfl
    exact ⟨i, hlast, hc.getElem?_open, hfirst⟩
  · exact Block.partner?_eq_none_of_outside (by omega)
  · obtain ⟨hx, hx'⟩ := Block.mem_pairs_loopTable.1 hx
    obtain ⟨hy, hy'⟩ := Block.mem_pairs_loopTable.1 hy
    obtain ⟨c, hc⟩ := Block.exists_loopAt_of_open hx
    obtain ⟨d, hd⟩ := Block.exists_loopAt_of_open hy
    rw [(hc.partner?_eq (Nat.zero_add _).symm rfl).1, Option.some.injEq] at hx'
    rw [(hd.partner?_eq (Nat.zero_add _).symm rfl).1, Option.some.injEq] at hy'
    have hnested := hc.disjoint_or_nested hd hlt
    omega
  · rw [hsize, Block.length_pairs_loopTable]
  · rw [LoopTable.isEmpty, beq_iff_eq, hsize, List.count_eq_zero]

/-- The pairing of `MOO MOO moo moO moo`. -/
theorem ofProgram_wellNested_nested :
    LoopTable.ofProgram
        (.ofInstructions [.loopOpen, .loopOpen, .loopClose, .pointerRight, .loopClose]) =
      .ok ⟨#[some 4, some 2, some 1, none, some 0], 2⟩ ∧
    (∀ target,
      IsMatching [.loopOpen, .loopOpen, .loopClose, .pointerRight, .loopClose] target ↔
        target = LoopTable.target? ⟨#[some 4, some 2, some 1, none, some 0], 2⟩) ∧
    LoopTable.pairs ⟨#[some 4, some 2, some 1, none, some 0], 2⟩ = [(0, 4), (1, 2)] :=
  ⟨rfl, ((ofProgram_wellNested (.ofInstructions
    [.loopOpen, .loopOpen, .loopClose, .pointerRight, .loopClose])).2 _ rfl).1, rfl⟩

end CowLang
