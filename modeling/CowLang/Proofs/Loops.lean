import CowLang.Proofs.Block
/-!
# The loops of a nested program

Where the loops of a block open and close, counted in tokens, and which token is the partner of
which.  Nothing here mentions the table that a run consults: this is the pairing as it is read off
the tree.

Main statements: `exists_loopAt_of_open` and `exists_loopAt_of_close` (every loop instruction is one
end of a loop), `LoopAt.disjoint_or_nested` (loops do not cross), `LoopAt.partner?_eq` and
`exists_loopAt_of_partner?` (partners are the two ends of a loop).
-/

namespace CowLang

namespace Block

/-! ## The loops of a block -/

/-- The loop with body `body` opens at token `i` of the block. -/
inductive LoopAt : Block → Nat → Block → Prop where
  | here {body rest : Block} : LoopAt (loop body rest) 0 body
  | skip {i : Nat} {instr : Instruction} {plain : instr.isLoop = false} {rest body : Block}
      (h : LoopAt rest i body) : LoopAt (simple instr plain rest) (i + 1) body
  | inside {i : Nat} {outer rest body : Block} (h : LoopAt outer i body) :
      LoopAt (loop outer rest) (i + 1) body
  | after {i : Nat} {outer rest body : Block} (h : LoopAt rest i body) :
      LoopAt (loop outer rest) (i + outer.size + 2) body

variable {b c d : Block} {i j k start : Nat}

/-- A loop closes inside the block. -/
theorem LoopAt.close_lt (h : LoopAt b i c) : i + c.size + 1 < b.size := by
  induction h with
  | here => simp only [size]; omega
  | skip h ih => simp only [size]; omega
  | inside h ih => simp only [size]; omega
  | after h ih => simp only [size]; omega

/-- The tokens of a block around one of its loops. -/
theorem LoopAt.flatten_eq (h : LoopAt b i c) :
    ∃ before after, before.length = i ∧
      b.flatten = before ++ .loopOpen :: (c.flatten ++ .loopClose :: after) := by
  induction h with
  | @here body rest => exact ⟨[], rest.flatten, rfl, rfl⟩
  | @skip i instr plain rest body h ih =>
      obtain ⟨before, after, hlength, hflat⟩ := ih
      exact ⟨instr :: before, after, by simp [hlength], by simp [flatten, hflat]⟩
  | @inside i outer rest body h ih =>
      obtain ⟨before, after, hlength, hflat⟩ := ih
      exact ⟨.loopOpen :: before, after ++ .loopClose :: rest.flatten, by simp [hlength],
        by simp [flatten, hflat]⟩
  | @after i outer rest body h ih =>
      obtain ⟨before, after, hlength, hflat⟩ := ih
      refine ⟨.loopOpen :: (outer.flatten ++ .loopClose :: before), after, ?_, ?_⟩
      · simp only [List.length_cons, List.length_append, length_flatten, hlength]
        omega
      · simp [flatten, hflat]

theorem LoopAt.getElem?_open (h : LoopAt b i c) : b.flatten[i]? = some .loopOpen := by
  obtain ⟨before, after, rfl, hflat⟩ := h.flatten_eq
  simp [hflat]

theorem LoopAt.getElem?_close (h : LoopAt b i c) :
    b.flatten[i + c.size + 1]? = some .loopClose := by
  obtain ⟨before, after, rfl, hflat⟩ := h.flatten_eq
  have hindex : before.length + c.size + 1 - before.length = c.size + 1 := by omega
  rw [hflat, List.getElem?_append_right (by omega), hindex, List.getElem?_cons_succ,
    List.getElem?_append_right (by simp)]
  simp

/-- The tokens strictly inside a loop are those of its body. -/
theorem LoopAt.body_eq (h : LoopAt b i c) :
    (b.flatten.take (i + c.size + 1)).drop (i + 1) = c.flatten := by
  obtain ⟨before, after, rfl, hflat⟩ := h.flatten_eq
  have hsplit : b.flatten = (before ++ [Instruction.loopOpen]) ++ (c.flatten ++ .loopClose :: after) := by
    simp [hflat]
  have htake : before.length + c.size + 1 =
      (before ++ [Instruction.loopOpen]).length + c.flatten.length := by
    simp only [List.length_append, List.length_singleton, length_flatten]
    omega
  have hdrop : before.length + 1 = (before ++ [Instruction.loopOpen]).length := by simp
  rw [hsplit, htake, List.take_length_add_append, List.take_left, hdrop, List.drop_left]

/-- Every `MOO` of a block opens a loop. -/
theorem exists_loopAt_of_open (h : b.flatten[i]? = some .loopOpen) : ∃ c, LoopAt b i c := by
  induction b generalizing i with
  | done => simp [flatten] at h
  | simple instr plain rest ih =>
      cases i with
      | zero =>
          simp only [flatten, List.getElem?_cons_zero, Option.some.injEq] at h
          simp [h, Instruction.isLoop] at plain
      | succ i =>
          obtain ⟨c, hc⟩ := ih (by simpa [flatten] using h)
          exact ⟨c, .skip hc⟩
  | loop body rest ihBody ihRest =>
      cases i with
      | zero => exact ⟨body, .here⟩
      | succ i =>
          rcases Nat.lt_trichotomy i body.size with hi | rfl | hi
          · rw [getElem?_flatten_body hi] at h
            obtain ⟨c, hc⟩ := ihBody h
            exact ⟨c, .inside hc⟩
          · rw [getElem?_flatten_close] at h
            cases h
          · obtain ⟨k, rfl⟩ := Nat.exists_eq_add_of_le' (Nat.succ_le_of_lt hi)
            obtain ⟨c, hc⟩ := ihRest (getElem?_flatten_rest.symm.trans h)
            exact ⟨c, .after hc⟩

/-- Every `moo` of a block closes a loop. -/
theorem exists_loopAt_of_close (h : b.flatten[j]? = some .loopClose) :
    ∃ i c, LoopAt b i c ∧ j = i + c.size + 1 := by
  induction b generalizing j with
  | done => simp [flatten] at h
  | simple instr plain rest ih =>
      cases j with
      | zero =>
          simp only [flatten, List.getElem?_cons_zero, Option.some.injEq] at h
          simp [h, Instruction.isLoop] at plain
      | succ j =>
          obtain ⟨i, c, hc, rfl⟩ := ih (by simpa [flatten] using h)
          exact ⟨i + 1, c, .skip hc, by omega⟩
  | loop body rest ihBody ihRest =>
      cases j with
      | zero => simp [flatten] at h
      | succ j =>
          rcases Nat.lt_trichotomy j body.size with hj | rfl | hj
          · rw [getElem?_flatten_body hj] at h
            obtain ⟨i, c, hc, rfl⟩ := ihBody h
            exact ⟨i + 1, c, .inside hc, by omega⟩
          · exact ⟨0, body, .here, by omega⟩
          · obtain ⟨k, rfl⟩ := Nat.exists_eq_add_of_le' (Nat.succ_le_of_lt hj)
            obtain ⟨i, c, hc, rfl⟩ := ihRest (getElem?_flatten_rest.symm.trans h)
            exact ⟨_, c, .after hc, by omega⟩

/-- Two loops are disjoint, or the one that opens later is inside the other. -/
theorem LoopAt.disjoint_or_nested (hc : LoopAt b i c) (hd : LoopAt b k d) (h : i < k) :
    i + c.size + 1 < k ∨ k + d.size + 1 < i + c.size + 1 := by
  -- Only loops on the same side of the first loop have to be compared further; a loop ends inside the
  -- block that it belongs to, which settles the others.
  induction hc generalizing k with
  | here =>
      cases hd with
      | here => omega
      | inside hd => have := hd.close_lt; omega
      | after hd => omega
  | skip hc ih =>
      cases hd with
      | skip hd => have := ih hd (by omega); omega
  | inside hc ih =>
      have hlt := hc.close_lt
      cases hd with
      | here => omega
      | inside hd => have := ih hd (by omega); omega
      | after hd => omega
  | after hc ih =>
      cases hd with
      | here => omega
      | inside hd => have := hd.close_lt; omega
      | after hd => have := ih hd (by omega); omega

/-! ## Partners inside a block -/

/-- The partner of the token at index `k`, for a block whose first token has index `start`. -/
def partner? (start : Nat) : Block → Nat → Option Nat
  | done, _ => none
  | simple _ _ rest, k => rest.partner? (start + 1) k
  | loop body rest, k =>
    if k = start then some (start + body.size + 1)
    else if k = start + body.size + 1 then some start
    else (body.partner? (start + 1) k).or (rest.partner? (start + body.size + 2) k)

/-- Partners are the two ends of a loop. -/
theorem exists_loopAt_of_partner? (h : b.partner? start k = some j) :
    ∃ i c, LoopAt b i c ∧
      (k = start + i ∧ j = start + i + c.size + 1 ∨ k = start + i + c.size + 1 ∧ j = start + i) := by
  induction b generalizing start with
  | done => simp [partner?] at h
  | simple instr plain rest ih =>
      obtain ⟨i, c, hc, hends⟩ := ih h
      exact ⟨i + 1, c, .skip hc, by omega⟩
  | loop body rest ihBody ihRest =>
      -- The first two tests are for the ends of the first loop.
      rw [partner?] at h
      split at h
      · exact ⟨0, body, .here, by simp_all⟩
      · split at h
        · exact ⟨0, body, .here, by simp_all⟩
        · rcases Option.or_eq_some_iff.1 h with hbody | ⟨-, hrest⟩
          · obtain ⟨i, c, hc, hends⟩ := ihBody hbody
            exact ⟨i + 1, c, .inside hc, by omega⟩
          · obtain ⟨i, c, hc, hends⟩ := ihRest hrest
            exact ⟨_, c, .after hc, by omega⟩

/-- Tokens before and after the block have no partner in it. -/
theorem partner?_eq_none_of_outside (h : k < start ∨ start + b.size ≤ k) :
    b.partner? start k = none := by
  rw [Option.eq_none_iff_forall_ne_some]
  intro j hj
  obtain ⟨i, c, hc, hends⟩ := exists_loopAt_of_partner? hj
  have hlt := hc.close_lt
  omega

theorem partner?_loop_of_le {body rest : Block} (hopen : start < k) (hclose : k ≤ start + body.size) :
    (loop body rest).partner? start k = body.partner? (start + 1) k := by
  have hrest : rest.partner? (start + body.size + 2) k = none :=
    partner?_eq_none_of_outside (by omega)
  rw [partner?, if_neg (by omega), if_neg (by omega), hrest, Option.or_none]

theorem partner?_loop_of_gt {body rest : Block} (hclose : start + body.size + 1 < k) :
    (loop body rest).partner? start k = rest.partner? (start + body.size + 2) k := by
  have hbody : body.partner? (start + 1) k = none := partner?_eq_none_of_outside (by omega)
  rw [partner?, if_neg (by omega), if_neg (by omega), hbody, Option.none_or]

/-- Two blocks after each other do not change each other's pairs. -/
theorem partner?_append :
    (b.append c).partner? start k = (b.partner? start k).or (c.partner? (start + b.size) k) := by
  induction b generalizing start with
  | done => rfl
  | simple instr plain rest ih =>
      have hstart : start + 1 + rest.size = start + (rest.size + 1) := by omega
      rw [append, partner?, partner?, size, ih, hstart]
  | loop body rest _ ih =>
      have hstart : start + body.size + 2 + rest.size = start + (body.size + rest.size + 2) := by omega
      rw [append, partner?, partner?, size, ih, hstart]
      split
      · rfl
      · split
        · rfl
        · rw [Option.or_assoc]

/-- Partners move with the block. -/
theorem partner?_add (n : Nat) : b.partner? (n + start) (n + k) = (b.partner? start k).map (n + ·) := by
  induction b generalizing start with
  | done => rfl
  | simple instr plain rest ih => rw [partner?, partner?, Nat.add_assoc, ih]
  | loop body rest ihBody ihRest =>
      have hbody : body.partner? (n + start + 1) (n + k) =
          (body.partner? (start + 1) k).map (n + ·) := by
        rw [← ihBody, Nat.add_assoc]
      have hrest : rest.partner? (n + start + body.size + 2) (n + k) =
          (rest.partner? (start + body.size + 2) k).map (n + ·) := by
        rw [← ihRest, Nat.add_assoc n, Nat.add_assoc n]
      rw [partner?, partner?, hbody, hrest, ← Option.map_or]
      by_cases hopen : k = start
      · rw [if_pos hopen, if_pos (by omega), Option.map_some, Option.some.injEq]
        omega
      · rw [if_neg hopen, if_neg (by omega)]
        by_cases hclose : k = start + body.size + 1
        · rw [if_pos hclose, if_pos (by omega), Option.map_some]
        · rw [if_neg hclose, if_neg (by omega)]

/-- The two ends of a loop are partners. -/
theorem LoopAt.partner?_eq (h : LoopAt b i c) (hj : j = start + i) (hk : k = j + c.size + 1) :
    b.partner? start j = some k ∧ b.partner? start k = some j := by
  induction h generalizing start with
  | @here body rest =>
      simp [partner?, hj, hk]
  | skip h ih => exact ih (by omega) hk
  | @inside i outer rest body h ih =>
      have hlt := h.close_lt
      obtain ⟨hfirst, hlast⟩ : outer.partner? (start + 1) j = some k ∧
          outer.partner? (start + 1) k = some j := ih (by omega) hk
      constructor
      · rw [partner?_loop_of_le (by omega) (by omega), hfirst]
      · rw [partner?_loop_of_le (by omega) (by omega), hlast]
  | @after i outer rest body h ih =>
      obtain ⟨hfirst, hlast⟩ : rest.partner? (start + outer.size + 2) j = some k ∧
          rest.partner? (start + outer.size + 2) k = some j := ih (by omega) hk
      constructor
      · rw [partner?_loop_of_gt (by omega), hfirst]
      · rw [partner?_loop_of_gt (by omega), hlast]

end Block

end CowLang
